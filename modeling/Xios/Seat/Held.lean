import Xios.Lib.Machine
import Xios.Lib.SwapTable
import Xios.Text.TextInput

/-! Input that the clients of the input socket hold down, as `iosc.c` keeps track of it. -/

namespace Xios

def maxHeldButtons : Nat := 16

def maxHeldKeys : Nat := 32

def maxTouchPoints : Nat := 10

def btnLeft : Nat := 0x110

def btnRight : Nat := 0x111

def btnMiddle : Nat := 0x112

/-- A button that a client holds down. -/
structure HeldButton where
  client : Nat
  code : Nat
  deriving DecidableEq

/-- A key that a client holds down. -/
structure HeldKey where
  client : Nat
  -- The symbol of its newest press.
  keysym : Nat
  -- The code by which it is known.
  evdev : Nat
  deriving DecidableEq

/-- One finger, on a surface. -/
structure TouchPoint where
  active : Bool := false
  id : Int := 0
  -- The surface that got its start.
  surface : Option Nat := none
  inputClient : Nat := 0
  -- The client that started it, which the code does not keep by itself.
  startedBy : Nat := 0
  deriving DecidableEq

/-- What is passed on to the handlers of buttons and keys. -/
inductive HandlerCall where
  | button (btn : Int) (down : Bool)
  | key (keysym state mods : Nat)
  deriving DecidableEq

/-- What a touch record tells of its finger. -/
inductive TouchPhase where
  | up
  | down
  | motion
  | cancel
  -- Any other number.
  | unknown
  deriving DecidableEq

/--
What clients of the input socket send, and what else ends a touch or stroke.

Records by which nothing can be held are left out.
-/
inductive HeldEvent where
  | button (client : Nat) (btn : Int) (state : Nat)
  | key (client keysym state mods : Nat)
  -- A text, which is typed if nobody else takes it.
  | text (client : Nat) (text : List Nat) (taken : Bool)
  -- A touch or the pencil, with the surface that is there.
  | touch (client : Nat) (id : Int) (phase : TouchPhase) (hit : Option Nat)
  | tablet (client : Nat) (phase : TouchPhase) (hit : Option Nat)
  -- A surface is unmapped or destroyed.
  | surfaceGone (surface : Nat)
  | sessionLocked
  -- A client is gone, while some modifiers are locked.
  | clientDropped (client locked : Nat)
  deriving DecidableEq

/-- Everything that is held. -/
structure HeldInput where
  heldButtons : List HeldButton := []
  heldKeys : List HeldKey := []
  touchPoints : Fin maxTouchPoints → TouchPoint := fun _ => {}
  -- The surface of the current stroke.
  penFocus : Option Nat := none
  penDown : Bool := false
  -- The client that put the pencil down last.
  penClient : Nat := 0
  -- The client that started the stroke, which the code does not keep by itself.
  penStartedBy : Nat := 0
  -- Everything passed on so far, oldest first.
  calls : List HandlerCall := []

def wireButtonCode (btn : Int) : Nat :=
  if btn = 2 then btnMiddle
  else if btn = 3 then btnRight
  else if (btnLeft : Int) ≤ btn then btn.toNat
  else btnLeft

namespace HeldInput

/-- Pass something on. -/
def call (s : HeldInput) (handler : HandlerCall) : HeldInput :=
  { s with calls := s.calls ++ [handler] }

def heldButtonNote (s : HeldInput) (client : Nat) (btn : Int) (down : Bool) : HeldInput :=
  let code := wireButtonCode btn
  let same (held : HeldButton) : Bool := held.client = client ∧ held.code = code
  if s.heldButtons.any same then
    if down then s else { s with heldButtons := swapRemove same s.heldButtons }
  else if down ∧ s.heldButtons.length < maxHeldButtons then
    { s with heldButtons := s.heldButtons ++ [⟨client, code⟩] }
  else s

def heldKeyNote (keymap : Nat → Option Nat) (s : HeldInput) (client keysym : Nat) (down : Bool) :
    HeldInput :=
  match keymap keysym with
  | none => s
  | some evdev =>
    let same (held : HeldKey) : Bool := held.client = client ∧ held.evdev = evdev
    if s.heldKeys.any same then
      if down then
        { s with
          heldKeys := s.heldKeys.modify (s.heldKeys.findIdx same) fun held =>
            { held with keysym } }
      else { s with heldKeys := swapRemove same s.heldKeys }
    else if down ∧ s.heldKeys.length < maxHeldKeys then
      { s with heldKeys := s.heldKeys ++ [⟨client, keysym, evdev⟩] }
    else s

def touchPointById (s : HeldInput) (id : Int) : Option (Fin maxTouchPoints) :=
  (List.finRange maxTouchPoints).find? fun i => (s.touchPoints i).active ∧ (s.touchPoints i).id = id

def setPoint (s : HeldInput) (i : Fin maxTouchPoints) (f : TouchPoint → TouchPoint) : HeldInput :=
  { s with touchPoints := Function.update s.touchPoints i (f (s.touchPoints i)) }

def endPoints (s : HeldInput) (ended : TouchPoint → Bool) : HeldInput :=
  { s with
    touchPoints := fun i =>
      if ended (s.touchPoints i) then { s.touchPoints i with active := false }
      else s.touchPoints i }

def touchCancelAll (s : HeldInput) : HeldInput :=
  s.endPoints fun _ => true

def touchSurfaceGone (s : HeldInput) (surface : Nat) : HeldInput :=
  s.endPoints fun point => point.surface = some surface

def touchDown (s : HeldInput) (client : Nat) (id : Int) (hit : Nat) : HeldInput :=
  let free := (List.finRange maxTouchPoints).find? fun i => !(s.touchPoints i).active
  match (s.touchPointById id).or free with
  | none => s
  | some i =>
    s.setPoint i fun point =>
      { point with active := true, id, surface := some hit, startedBy := client }

/-- A touch record, of which only the start and the end change what is held. -/
def handleTouch (s : HeldInput) (client : Nat) (id : Int) (phase : TouchPhase)
    (hit : Option Nat) : HeldInput :=
  match phase with
  | .cancel => s.touchCancelAll
  | .down =>
    match hit with
    | none => s
    | some hit => s.touchDown client id hit
  | .up =>
    match s.touchPointById id with
    | none => s
    | some i =>
      if (s.touchPoints i).surface.isNone then s
      else s.setPoint i fun point => { point with active := false }
  | .motion => s
  | .unknown => s

def penLeave (s : HeldInput) : HeldInput :=
  { s with penFocus := none, penDown := false }

def handlePencil (s : HeldInput) (client : Nat) (phase : TouchPhase) (hit : Option Nat) :
    HeldInput :=
  match phase with
  | .cancel => s.penLeave
  | .down =>
    let s := if hit = s.penFocus then s else s.penLeave
    if hit.isSome then { s with penFocus := hit, penDown := true, penStartedBy := client } else s
  | .up => s.penLeave
  | .motion => s
  | .unknown => s

def typeText (s : HeldInput) (text : List Nat) : HeldInput :=
  text.foldl (fun s c =>
    if c < 0x80 then
      let keysym := if c = 10 then 0xff0d else c
      (s.call (.key keysym 1 0)).call (.key keysym 0 0)
    else s) s

def takeButtons (s : HeldInput) (client : Nat) : List HeldButton × List HeldButton :=
  SwapTable.sweep (fun held => decide (held.client = client)) s.heldButtons 0

def takeKeys (s : HeldInput) (client : Nat) : List HeldKey × List HeldKey :=
  SwapTable.sweep (fun held => decide (held.client = client)) s.heldKeys 0

def releases (s : HeldInput) (client locked : Nat) : List HandlerCall :=
  (s.takeButtons client).1.map (fun held => .button held.code false) ++
    (s.takeKeys client).1.map fun held => .key held.keysym 0 locked

def releaseHeld (s : HeldInput) (client locked : Nat) : HeldInput :=
  { s with
    heldButtons := (s.takeButtons client).2
    heldKeys := (s.takeKeys client).2
    calls := s.calls ++ s.releases client locked }

section

variable (owner : Nat → Nat)

def releasePoint (client : Nat) (s : HeldInput) (i : Fin maxTouchPoints) : HeldInput :=
  let point := s.touchPoints i
  if point.active ∧ point.inputClient = client then
    match point.surface with
    | none => s.setPoint i fun point => { point with active := false }
    | some surface => s.endPoints fun other => other.surface.map owner = some (owner surface)
  else s

def inputClientDropped (s : HeldInput) (client locked : Nat) : HeldInput :=
  let s := (List.finRange maxTouchPoints).foldl (releasePoint owner client)
    (s.releaseHeld client locked)
  if s.penClient = client then { s.penLeave with penClient := 0 } else s

variable (keymap : Nat → Option Nat)

def next (s : HeldInput) : HeldEvent → HeldInput
  | .button client btn state =>
    (s.call (.button btn (state ≠ 0))).heldButtonNote client btn (state ≠ 0)
  | .key client keysym state mods =>
    (s.call (.key keysym state mods)).heldKeyNote keymap client keysym (state ≠ 0)
  | .text _ text taken => if taken then s else s.typeText text
  | .touch client id phase hit =>
    let s := s.handleTouch client id phase hit
    if phase = .down then
      match s.touchPointById id with
      | none => s
      | some i => s.setPoint i fun point => { point with inputClient := client }
    else s
  | .tablet client phase hit =>
    let s := s.handlePencil client phase hit
    if phase = .down then { s with penClient := client } else s
  | .surfaceGone surface =>
    let s := s.touchSurfaceGone surface
    if s.penFocus = some surface then s.penLeave else s
  | .sessionLocked => s.touchCancelAll.penLeave
  | .clientDropped client locked => s.inputClientDropped owner client locked

def machine : Machine HeldInput HeldEvent where
  start s := s = {}
  enabled _ _ := True
  next := next owner keymap

end

def holdsButton (client code : Nat) : List HeldEvent → Bool
  | [] => false
  | .button client' btn state :: earlier =>
    if client' = client ∧ wireButtonCode btn = code then state ≠ 0
    else holdsButton client code earlier
  | .clientDropped client' _ :: earlier =>
    if client' = client then false else holdsButton client code earlier
  | _ :: earlier => holdsButton client code earlier

def holdsKey (keymap : Nat → Option Nat) (client evdev : Nat) : List HeldEvent → Bool
  | [] => false
  | .key client' keysym state _ :: earlier =>
    if client' = client ∧ keymap keysym = some evdev then state ≠ 0
    else holdsKey keymap client evdev earlier
  | .clientDropped client' _ :: earlier =>
    if client' = client then false else holdsKey keymap client evdev earlier
  | _ :: earlier => holdsKey keymap client evdev earlier

def releasesButton (code : Nat) : HandlerCall → Bool
  | .button btn down => wireButtonCode btn = code ∧ ¬down
  | .key .. => false

def releasesKey (keymap : Nat → Option Nat) (evdev : Nat) : HandlerCall → Bool
  | .button .. => false
  | .key keysym state _ => keymap keysym = some evdev ∧ state = 0

end HeldInput

end Xios
