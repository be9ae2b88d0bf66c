import Mathlib.Logic.Function.Basic
import Xios.Lib.Machine
import Xios.Seat.Focus
import Xios.Seat.Held

/-! The pointer of the seat, what clients are told about it, and what they may tie it to. -/

namespace Xios

/-- Pointer objects that are told anything at a time. -/
def maxSeatRes : Nat := 32

def maxConstraints : Nat := 16

/-- The directions of scrolling. -/
inductive ScrollAxis where
  | vertical
  | horizontal
  deriving DecidableEq

/-- What a pointer object can be told, without times, serials and positions. -/
inductive PointerEvent where
  -- The pointer is over a surface from now on.
  | enter (s : Nat)
  -- The pointer is no longer over a surface.
  | leave (s : Nat)
  | motion
  | button (code : Nat) (down : Bool)
  -- Scrolling by a wheel or a finger, by an amount, and its end.
  | axisSource (wheel : Bool)
  | axis (axis : ScrollAxis) (value : Int)
  | axisStop (axis : ScrollAxis)
  -- All events since the last one belong together.
  | frame
  -- A surface is unmapped or destroyed, which is not sent.
  | gone (s : Nat)
  deriving DecidableEq

namespace PointerEvent

def after : PointerEvent → Option Nat → Option Nat
  | .enter s, _ => some s
  | .leave _, _ => none
  -- A surface that goes away takes the pointer with it.
  | .gone s, surface => surface.filter (· ≠ s)
  | _, surface => surface

/-- An event makes sense to a client that takes the pointer to be over some surface. -/
def Fits : PointerEvent → Option Nat → Prop
  | .enter _, surface => surface = none
  | .leave s, surface => surface = some s
  | .frame, _ | .gone _, _ => True
  -- Motion, buttons and scrolling are about the surface below the pointer.
  | _, surface => surface.isSome = true

instance decidableFits (surface : Option Nat) :
    ∀ event : PointerEvent, Decidable (event.Fits surface)
  | .enter _ | .leave _ => inferInstanceAs (Decidable (surface = _))
  | .frame | .gone _ => .isTrue trivial
  | .motion | .button _ _ | .axisSource _ | .axis _ _ | .axisStop _ =>
    inferInstanceAs (Decidable (surface.isSome = true))

/-- The surface that a client takes the pointer to be over, with events listed newest first. -/
def entered : List PointerEvent → Option Nat
  | [] => none
  | event :: log => event.after (entered log)

/-- Every event made sense when it was sent. -/
def WellSent : List PointerEvent → Prop
  | [] => True
  | event :: log => event.Fits (entered log) ∧ WellSent log

instance decidableWellSent : ∀ log : List PointerEvent, Decidable (WellSent log)
  | [] => .isTrue trivial
  | _ :: log =>
    have := decidableWellSent log
    inferInstanceAs (Decidable (_ ∧ _))

end PointerEvent

/-- A pointer object of a client. -/
structure PointerResource where
  id : Nat
  client : Nat
  version : Nat
  -- The pointer was not over any surface of its client when it was created.
  early : Bool
  -- Everything it was told so far, newest first.
  log : List PointerEvent := []

def PointerResource.tell (p : PointerResource) (event : PointerEvent) : PointerResource :=
  { p with log := event :: p.log }

def PointerResource.tellAll (p : PointerResource) (events : List PointerEvent) : PointerResource :=
  events.foldl PointerResource.tell p

def sendToClient (client : Nat) (send : PointerResource → PointerResource)
    (pointers : List PointerResource) : List PointerResource :=
  pointers.map fun p => if p.client = client then send p else p

/-- Tell all pointer objects of a client that know of it that a group of events ends. -/
def pointerFrameClient (client : Nat) : List PointerResource → List PointerResource :=
  sendToClient client fun p => if 5 ≤ p.version then p.tell .frame else p

def sendFrame (client : Nat) (events : PointerResource → List PointerEvent)
    (pointers : List PointerResource) : List PointerResource :=
  pointerFrameClient client (sendToClient client (fun p => p.tellAll (events p)) pointers)

def noteGone (s : Nat) (pointers : List PointerResource) : List PointerResource :=
  pointers.map fun p => p.tell (.gone s)

/-- A wish of a client to lock the pointer in place or to confine it to a surface. -/
structure PointerConstraint where
  surface : Option Nat := none
  -- The pointer is locked in place, and confined otherwise.
  locks : Bool := false
  -- It is used up once it has been active.
  oneshot : Bool := false
  active : Bool := false
  dead : Bool := false

/-- All constraints, as `iosc_pointer_ext.c` keeps them. -/
structure PointerConstraints where
  -- The constraints that exist, in the order of the table.
  ids : List Nat := []
  constraint : Nat → PointerConstraint := fun _ => {}
  active : Option Nat := none

namespace PointerConstraints

def modify (k : PointerConstraints) (id : Nat) (f : PointerConstraint → PointerConstraint) :
    PointerConstraints :=
  { k with constraint := Function.update k.constraint id (f (k.constraint id)) }

def constraintForSurface (k : PointerConstraints) : Option Nat → Option Nat
  | none => none
  | some s => k.ids.find? fun id => !(k.constraint id).dead && (k.constraint id).surface = some s

def constraintDeactivate (k : PointerConstraints) (id : Nat) : PointerConstraints :=
  if (k.constraint id).active then
    -- One that can only be active once is used up now.
    { k.modify id fun cc => { cc with active := false, dead := cc.dead || cc.oneshot } with
      active := if k.active = some id then none else k.active }
  else k

def constraintActivate (k : PointerConstraints) (id : Nat) : PointerConstraints :=
  if (k.constraint id).active then k
  else { k.modify id fun cc => { cc with active := true } with active := some id }

def leaveFocus (k : PointerConstraints) (newfocus : Option Nat) : PointerConstraints :=
  match k.active with
  | some id => if (k.constraint id).surface = newfocus then k else k.constraintDeactivate id
  | none => k

def constraintsUpdateFocus (k : PointerConstraints) (newfocus : Option Nat) : PointerConstraints :=
  let k := k.leaveFocus newfocus
  -- At most one constraint is active.
  match k.active, k.constraintForSurface newfocus with
  | none, some id => k.constraintActivate id
  | _, _ => k

def pointerLockedFor (k : PointerConstraints) (s : Option Nat) : Bool :=
  k.active.any fun id =>
    (k.constraint id).active && (k.constraint id).locks && (k.constraint id).surface = s

def constraintDetachSurface (k : PointerConstraints) (id : Nat) : PointerConstraints :=
  if (k.constraint id).surface.isNone then k
  else (k.constraintDeactivate id).modify id fun cc => { cc with surface := none }

def constraintsSurfaceGone (k : PointerConstraints) (s : Nat) : PointerConstraints :=
  k.ids.foldl (fun k id =>
    if (k.constraint id).surface = some s then k.constraintDetachSurface id else k) k

def constraintResDestroy (k : PointerConstraints) (id : Nat) : PointerConstraints :=
  { k with
    ids := swapRemove (· = id) k.ids
    active := if k.active = some id then none else k.active }

def constraintNew (k : PointerConstraints) (focus : Option Nat) (id : Nat) (surface : Option Nat)
    (locks oneshot : Bool) : PointerConstraints :=
  if maxConstraints ≤ k.ids.length then k
  else
    let k := { k.modify id fun _ => { surface, locks, oneshot } with ids := k.ids ++ [id] }
    if surface.isSome ∧ surface = focus ∧ k.active = none then k.constraintActivate id else k

end PointerConstraints

/-- A drag that is going on, with the button that is held for it. -/
structure ButtonDrag extends Drag where
  button : Nat
  deriving DecidableEq

/-- The pointer, and all that decides about where it is. -/
structure PointerSeat where
  -- The surfaces that are shown.
  mapped : List Nat := []
  -- The pointer objects that are told about the pointer.
  pointers : List PointerResource := []
  -- The surface the pointer is over.
  ptrFocus : Option Nat := none
  constraints : PointerConstraints := {}
  -- The session is locked, by an object, which shows a surface.
  locked : Bool := false
  lock : Option Nat := none
  lockSurface : Option Nat := none
  drag : Option ButtonDrag := none
  -- The window that is being moved or resized.
  moving : Option Nat := none
  -- Buttons that are down, and the one that was pressed last.
  buttonDown : Nat := 0
  buttonSerialCode : Nat := 0

namespace PointerSeat

/-- What happens to the pointer. -/
inductive Event where
  -- Records of the input socket, with the surface that is there or the one they are bound to.
  | motion (hit : Option Nat)
  | button (hit : Option Nat) (btn : Int) (state : Nat) (dismissed : List Nat)
  | axis (bound : Option Nat) (dx dy : Int) (source : Nat) (stop : Bool)
  | gesture (bound : Option Nat)
  -- A client of the input socket is gone while it holds some buttons.
  | clientDropped (codes : List Nat)
  -- A surface is shown, hidden after the popups that belong to it, and destroyed.
  | map (s : Nat)
  | unmap (s : Nat)
  | destroy (s : Nat)
  -- A lock is taken, used, given back, and destroyed.
  | lock (l : Nat)
  | getLockSurface (l s : Nat)
  | lockSurfaceDestroyed (s : Nat)
  | unlock (l : Nat)
  | lockDestroyed (l : Nat)
  -- Pointer objects and constraints are created and destroyed.
  | getPointer (id client version : Nat)
  | pointerDestroyed (id : Nat)
  | constraintNew (id : Nat) (surface : Option Nat) (locks oneshot : Bool)
  | constraintDestroyed (id : Nat)
  -- A drag is asked for, maybe with the newest press, and ends because its source is gone.
  | startDrag (origin : Nat) (icon : Option Nat) (newest : Bool)
  | dragSourceDestroyed
  -- A window begins to be moved or resized.
  | interactiveBegin (s : Nat)

def surfaceMap (st : PointerSeat) (s : Nat) : PointerSeat :=
  if s ∈ st.mapped ∨ maxSurfaces ≤ st.mapped.length then st
  else { st with mapped := st.mapped ++ [s] }

def dndEnd (st : PointerSeat) : PointerSeat :=
  if st.drag.isSome then { st with drag := none, ptrFocus := none } else st

/-- A surface goes away while it may be part of a drag. -/
def dragGone (st : PointerSeat) (s : Nat) : PointerSeat :=
  if st.drag.any fun drag => drag.origin = s ∨ drag.icon = some s then st.dndEnd else st

/-- Take the pointer and all constraints off a surface that goes away. -/
def pointerGone (st : PointerSeat) (s : Nat) : PointerSeat :=
  { st with
    ptrFocus := if st.ptrFocus = some s then none else st.ptrFocus
    constraints := st.constraints.constraintsSurfaceGone s
    pointers := noteGone s st.pointers }

def surfaceUnmap (st : PointerSeat) (s : Nat) : PointerSeat :=
  let st := st.dragGone s
  let st := { st with
    moving := if st.moving = some s then none else st.moving
    lockSurface := if st.lockSurface = some s then none else st.lockSurface }
  if s ∈ st.mapped then { st with mapped := st.mapped.erase s }.pointerGone s else st

def surfaceResourceDestroy (st : PointerSeat) (s : Nat) : PointerSeat :=
  -- The lock surface is never shown, but the pointer can be over it.
  (st.surfaceUnmap s).pointerGone s

section

-- The client of a surface.
variable (owner : Nat → Nat)

def tellFocus (st : PointerSeat) (events : Nat → PointerResource → List PointerEvent) :
    PointerSeat :=
  { st with
    pointers := st.ptrFocus.elim st.pointers fun s => sendFrame (owner s) (events s) st.pointers }

def changeFocus (st : PointerSeat) (hit : Option Nat) : PointerSeat :=
  let st := st.tellFocus owner fun s _ => [.leave s]
  let st := { st with
    ptrFocus := hit
    constraints := st.constraints.constraintsUpdateFocus hit }
  st.tellFocus owner fun s _ => [.enter s]

def handleMotion (st : PointerSeat) (hit : Option Nat) : PointerSeat :=
  -- A pointer that is locked in place only sends how far it would have moved.
  if st.constraints.pointerLockedFor st.ptrFocus then st
  -- A drag, a move and a resize of a window keep the pointer to themselves.
  else if st.drag.isSome ∨ st.moving.isSome then st
  else
    let st := if hit = st.ptrFocus then st else st.changeFocus owner hit
    st.tellFocus owner fun _ _ => [.motion]

def dismissOutside (st : PointerSeat) (down : Bool) (dismissed : List Nat) : PointerSeat :=
  if down then dismissed.foldl surfaceUnmap st else st

def notePress (st : PointerSeat) (down : Bool) (code : Nat) : PointerSeat :=
  if down && st.ptrFocus.isSome then { st with buttonSerialCode := code } else st

def handleButton (st : PointerSeat) (btn : Int) (down : Bool) (dismissed : List Nat) :
    PointerSeat :=
  let code := wireButtonCode btn
  let st := { st with buttonDown := if down then st.buttonDown + 1 else st.buttonDown - 1 }
  match st.drag with
  -- The button of a drag drops what is dragged.
  | some drag => if !down && code = drag.button then st.dndEnd else st
  | none =>
    if !down && st.moving.isSome then { st with moving := none }
    else
      ((st.dismissOutside down dismissed).notePress down code).tellFocus owner fun _ _ =>
        [.button code down]

def axisEvents (dx dy : Int) (source : Nat) (stop : Bool) (p : PointerResource) :
    List PointerEvent :=
  let v5 := decide (5 ≤ p.version)
  (if v5 then [.axisSource (source = 1)] else []) ++
    if stop then
      if v5 then [.axisStop .vertical, .axisStop .horizontal] else []
    else
      (if dy ≠ 0 then [.axis .vertical dy] else []) ++
        if dx ≠ 0 then [.axis .horizontal dx] else []

def handleAxis (st : PointerSeat) (dx dy : Int) (source : Nat) (stop : Bool) : PointerSeat :=
  if stop = false ∧ dx = 0 ∧ dy = 0 then st
  else st.tellFocus owner fun _ => axisEvents dx dy source stop

def focusBound (st : PointerSeat) (bound : Option Nat) : PointerSeat :=
  if bound.isSome ∧ st.locked = false then { st with ptrFocus := bound } else st

/-- A client of the input socket is gone, and the buttons it held are released. -/
def inputClientDropped (st : PointerSeat) (codes : List Nat) : PointerSeat :=
  -- A drag is cancelled, not dropped.
  let st := if st.drag.any fun drag => drag.button ∈ codes then st.dndEnd else st
  codes.foldl (fun st code => st.handleButton owner code false []) st

def slockMgrLock (st : PointerSeat) (l : Nat) : PointerSeat :=
  if st.lock.isSome then st
  else { st with lock := some l, locked := true, ptrFocus := none }.dndEnd

def slockGetLockSurface (st : PointerSeat) (l s : Nat) : PointerSeat :=
  if st.lock = some l ∧ st.locked = true ∧ st.lockSurface = none then
    { st with lockSurface := some s }
  else st

def slockUnlockAndDestroy (st : PointerSeat) (l : Nat) : PointerSeat :=
  if st.lock = some l ∧ st.locked = true then
    { st with locked := false, lock := none, ptrFocus := none }
  else st

def focusedClient (st : PointerSeat) (client : Nat) : Bool :=
  st.ptrFocus.any fun s => owner s = client

def seatGetPointer (st : PointerSeat) (id client version : Nat) : PointerSeat :=
  if st.pointers.length < maxSeatRes then
    let early := !st.focusedClient owner client
    { st with pointers := st.pointers ++ [{ id, client, version, early }] }
  else st

def acceptsDrag (st : PointerSeat) (newest : Bool) : Bool :=
  st.drag.isNone && decide (0 < st.buttonDown) && newest

def dataDeviceStartDrag (st : PointerSeat) (origin : Nat) (icon : Option Nat) (newest : Bool) :
    PointerSeat :=
  if st.acceptsDrag newest then
    { st.tellFocus owner fun s _ => [.leave s] with
      drag := some { origin, icon, button := st.buttonSerialCode }
      ptrFocus := none }
  else st

def next (st : PointerSeat) : Event → PointerSeat
  | .motion hit => st.handleMotion owner hit
  | .button hit btn state dismissed =>
    (st.handleMotion owner hit).handleButton owner btn (state ≠ 0) dismissed
  | .axis bound dx dy source stop => (st.focusBound bound).handleAxis owner dx dy source stop
  -- What is sent about a gesture is not sent to pointer objects.
  | .gesture bound => st.focusBound bound
  | .clientDropped codes => st.inputClientDropped owner codes
  | .map s => st.surfaceMap s
  | .unmap s => st.surfaceUnmap s
  | .destroy s => st.surfaceResourceDestroy s
  | .lock l => st.slockMgrLock l
  | .getLockSurface l s => st.slockGetLockSurface l s
  | .lockSurfaceDestroyed s =>
    { st with lockSurface := if st.lockSurface = some s then none else st.lockSurface }
  | .unlock l => st.slockUnlockAndDestroy l
  | .lockDestroyed l => { st with lock := if st.lock = some l then none else st.lock }
  | .getPointer id client version => st.seatGetPointer owner id client version
  | .pointerDestroyed id =>
    { st with pointers := swapRemove (fun p => p.id = id) st.pointers }
  | .constraintNew id surface locks oneshot =>
    { st with
      constraints := st.constraints.constraintNew st.ptrFocus id surface locks oneshot }
  | .constraintDestroyed id =>
    { st with constraints := st.constraints.constraintResDestroy id }
  | .startDrag origin icon newest => st.dataDeviceStartDrag owner origin icon newest
  | .dragSourceDestroyed => st.dndEnd
  | .interactiveBegin s => { st with moving := some s }

end

/-- A surface may be found below the pointer. -/
def MayHit (st : PointerSeat) : Option Nat → Prop
  | none => True
  -- While the session is locked there is only the lock surface.
  | some s => if st.locked then st.lockSurface = some s else s ∈ st.mapped

instance decidableMayHit (st : PointerSeat) : ∀ hit, Decidable (st.MayHit hit)
  | none => .isTrue trivial
  | some s => inferInstanceAs (Decidable (if st.locked then st.lockSurface = some s else _))

/-- Surfaces are found where they can be, records are bound to mapped ones, and objects are new. -/
def Allowed (st : PointerSeat) : Event → Prop
  | .motion hit | .button hit _ _ _ => st.MayHit hit
  | .axis bound _ _ _ _ | .gesture bound => ∀ s ∈ bound, s ∈ st.mapped
  | .getPointer id _ _ => ∀ p ∈ st.pointers, p.id ≠ id
  | .constraintNew id _ _ _ => id ∉ st.constraints.ids
  | _ => True

instance decidableAllowed (st : PointerSeat) (event : Event) : Decidable (st.Allowed event) := by
  unfold Allowed
  induction event using Event.casesOn <;> infer_instance

def machine (owner : Nat → Nat) : Machine PointerSeat Event where
  start st := st = {}
  enabled := Allowed
  next := next owner

instance (owner : Nat → Nat) (st : PointerSeat) (event : Event) :
    Decidable ((machine owner).enabled st event) :=
  inferInstanceAs (Decidable (st.Allowed event))

end PointerSeat

end Xios
