import Xios.Lib.Machine
import Xios.Seat.Held

/-! Touches in `iosc.c`, and what the clients are told about them. -/

namespace Xios

/-- What a client is told about touches. -/
inductive TouchSent where
  -- A touch begins on a surface, moves, and ends.
  | down (surface : Nat) (id : Int)
  | motion (id : Int)
  | up (id : Int)
  -- All touches of the client end.
  | cancel
  -- What was told before belongs together.
  | frame
  deriving DecidableEq

/-- The touch points, and what the clients were told. Each has its `wl_touch` from the start on. -/
structure TouchSeat where
  points : Fin maxTouchPoints → TouchPoint := fun _ => {}
  destroyed : Nat → Bool := fun _ => false
  -- What each client was told, newest first and for reference only.
  log : Nat → List TouchSent := fun _ => []

namespace TouchSeat

def send (st : TouchSeat) (client : Nat) (event : TouchSent) : TouchSeat :=
  { st with log := Function.update st.log client (event :: st.log client) }

def setPoint (st : TouchSeat) (i : Fin maxTouchPoints) (f : TouchPoint → TouchPoint) : TouchSeat :=
  { st with points := Function.update st.points i (f (st.points i)) }

def endPoints (st : TouchSeat) (ended : TouchPoint → Bool) : TouchSeat :=
  { st with
    points := fun i =>
      if ended (st.points i) then { st.points i with active := false } else st.points i }

def touchPointById (st : TouchSeat) (id : Int) : Option (Fin maxTouchPoints) :=
  (List.finRange maxTouchPoints).find? fun i => (st.points i).active ∧ (st.points i).id = id

section

-- The client of a surface.
variable (owner : Nat → Nat)

def cancelClientOf (st : TouchSeat) (s : Nat) : TouchSeat :=
  (st.send (owner s) .cancel).endPoints fun point => point.surface.map owner = some (owner s)

def cancelPoint (st : TouchSeat) (i : Fin maxTouchPoints) : TouchSeat :=
  if (st.points i).active then
    match (st.points i).surface with
    | none => st.setPoint i fun point => { point with active := false }
    | some s => st.cancelClientOf owner s
  else st

def touchCancelAll (st : TouchSeat) : TouchSeat :=
  (List.finRange maxTouchPoints).foldl (cancelPoint owner) st

def touchSurfaceGone (st : TouchSeat) (s : Nat) : TouchSeat :=
  if ∃ i, (st.points i).active = true ∧ (st.points i).surface = some s then
    (st.send (owner s) .cancel).endPoints fun point => point.surface = some s
  else st

def touchDown (st : TouchSeat) (id : Int) (hit : Nat) : TouchSeat :=
  let free := (List.finRange maxTouchPoints).find? fun i => !(st.points i).active
  match (st.touchPointById id).or free with
  | none => st
  | some i =>
    let st := st.setPoint i fun point => { point with active := true, id, surface := some hit }
    (st.send (owner hit) (.down hit id)).send (owner hit) .frame

def touchFollow (st : TouchSeat) (id : Int) (phase : TouchPhase) : TouchSeat :=
  match st.touchPointById id with
  | none => st
  | some i =>
    match (st.points i).surface with
    | none => st
    | some s =>
      match phase with
      | .motion => (st.send (owner s) (.motion id)).send (owner s) .frame
      | .up =>
        ((st.send (owner s) (.up id)).send (owner s) .frame).setPoint i fun point =>
          { point with active := false }
      | _ => st

/-- A touch record, with the surface that is there and the popups that a touch outside dismisses. -/
def handleTouch (st : TouchSeat) (id : Int) (phase : TouchPhase) (hit : Option Nat)
    (dismissed : List Nat) : TouchSeat :=
  match phase with
  | .cancel => st.touchCancelAll owner
  | .down =>
    let st := dismissed.foldl (touchSurfaceGone owner) st
    match hit with
    | none => st
    | some hit => st.touchDown owner id hit
  | phase => st.touchFollow owner id phase

def inputClientDropped (st : TouchSeat) (client : Nat) : TouchSeat :=
  (List.finRange maxTouchPoints).foldl (fun st i =>
    if (st.points i).inputClient = client then st.cancelPoint owner i else st) st

end

/-- What happens to the touches. -/
inductive Event where
  -- A record of a client of the input socket.
  | touch (client : Nat) (id : Int) (phase : TouchPhase) (hit : Option Nat) (dismissed : List Nat)
  -- A surface is hidden, and destroyed.
  | unmapped (s : Nat)
  | destroyed (s : Nat)
  | sessionLocked
  -- A client of the input socket is gone.
  | clientDropped (client : Nat)
  deriving DecidableEq

section

variable (owner : Nat → Nat)

def next (st : TouchSeat) : Event → TouchSeat
  | .touch client id phase hit dismissed =>
    let st := st.handleTouch owner id phase hit dismissed
    if phase = .down then
      match st.touchPointById id with
      | none => st
      | some i => st.setPoint i fun point => { point with inputClient := client }
    else st
  | .unmapped s => st.touchSurfaceGone owner s
  | .destroyed s =>
    { st.touchSurfaceGone owner s with destroyed := Function.update st.destroyed s true }
  | .sessionLocked => st.touchCancelAll owner
  | .clientDropped client => st.inputClientDropped owner client

/-- Only surfaces that exist are touched. -/
def Possible (st : TouchSeat) : Event → Prop
  | .touch _ _ _ hit _ => ∀ s ∈ hit, st.destroyed s = false
  | _ => True

def machine : Machine TouchSeat Event where
  start st := st = {}
  enabled := Possible
  next := next owner

end

end TouchSeat

/-- The touches that a client takes to go on, with events listed newest first. -/
def openTouches : List TouchSent → List Int
  | [] => []
  | .down _ id :: log => id :: openTouches log
  | .up id :: log => (openTouches log).filter (· ≠ id)
  | .cancel :: _ => []
  | .motion _ :: log | .frame :: log => openTouches log

/-- Every event was about a touch that went on, or began one that did not. -/
def WellTouched : List TouchSent → Prop
  | [] => True
  | .down _ id :: log => id ∉ openTouches log ∧ WellTouched log
  | .motion id :: log | .up id :: log => id ∈ openTouches log ∧ WellTouched log
  | .cancel :: log | .frame :: log => WellTouched log

instance decidableWellTouched : ∀ log : List TouchSent, Decidable (WellTouched log)
  | [] => .isTrue trivial
  | .down _ id :: log =>
    have := decidableWellTouched log
    inferInstanceAs (Decidable (id ∉ openTouches log ∧ WellTouched log))
  | .motion id :: log | .up id :: log =>
    have := decidableWellTouched log
    inferInstanceAs (Decidable (id ∈ openTouches log ∧ WellTouched log))
  | .cancel :: log | .frame :: log => decidableWellTouched log

namespace TouchSeat

/-- Active touch points have different numbers and are on surfaces that exist. -/
structure Sane (st : TouchSeat) : Prop where
  distinct : ∀ i j, (st.points i).active = true → (st.points j).active = true →
    (st.points i).id = (st.points j).id → i = j
  live : ∀ i, (st.points i).active = true →
    ∃ s, (st.points i).surface = some s ∧ st.destroyed s = false

section

variable (owner : Nat → Nat)

/-- All touches of the client of a surface are on that surface, if any is. -/
def Alone (st : TouchSeat) (s : Nat) : Prop :=
  (∃ i, (st.points i).active = true ∧ (st.points i).surface = some s) →
    ∀ i, (st.points i).active = true → (st.points i).surface.map owner = some (owner s) →
      (st.points i).surface = some s
  deriving Decidable

/-- An event that begins no touch twice, and takes no surface from under some of the touches. -/
def Tidy (st : TouchSeat) : Event → Prop
  | .touch _ id phase hit dismissed =>
    phase = .down → (∀ s ∈ dismissed, st.Alone owner s) ∧
      (hit.isSome = true → ∀ i, (st.points i).active = true → (st.points i).id = id →
        ∃ s ∈ dismissed, (st.points i).surface = some s)
  | .unmapped s | .destroyed s => st.Alone owner s
  | _ => True

instance (st : TouchSeat) : DecidablePred (st.Tidy owner) := by
  intro event
  unfold Tidy
  induction event using Event.casesOn <;> infer_instance

end

end TouchSeat

end Xios
