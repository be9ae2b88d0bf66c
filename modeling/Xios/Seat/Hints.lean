import Xios.Lib.Alternation
import Xios.Seat.Pointer
import Xios.Windows.Geometry

/-! Locks of the pointer in `iosc_pointer_ext.c` that say where the cursor is to be afterwards. -/

namespace Xios

/--
Where a surface is on the output, and how much of it that takes.

Positions are `int` in the code, and whole numbers here: sums of them are taken to fit.
-/
structure SurfacePlace where
  dx : Int := 0
  dy : Int := 0
  -- Zero while the surface has no buffer.
  w : Nat := 0
  h : Nat := 0
  deriving DecidableEq

def SurfacePlace.hinted (place : SurfacePlace) (hint : Int × Int) : Int × Int :=
  (place.dx + if 0 < place.w then clampi hint.1 0 (place.w - 1) else 0,
    place.dy + if 0 < place.h then clampi hint.2 0 (place.h - 1) else 0)

/-- How a lock ended. -/
structure LockEnd where
  hint : Int × Int
  place : SurfacePlace
  cursor : Int × Int
  deriving DecidableEq

/-- The constraints, what they were told, and where the cursor is. -/
structure HintedPointer where
  table : PointerConstraints := {}
  -- The surface with the pointer.
  ptrFocus : Option Nat := none
  -- The hints that clients have given for their locks.
  hint : Nat → Option (Int × Int) := fun _ => none
  place : Nat → SurfacePlace := fun _ => {}
  cursor : Int × Int := (0, 0)
  -- Constraints created so far, for reference only.
  created : Nat := 0
  -- Beginnings and ends that each was told, newest first and for reference only.
  log : Nat → List (Visit Unit) := fun _ => []
  -- All ends of locks with a hint, for reference only.
  ends : List LockEnd := []

namespace HintedPointer

/-- Tell a client that its constraint begins or ends. -/
def send (k : HintedPointer) (id : Nat) (visit : Visit Unit) : HintedPointer :=
  { k with log := Function.update k.log id (visit :: k.log id) }

/-- End a constraint that is active, and put the cursor where a lock asks for it. -/
def constraintDeactivate (k : HintedPointer) (id : Nat) : HintedPointer :=
  let cc := k.table.constraint id
  if cc.active then
    let ended := { k.send id (.leave ()) with table := k.table.constraintDeactivate id }
    match k.hint id, cc.surface with
    | some hint, some s =>
      if cc.locks then { ended with cursor := (k.place s).hinted hint } else ended
    | _, _ => ended
  else k

def constraintActivate (k : HintedPointer) (id : Nat) : HintedPointer :=
  if (k.table.constraint id).active then k
  else { k.send id (.enter ()) with table := k.table.constraintActivate id }

def leaveFocus (k : HintedPointer) (newfocus : Option Nat) : HintedPointer :=
  match k.table.active with
  | some id =>
    if (k.table.constraint id).surface = newfocus then k else k.constraintDeactivate id
  | none => k

def constraintsUpdateFocus (k : HintedPointer) (newfocus : Option Nat) : HintedPointer :=
  let k := k.leaveFocus newfocus
  match k.table.active, k.table.constraintForSurface newfocus with
  | none, some id => k.constraintActivate id
  | _, _ => k

def constraintDetachSurface (k : HintedPointer) (id : Nat) : HintedPointer :=
  if (k.table.constraint id).surface.isNone then k
  else
    let k := k.constraintDeactivate id
    { k with table := k.table.modify id fun cc => { cc with surface := none } }

def constraintsSurfaceGone (k : HintedPointer) (s : Nat) : HintedPointer :=
  k.table.ids.foldl (fun k id =>
    if (k.table.constraint id).surface = some s then k.constraintDetachSurface id else k) k

def constraintResDestroy (k : HintedPointer) (id : Nat) : HintedPointer :=
  { k with table := k.table.constraintResDestroy id }

def lockedPtrSetHint (k : HintedPointer) (id : Nat) (x y : Int) : HintedPointer :=
  if id ∈ k.table.ids ∧ (k.table.constraint id).locks = true then
    { k with hint := Function.update k.hint id (some (wlFixedToInt x, wlFixedToInt y)) }
  else k

def constraintNew (k : HintedPointer) (surface : Option Nat) (locks oneshot : Bool) :
    HintedPointer :=
  if maxConstraints ≤ k.table.ids.length then k
  else
    let id := k.created
    let k := { k with
      created := k.created + 1
      table := { k.table.modify id fun _ => { surface, locks, oneshot } with
        ids := k.table.ids ++ [id] } }
    if surface.isSome ∧ surface = k.ptrFocus ∧ k.table.active = none then k.constraintActivate id
    else k

def handleMotion (k : HintedPointer) (place : Int × Int) (hit : Option Nat) (grabbed : Bool) :
    HintedPointer :=
  if k.table.pointerLockedFor k.ptrFocus then k
  else
    let k := { k with cursor := place }
    -- A drag, a move and a resize of a window keep the pointer to themselves.
    if grabbed ∨ hit = k.ptrFocus then k
    else { k with ptrFocus := hit }.constraintsUpdateFocus hit

/-- The pointer and the constraints are taken off a surface that goes away. -/
def pointerGone (k : HintedPointer) (s : Nat) : HintedPointer :=
  { k with ptrFocus := if k.ptrFocus = some s then none else k.ptrFocus }.constraintsSurfaceGone s

/-- What can happen to constraints and to the cursor. -/
inductive Event where
  -- The pointer moves to a place, after confinement, while it may be needed for something else.
  | motion (place : Int × Int) (hit : Option Nat) (grabbed : Bool)
  -- A bound record, a drag or the session lock takes the pointer elsewhere.
  | focus (s : Option Nat)
  -- A surface gets another place or another size.
  | placed (s : Nat) (place : SurfacePlace)
  -- A surface is hidden, and destroyed.
  | unmap (s : Nat)
  | destroy (s : Nat)
  -- Constraints are created, given a hint, and destroyed.
  | constraintNew (surface : Option Nat) (locks oneshot : Bool)
  | setHint (id : Nat) (x y : Int)
  | constraintDestroyed (id : Nat)
  deriving DecidableEq

def after (k : HintedPointer) : Event → HintedPointer
  | .motion place hit grabbed => k.handleMotion place hit grabbed
  | .focus s => { k with ptrFocus := s }
  | .placed s place => { k with place := Function.update k.place s place }
  | .unmap s => k.pointerGone s
  -- The constraints learn of it before the surface is taken down.
  | .destroy s => (k.constraintsSurfaceGone s).pointerGone s
  | .constraintNew surface locks oneshot => k.constraintNew surface locks oneshot
  | .setHint id x y => k.lockedPtrSetHint id x y
  | .constraintDestroyed id => k.constraintResDestroy id

def hintedLock (k : HintedPointer) : Option (Nat × Nat × (Int × Int)) := do
  let id ← k.table.active
  let s ← (k.table.constraint id).surface
  let hint ← k.hint id
  if (k.table.constraint id).locks then some (id, s, hint) else none

def isActive (k : HintedPointer) (id : Nat) : Bool :=
  k.table.ids.contains id && (k.table.constraint id).active

def lockEnd (k later : HintedPointer) : Option LockEnd :=
  match k.hintedLock with
  | some (id, s, hint) => if later.isActive id then none else some ⟨hint, k.place s, later.cursor⟩
  | none => none

def next (k : HintedPointer) (event : Event) : HintedPointer :=
  { k.after event with ends := (k.lockEnd (k.after event)).toList ++ k.ends }

/-- Constraints from the start of the compositor on. -/
def machine : Machine HintedPointer Event where
  start k := k = {}
  enabled _ _ := True
  next := next

end HintedPointer

/-- The cursor is where the hint was, or else at the nearest place of the surface. -/
structure LockEnd.AtHint (e : LockEnd) : Prop where
  x : e.cursor.1 = max e.place.dx (min (e.place.dx + e.place.w - 1) (e.place.dx + e.hint.1))
  y : e.cursor.2 = max e.place.dy (min (e.place.dy + e.place.h - 1) (e.place.dy + e.hint.2))
  inside : e.place.dx ≤ e.cursor.1 ∧ e.cursor.1 < e.place.dx + e.place.w ∧
    e.place.dy ≤ e.cursor.2 ∧ e.cursor.2 < e.place.dy + e.place.h

namespace HintedPointer

/-- What is always known about the active constraint. -/
structure Single (k : HintedPointer) : Prop where
  -- The constraint noted as active is the only one that is, and is on a surface.
  active : ∀ id ∈ k.table.ids, (k.table.constraint id).active = true ↔ k.table.active = some id
  known : ∀ id, k.table.active = some id →
    id ∈ k.table.ids ∧ (k.table.constraint id).surface.isSome = true

/-- An event takes the pointer away from a surface. -/
def TakesFrom (k : HintedPointer) (s : Nat) : Event → Prop
  | .motion _ hit grabbed =>
    k.table.pointerLockedFor k.ptrFocus = false ∧ grabbed = false ∧ hit ≠ k.ptrFocus ∧ hit ≠ some s
  | .unmap t | .destroy t => t = s
  | _ => False

/-- An event that ends no lock with a hint without regard to the hint. -/
def Heeds (k : HintedPointer) (event : Event) : Prop :=
  match k.hintedLock with
  | none => True
  | some (id, s, _) =>
    -- A lock is not destroyed while it is active, and its surface has some size when it ends.
    event ≠ .constraintDestroyed id ∧
      (k.TakesFrom s event → 0 < (k.place s).w ∧ 0 < (k.place s).h)

end HintedPointer

end Xios
