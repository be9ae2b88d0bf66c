import Xios.Seat.Pointer

/-! What clients are told about the pointer makes sense if nothing moves it behind their back. -/

namespace Xios

open PointerEvent

def PointerEvent.inside : PointerEvent → Bool
  | .motion | .button _ _ | .axisSource _ | .axis _ _ | .axisStop _ => true
  | .enter _ | .leave _ | .frame | .gone _ => false

namespace PointerResource

/-- A pointer object was told nothing but sense, and takes the pointer to be over some surface. -/
def Follows (p : PointerResource) (surface : Option Nat) : Prop :=
  p.early = true → WellSent p.log ∧ entered p.log = surface

theorem Follows.tell {p : PointerResource} {surface : Option Nat} (follows : p.Follows surface)
    {event : PointerEvent} (fits : event.Fits surface) :
    (p.tell event).Follows (event.after surface) := by
  intro early
  obtain ⟨sense, there⟩ := follows early
  refine ⟨⟨?_, sense⟩, ?_⟩
  · rw [there]
    exact fits
  · show event.after (entered p.log) = _
    rw [there]

theorem Follows.tellAll {p : PointerResource} {s : Nat} (follows : p.Follows (some s))
    {events : List PointerEvent} (inside : ∀ event ∈ events, event.inside = true) :
    (p.tellAll events).Follows (some s) := by
  -- None of these events moves the pointer, so each is told in the same situation.
  induction events generalizing p with
  | nil => exact follows
  | cons event events ih =>
    have first := inside event (.head _)
    have told : (p.tell event).Follows (some s) := by
      cases event with
      | enter | leave | frame | gone => cases first
      | motion | button | axisSource | axis | axisStop => exact follows.tell rfl
    exact ih told fun event member => inside event (.tail _ member)

@[simp]
theorem client_tell (p : PointerResource) (event : PointerEvent) :
    (p.tell event).client = p.client :=
  rfl

@[simp]
theorem client_tellAll (p : PointerResource) (events : List PointerEvent) :
    (p.tellAll events).client = p.client := by
  induction events generalizing p with
  | nil => rfl
  | cons event events ih => exact ih (p.tell event)

end PointerResource

section

variable (owner : Nat → Nat)

/-- All pointer objects take the pointer to be over a surface if it belongs to their client. -/
def Told (pointers : List PointerResource) (focus : Option Nat) : Prop :=
  ∀ p ∈ pointers, p.Follows (focus.filter fun s => owner s = p.client)

end

namespace Told

variable {owner : Nat → Nat} {pointers : List PointerResource} {focus : Option Nat} {s : Nat}

variable {focus' : Option Nat} {client : Nat}

theorem sendToClient (told : Told owner pointers focus)
    {send : PointerResource → PointerResource} (same : ∀ p, (send p).client = p.client)
    (those : ∀ p, p.client = client → p.Follows (focus.filter fun s => owner s = p.client) →
      (send p).Follows (focus'.filter fun s => owner s = p.client))
    (others : ∀ c, c ≠ client →
      (focus'.filter fun s => owner s = c) = focus.filter fun s => owner s = c) :
    Told owner (Xios.sendToClient client send pointers) focus' := by
  intro p member
  obtain ⟨q, before, rfl⟩ := List.mem_map.mp member
  by_cases sent : q.client = client
  · rw [if_pos sent, same]
    exact those q sent (told q before)
  · rw [if_neg sent, others _ sent]
    exact told q before

theorem pointerFrameClient (told : Told owner pointers focus) (client : Nat) :
    Told owner (Xios.pointerFrameClient client pointers) focus := by
  refine told.sendToClient (fun p => ?_) (fun p _ follows => ?_) (fun _ _ => rfl)
  · split <;> rfl
  · split
    · exact follows.tell trivial
    · exact follows

variable {events : PointerResource → List PointerEvent}

theorem sendFrame (told : Told owner pointers focus)
    (those : ∀ p : PointerResource, p.client = client →
      p.Follows (focus.filter fun s => owner s = p.client) →
      (p.tellAll (events p)).Follows (focus'.filter fun s => owner s = p.client))
    (others : ∀ c, c ≠ client →
      (focus'.filter fun s => owner s = c) = focus.filter fun s => owner s = c) :
    Told owner (Xios.sendFrame client events pointers) focus' :=
  (told.sendToClient (fun p => p.client_tellAll (events p)) those others).pointerFrameClient client

theorem leave (told : Told owner pointers (some s)) :
    Told owner (Xios.sendFrame (owner s) (fun _ => [.leave s]) pointers) none := by
  refine told.sendFrame (fun p own follows => ?_) fun c other => ?_
  · rw [Option.filter_some_pos (by simp [own])] at follows
    exact follows.tell rfl
  · rw [Option.filter_some_neg (by simpa using other.symm)]
    rfl

theorem enter (told : Told owner pointers none) (s : Nat) :
    Told owner (Xios.sendFrame (owner s) (fun _ => [.enter s]) pointers) (some s) := by
  refine told.sendFrame (fun p own follows => ?_) fun c other => ?_
  · rw [Option.filter_some_pos (by simp [own])]
    exact follows.tell rfl
  · rw [Option.filter_some_neg (by simpa using other.symm)]
    rfl

theorem inside (told : Told owner pointers (some s))
    (inside : ∀ p, ∀ event ∈ events p, event.inside = true) :
    Told owner (Xios.sendFrame (owner s) events pointers) (some s) := by
  refine told.sendFrame (fun p own follows => ?_) fun _ _ => rfl
  rw [Option.filter_some_pos (by simp [own])] at follows ⊢
  exact follows.tellAll (inside p)

theorem gone (told : Told owner pointers focus) (s : Nat) :
    Told owner (noteGone s pointers) (focus.filter (· ≠ s)) := by
  intro p member
  obtain ⟨q, before, rfl⟩ := List.mem_map.mp member
  have fits : (PointerEvent.gone s).Fits (focus.filter fun s => owner s = q.client) := trivial
  have follows := (told q before).tell fits
  -- Leaving out the surface that goes and those of other clients works in either order.
  have swap : (focus.filter (· ≠ s)).filter (fun s => owner s = q.client) =
      (focus.filter fun s => owner s = q.client).filter (· ≠ s) := by
    rw [Option.filter_filter, Option.filter_filter]
    simp only [Bool.and_comm]
  rw [PointerResource.client_tell, swap]
  exact follows

end Told

namespace PointerConstraints

variable {k : PointerConstraints} {focus : Option Nat} {s id : Nat}

/-- The active constraint exists, is known to be active, and is on the surface with the pointer. -/
def Belongs (k : PointerConstraints) (focus : Option Nat) : Prop :=
  ∀ id, k.active = some id → id ∈ k.ids ∧ (k.constraint id).active = true ∧
    ∃ s, focus = some s ∧ (k.constraint id).surface = some s

theorem belongs_of_active_eq_none (none : k.active = none) : k.Belongs focus := by
  intro id active
  rw [none] at active
  cases active

@[simp]
theorem ids_constraintDeactivate (k : PointerConstraints) (id : Nat) :
    (k.constraintDeactivate id).ids = k.ids := by
  unfold constraintDeactivate
  split <;> rfl

@[simp]
theorem surface_constraintDeactivate (k : PointerConstraints) (id other : Nat) :
    ((k.constraintDeactivate id).constraint other).surface = (k.constraint other).surface := by
  unfold constraintDeactivate
  by_cases same : other = id
  · subst same
    split <;> simp [modify]
  · split <;> simp [modify, same]

theorem active_constraintDeactivate (on : (k.constraint id).active = true)
    (active : k.active = some id) : (k.constraintDeactivate id).active = none := by
  unfold constraintDeactivate
  rw [if_pos on]
  exact if_pos active

theorem active_constraintDeactivate_of_ne (other : k.active ≠ some id) :
    (k.constraintDeactivate id).active = k.active := by
  unfold constraintDeactivate
  rw [if_neg other]
  split <;> rfl

theorem Belongs.deactivate_other (belongs : k.Belongs focus) (other : k.active ≠ some id) :
    (k.constraintDeactivate id).Belongs focus := by
  intro active isActive
  rw [active_constraintDeactivate_of_ne other] at isActive
  have apart : active ≠ id := fun same => other (same ▸ isActive)
  have kept := belongs active isActive
  unfold constraintDeactivate
  split
  · simpa [modify, apart] using kept
  · exact kept

theorem Belongs.leaveFocus (belongs : k.Belongs focus) (newfocus : Option Nat) :
    (k.leaveFocus newfocus).Belongs newfocus := by
  unfold PointerConstraints.leaveFocus
  split
  · rename_i id active
    obtain ⟨known, on, s, there, surface⟩ := belongs id active
    split
    -- A constraint outlives the change only if the pointer stays on its surface.
    · rename_i stays
      intro other isActive
      obtain rfl : id = other := Option.some.inj (active.symm.trans isActive)
      exact ⟨known, on, s, stays.symm.trans surface, surface⟩
    · exact belongs_of_active_eq_none (active_constraintDeactivate on active)
  · rename_i none
    exact belongs_of_active_eq_none none

theorem Belongs.activate (belongs : k.Belongs (some s)) (known : id ∈ k.ids)
    (surface : (k.constraint id).surface = some s) :
    (k.constraintActivate id).Belongs (some s) := by
  unfold constraintActivate
  split
  · exact belongs
  · intro other isActive
    obtain rfl : id = other := Option.some.inj isActive
    refine ⟨known, ?_, s, rfl, ?_⟩
    · simp [modify]
    · simpa [modify] using surface

theorem constraintForSurface_eq_some (found : k.constraintForSurface focus = some id) :
    id ∈ k.ids ∧ ∃ s, focus = some s ∧ (k.constraint id).surface = some s := by
  cases focus with
  | none => cases found
  | some s =>
    have matching := List.find?_some found
    rw [Bool.and_eq_true, decide_eq_true_eq] at matching
    exact ⟨List.mem_of_find?_eq_some found, s, rfl, matching.2⟩

theorem Belongs.updateFocus (belongs : k.Belongs focus) (newfocus : Option Nat) :
    (k.constraintsUpdateFocus newfocus).Belongs newfocus := by
  have kept := belongs.leaveFocus newfocus
  unfold constraintsUpdateFocus
  dsimp only
  split
  · rename_i found
    obtain ⟨known, s, rfl, surface⟩ := constraintForSurface_eq_some found
    exact kept.activate known surface
  · exact kept

theorem surface_constraintDetachSurface (k : PointerConstraints) (id other : Nat) :
    ((k.constraintDetachSurface id).constraint other).surface =
      if other = id then none else (k.constraint other).surface := by
  unfold constraintDetachSurface
  by_cases same : other = id
  · subst same
    rw [if_pos rfl]
    split
    · rename_i free
      exact Option.isNone_iff_eq_none.mp free
    · simp [modify]
  · rw [if_neg same]
    split
    · rfl
    · simp [modify, same]

theorem Belongs.detachSurface (belongs : k.Belongs focus) (id : Nat) :
    (k.constraintDetachSurface id).Belongs focus := by
  unfold constraintDetachSurface
  split
  · exact belongs
  · by_cases active : k.active = some id
    · exact belongs_of_active_eq_none (active_constraintDeactivate (belongs id active).2.1 active)
    · have kept := belongs.deactivate_other active
      intro other isActive
      have apart : other ≠ id := by
        rintro rfl
        exact active ((active_constraintDeactivate_of_ne active).symm.trans isActive)
      simpa [modify, apart] using kept other isActive

@[simp]
theorem ids_constraintDetachSurface (k : PointerConstraints) (id : Nat) :
    (k.constraintDetachSurface id).ids = k.ids := by
  unfold constraintDetachSurface
  split
  · rfl
  · exact ids_constraintDeactivate k id

theorem Belongs.detachAll (belongs : k.Belongs focus) (s : Nat) (ids : List Nat) :
    let k' := ids.foldl (fun k id =>
      if (k.constraint id).surface = some s then k.constraintDetachSurface id else k) k
    k'.Belongs focus ∧ k'.ids = k.ids ∧ ∀ id, (k'.constraint id).surface =
      if id ∈ ids ∧ (k.constraint id).surface = some s then none
      else (k.constraint id).surface := by
  -- The induction follows the loop, and a constraint is only looked at once it is reached.
  induction ids generalizing k with
  | nil => exact ⟨belongs, rfl, fun id => by simp⟩
  | cons first ids ih =>
    rw [List.foldl_cons]
    split
    · rename_i there
      obtain ⟨kept, same, surfaces⟩ := ih (belongs.detachSurface first)
      refine ⟨kept, same.trans (ids_constraintDetachSurface k first), fun id => ?_⟩
      rw [surfaces, surface_constraintDetachSurface]
      by_cases reached : id = first
      · simp [reached, there]
      · simp [reached]
    · rename_i elsewhere
      obtain ⟨kept, same, surfaces⟩ := ih belongs
      refine ⟨kept, same, fun id => ?_⟩
      rw [surfaces]
      by_cases reached : id = first
      · simp [reached, elsewhere]
      · simp [reached]

theorem Belongs.surfaceGone (belongs : k.Belongs focus) (s : Nat) :
    (k.constraintsSurfaceGone s).Belongs (focus.filter (· ≠ s)) := by
  obtain ⟨kept, same, surfaces⟩ := belongs.detachAll s k.ids
  intro id isActive
  obtain ⟨known, on, t, there, surface⟩ := kept id isActive
  -- The loop has reached every constraint of the table, so none is left on the surface.
  have remains : t ≠ s := by
    rintro rfl
    rw [surfaces id] at surface
    split at surface
    · cases surface
    · rename_i other
      exact other ⟨same ▸ known, surface⟩
  refine ⟨known, on, t, ?_, surface⟩
  rw [there]
  exact Option.filter_some_pos (by simpa using remains)

theorem Belongs.resDestroy (belongs : k.Belongs focus) (id : Nat) :
    (k.constraintResDestroy id).Belongs focus := by
  intro other isActive
  change (if k.active = some id then none else k.active) = some other at isActive
  split at isActive
  · cases isActive
  · rename_i apart
    obtain ⟨known, rest⟩ := belongs other isActive
    refine ⟨?_, rest⟩
    -- Only the destroyed constraint leaves the table.
    have other : other ≠ id := fun same => apart (same ▸ isActive)
    refine (swapRemove_perm _ k.ids).mem_iff.mpr ?_
    exact (List.mem_eraseP_of_neg (by simpa using other)).mpr known

theorem Belongs.new (belongs : k.Belongs focus) (fresh : id ∉ k.ids) (surface : Option Nat)
    (locks oneshot : Bool) : (k.constraintNew focus id surface locks oneshot).Belongs focus := by
  unfold constraintNew
  split
  · exact belongs
  · have kept : PointerConstraints.Belongs { k.modify id fun _ => { surface, locks, oneshot } with
        ids := k.ids ++ [id] } focus := by
      intro other isActive
      obtain ⟨known, rest⟩ := belongs other isActive
      have apart : other ≠ id := fun same => fresh (same ▸ known)
      refine ⟨List.mem_append_left _ known, ?_⟩
      simpa [modify, apart] using rest
    dsimp only
    split
    · rename_i chosen
      obtain ⟨isSome, rfl, -⟩ := chosen
      obtain ⟨s, rfl⟩ := Option.isSome_iff_exists.mp isSome
      exact kept.activate (List.mem_append_right _ (.head _)) (by simp [modify])
    · exact kept

end PointerConstraints

namespace PointerSeat

section

variable (owner : Nat → Nat)

/-- Clients know where the pointer is, and so does the active constraint. -/
structure Orderly (st : PointerSeat) : Prop where
  -- Pointer objects take the pointer to be where it is.
  told : Told owner st.pointers st.ptrFocus
  -- The active constraint is on the surface below the pointer.
  belongs : st.constraints.Belongs st.ptrFocus
  -- A drag keeps the pointer off all surfaces.
  dragging : st.drag.isSome = true → st.ptrFocus = none

theorem orderly_start : Orderly owner {} where
  told := fun _ member => nomatch member
  belongs := PointerConstraints.belongs_of_active_eq_none rfl
  dragging := fun _ => rfl

end

namespace Orderly

variable {owner : Nat → Nat} {st : PointerSeat} (orderly : Orderly owner st)

include orderly

theorem surfaceMap (s : Nat) : Orderly owner (st.surfaceMap s) := by
  unfold PointerSeat.surfaceMap
  split
  · exact orderly
  · exact { orderly with }

theorem dndEnd : Orderly owner st.dndEnd := by
  unfold PointerSeat.dndEnd
  split
  · rename_i dragging
    have away := orderly.dragging dragging
    exact ⟨away ▸ orderly.told, away ▸ orderly.belongs, fun _ => rfl⟩
  · exact orderly

theorem dragGone (s : Nat) : Orderly owner (st.dragGone s) := by
  unfold PointerSeat.dragGone
  split
  · exact orderly.dndEnd
  · exact orderly

theorem pointerGone (s : Nat) : Orderly owner (st.pointerGone s) := by
  have moved : (st.pointerGone s).ptrFocus = st.ptrFocus.filter (· ≠ s) := by
    show (if st.ptrFocus = some s then none else st.ptrFocus) = _
    cases focus : st.ptrFocus with
    | none => rfl
    | some t =>
      by_cases same : t = s
      · rw [if_pos (congrArg some same), Option.filter_some_neg (by simp [same])]
      · rw [if_neg (by simpa using same), Option.filter_some_pos (by simpa using same)]
  constructor
  · rw [moved]
    exact orderly.told.gone s
  · rw [moved]
    exact orderly.belongs.surfaceGone s
  · intro dragging
    rw [moved, orderly.dragging dragging]
    rfl

theorem surfaceUnmap (s : Nat) : Orderly owner (st.surfaceUnmap s) := by
  have before := orderly.dragGone s
  unfold PointerSeat.surfaceUnmap
  dsimp only
  split
  · refine pointerGone ?_ s
    exact { before with }
  · exact { before with }

theorem surfacesUnmap (surfaces : List Nat) :
    Orderly owner (surfaces.foldl PointerSeat.surfaceUnmap st) := by
  -- Each surface is hidden in the state that hiding the one before has left.
  induction surfaces generalizing st with
  | nil => exact orderly
  | cons s surfaces ih => exact ih (orderly.surfaceUnmap s)

theorem tellFocus {events : Nat → PointerResource → List PointerEvent}
    (inside : ∀ s p, ∀ event ∈ events s p, event.inside = true) :
    Orderly owner (st.tellFocus owner events) := by
  have told := orderly.told
  refine { orderly with told := ?_ }
  show Told owner (st.ptrFocus.elim st.pointers _) st.ptrFocus
  cases focus : st.ptrFocus with
  | none =>
    rw [focus] at told
    exact told
  | some s =>
    rw [focus] at told
    exact told.inside (inside s)

theorem tellLeave : Told owner (st.tellFocus owner fun s _ => [.leave s]).pointers none := by
  have told := orderly.told
  show Told owner (st.ptrFocus.elim st.pointers _) none
  cases focus : st.ptrFocus with
  | none =>
    rw [focus] at told
    exact told
  | some s =>
    rw [focus] at told
    exact told.leave

theorem changeFocus (free : st.drag = none) (hit : Option Nat) :
    Orderly owner (st.changeFocus owner hit) where
  told := by
    -- All clients are told that the pointer leaves before one is told that it enters.
    have left := orderly.tellLeave
    cases hit with
    | none => exact left
    | some s => exact left.enter s
  belongs := orderly.belongs.updateFocus hit
  dragging := by
    intro dragging
    change st.drag.isSome = true at dragging
    rw [free] at dragging
    cases dragging

theorem handleMotion (hit : Option Nat) : Orderly owner (st.handleMotion owner hit) := by
  have motion : ∀ event ∈ [PointerEvent.motion], event.inside = true := by decide
  unfold PointerSeat.handleMotion
  split
  · exact orderly
  split
  · exact orderly
  · rename_i free
    split
    · exact orderly.tellFocus fun _ _ => motion
    · have still : st.drag = none := by
        simpa using fun dragging => free (.inl dragging)
      exact (orderly.changeFocus still hit).tellFocus fun _ _ => motion

theorem dismissOutside (down : Bool) (dismissed : List Nat) :
    Orderly owner (st.dismissOutside down dismissed) := by
  unfold PointerSeat.dismissOutside
  split
  · exact orderly.surfacesUnmap dismissed
  · exact orderly

theorem notePress (down : Bool) (code : Nat) : Orderly owner (st.notePress down code) := by
  unfold PointerSeat.notePress
  split
  · exact { orderly with }
  · exact orderly

theorem handleButton (btn : Int) (down : Bool) (dismissed : List Nat) :
    Orderly owner (st.handleButton owner btn down dismissed) := by
  have noted : Orderly owner { st with
      buttonDown := if down then st.buttonDown + 1 else st.buttonDown - 1 } := { orderly with }
  unfold PointerSeat.handleButton
  dsimp only
  split
  -- No client is told of buttons during a drag, which a release may end.
  · split
    · exact noted.dndEnd
    · exact noted
  split
  · exact { noted with }
  · have button : ∀ event ∈ [PointerEvent.button (wireButtonCode btn) down],
        event.inside = true := by simp [PointerEvent.inside]
    exact ((noted.dismissOutside down dismissed).notePress down _).tellFocus fun _ _ => button

theorem handleAxis (dx dy : Int) (source : Nat) (stop : Bool) :
    Orderly owner (st.handleAxis owner dx dy source stop) := by
  have inside : ∀ p, ∀ event ∈ axisEvents dx dy source stop p, event.inside = true := by
    intro p event member
    unfold axisEvents at member
    grind [PointerEvent.inside]
  unfold PointerSeat.handleAxis
  split
  · exact orderly
  · exact orderly.tellFocus fun _ => inside

theorem focusBound {bound : Option Nat}
    (kept : bound.isSome = true → st.locked = false → bound = st.ptrFocus) :
    Orderly owner (st.focusBound bound) := by
  unfold PointerSeat.focusBound
  split
  · rename_i moves
    rw [kept moves.1 moves.2]
    exact orderly
  · exact orderly

theorem inputClientDropped (codes : List Nat) :
    Orderly owner (st.inputClientDropped owner codes) := by
  -- Each button is let go as if the user had done so.
  have released : ∀ st, Orderly owner st → Orderly owner
      (codes.foldl (fun st code => st.handleButton owner code false []) st) := by
    induction codes with
    | nil => exact fun _ orderly => orderly
    | cons code codes ih => exact fun _ orderly => ih _ (orderly.handleButton code false [])
  unfold PointerSeat.inputClientDropped
  split
  · exact released _ orderly.dndEnd
  · exact released _ orderly

theorem slockMgrLock {l : Nat} (away : st.lock = none → st.ptrFocus = none) :
    Orderly owner (st.slockMgrLock l) := by
  unfold PointerSeat.slockMgrLock
  split
  · exact orderly
  · rename_i free
    have off := away (by simpa using free)
    refine dndEnd ⟨?_, ?_, fun _ => rfl⟩
    · exact off ▸ orderly.told
    · exact off ▸ orderly.belongs

theorem slockGetLockSurface (l s : Nat) : Orderly owner (st.slockGetLockSurface l s) := by
  unfold PointerSeat.slockGetLockSurface
  split
  · exact { orderly with }
  · exact orderly

theorem slockUnlockAndDestroy {l : Nat}
    (away : st.lock = some l → st.locked = true → st.ptrFocus = none) :
    Orderly owner (st.slockUnlockAndDestroy l) := by
  unfold PointerSeat.slockUnlockAndDestroy
  split
  · rename_i granted
    have off := away granted.1 granted.2
    exact ⟨off ▸ orderly.told, off ▸ orderly.belongs, fun _ => rfl⟩
  · exact orderly

theorem seatGetPointer (id client version : Nat) :
    Orderly owner (st.seatGetPointer owner id client version) := by
  unfold PointerSeat.seatGetPointer
  split
  · refine { orderly with told := fun p member => ?_ }
    rcases List.mem_append.mp member with before | new
    · exact orderly.told p before
    · obtain rfl := List.mem_singleton.mp new
      intro early
      -- An object that is there early enough belongs to a client without the pointer.
      refine ⟨trivial, ?_⟩
      have elsewhere : st.focusedClient owner client = false := by simpa using early
      show none = _
      cases focus : st.ptrFocus with
      | none => rfl
      | some s =>
        rw [focusedClient, focus, Option.any_some] at elsewhere
        exact (Option.filter_some_neg (by simpa using elsewhere)).symm
  · exact orderly

theorem startDrag {origin : Nat} {icon : Option Nat} {newest : Bool}
    (free : st.acceptsDrag newest = true → st.constraints.active = none) :
    Orderly owner (st.dataDeviceStartDrag owner origin icon newest) := by
  unfold PointerSeat.dataDeviceStartDrag
  split
  · rename_i accepted
    exact {
      told := orderly.tellLeave
      belongs := PointerConstraints.belongs_of_active_eq_none (free accepted)
      dragging := fun _ => rfl }
  · exact orderly

end Orderly

/--
A step does not move the pointer behind the back of its client or of a constraint.

Records for scrolling and gestures are bound to the surface below the pointer.
The session is locked and unlocked while the pointer is off all surfaces.
A drag starts while no constraint is active.
-/
def KeepsFocus (st : PointerSeat) : Event → Prop
  | .axis bound _ _ _ _ | .gesture bound =>
    bound.isSome = true → st.locked = false → bound = st.ptrFocus
  | .lock _ => st.lock = none → st.ptrFocus = none
  | .unlock l => st.lock = some l → st.locked = true → st.ptrFocus = none
  | .startDrag _ _ newest => st.acceptsDrag newest = true → st.constraints.active = none
  | _ => True

/-- What a step does behind nobody's back, everybody knows. -/
theorem Orderly.next {owner : Nat → Nat} {st : PointerSeat} (orderly : Orderly owner st)
    {event : Event} (allowed : st.Allowed event) (keeps : st.KeepsFocus event) :
    Orderly owner (st.next owner event) := by
  -- Events without a lemma of their own change nothing that clients are told of.
  cases event with
  | motion hit => exact orderly.handleMotion hit
  | button hit btn state dismissed => exact (orderly.handleMotion hit).handleButton _ _ _
  | axis bound dx dy source stop => exact (orderly.focusBound keeps).handleAxis dx dy source stop
  | gesture bound => exact orderly.focusBound keeps
  | clientDropped codes => exact orderly.inputClientDropped codes
  | map s => exact orderly.surfaceMap s
  | unmap s => exact orderly.surfaceUnmap s
  | destroy s => exact (orderly.surfaceUnmap s).pointerGone s
  | lock l => exact orderly.slockMgrLock keeps
  | getLockSurface l s => exact orderly.slockGetLockSurface l s
  | unlock l => exact orderly.slockUnlockAndDestroy keeps
  | getPointer id client version => exact orderly.seatGetPointer id client version
  | pointerDestroyed id =>
    exact { orderly with told := fun p member => orderly.told p (mem_of_swapRemove member) }
  | constraintNew id surface locks oneshot =>
    exact { orderly with belongs := orderly.belongs.new allowed surface locks oneshot }
  | constraintDestroyed id => exact { orderly with belongs := orderly.belongs.resDestroy id }
  | startDrag origin icon newest => exact orderly.startDrag keeps
  | dragSourceDestroyed => exact orderly.dndEnd
  | lockSurfaceDestroyed s | lockDestroyed l | interactiveBegin s => exact { orderly with }

/--
Everybody who is told about the pointer knows where it is.

A pointer object is told that the pointer enters a surface only while it is over none.
It is told that the pointer leaves a surface only while it is over that surface.
It is told of motion, buttons and scrolling only while the pointer is over some surface.
The active constraint is on the surface below the pointer.
-/
def FollowsFocus (st : PointerSeat) : Prop :=
  (∀ p ∈ st.pointers, p.early = true → WellSent p.log) ∧
    ∀ id ∈ st.constraints.active,
      st.ptrFocus.isSome = true ∧ (st.constraints.constraint id).surface = st.ptrFocus
  deriving Decidable

/-- While nothing moves the pointer behind their back, all know where it is. -/
theorem pointer_follows_focus {owner : Nat → Nat} {trace : List Event} {st : PointerSeat}
    (run : ((machine owner).restrict KeepsFocus).Run trace st) : st.FollowsFocus := by
  have orderly : Orderly owner st := by
    refine run.invariant (fun _ st => Orderly owner st) ?_ ?_
    · rintro st rfl
      exact orderly_start owner
    · intro trace st event orderly allowed
      exact orderly.next allowed.1 allowed.2
  constructor
  · intro p member early
    exact (orderly.told p member early).1
  · intro id active
    obtain ⟨-, -, s, there, surface⟩ := orderly.belongs id active
    exact ⟨Option.isSome_iff_exists.mpr ⟨s, there⟩, surface.trans there.symm⟩

instance decidableKeepsFocus (st : PointerSeat) (event : Event) :
    Decidable (st.KeepsFocus event) := by
  unfold KeepsFocus
  induction event using Event.casesOn <;> infer_instance

def visits : List Event :=
  [.getPointer 0 0 5, .getPointer 1 1 7, .map 0, .map 1, .constraintNew 0 (some 1) true true,
    .motion (some 0), .axis (some 0) 0 256 0 false, .button (some 1) 1 1 [], .motion (some 0),
    .unmap 1, .lock 0, .getLockSurface 0 2, .motion (some 2), .destroy 2, .unlock 0,
    .motion (some 0), .button none 1 0 []]

theorem pointer_follows_focus_visits :
    (visits.foldl (next id) {}).pointers.map (·.log.length) = [17, 8] ∧
      (visits.foldl (next id) {}).FollowsFocus := by
  have run : ((machine id).restrict KeepsFocus).Run visits.reverse (visits.foldl (next id) {}) :=
    .of_script (m := (machine id).restrict KeepsFocus) (s := {}) rfl visits (by decide +kernel)
  exact ⟨by decide +kernel, pointer_follows_focus run⟩

/-- This can happen to clients with one surface each, and one of them then loses track. -/
def LosesTrack (script : List Event) : Prop :=
  ∃ st, (machine id).Run script.reverse st ∧ ¬st.FollowsFocus

/--
Clients lose track of the pointer in four ways.

A record that is bound to a window scrolls where no client was told of the pointer.
The pointer enters a surface twice, with the session locked and unlocked in between.
A constraint stays active on a surface after the session is locked, and after a drag is started.
-/
theorem not_pointer_follows_focus :
    LosesTrack [.getPointer 0 0 5, .map 0, .axis (some 0) 0 256 0 false] ∧
      LosesTrack [.getPointer 0 0 5, .map 0, .motion (some 0), .lock 0, .unlock 0,
        .motion (some 0)] ∧
      LosesTrack [.map 0, .motion (some 0), .constraintNew 0 (some 0) true false, .lock 0] ∧
      LosesTrack [.map 0, .constraintNew 0 (some 0) false false, .button (some 0) 1 1 [],
        .startDrag 0 none true] := by
  have loses : ∀ script, (machine id).Admits {} script →
      ¬(script.foldl (next id) {}).FollowsFocus → LosesTrack script :=
    fun script admitted lost =>
      ⟨_, .of_script (m := machine id) (s := {}) rfl script admitted, lost⟩
  exact ⟨loses _ (by decide +kernel) (by decide +kernel),
    loses _ (by decide +kernel) (by decide +kernel),
    loses _ (by decide +kernel) (by decide +kernel),
    loses _ (by decide +kernel) (by decide +kernel)⟩

end PointerSeat

end Xios
