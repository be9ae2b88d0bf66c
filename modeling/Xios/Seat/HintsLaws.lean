import Xios.Seat.Hints
import Xios.Seat.PointerLaws

/-! Constraints begin and end in turn, and a lock with a hint leaves the cursor there. -/

namespace Xios

namespace PointerConstraints

theorem active_flag_constraintDeactivate (k : PointerConstraints) (id other : Nat) :
    ((k.constraintDeactivate id).constraint other).active =
      if other = id then false else (k.constraint other).active := by
  unfold constraintDeactivate
  by_cases on : (k.constraint id).active = true
  · rw [if_pos on]
    by_cases same : other = id
    · simp [modify, same]
    · simp [modify, same]
  · rw [if_neg on]
    by_cases same : other = id
    · rw [if_pos same, same]
      simpa using on
    · rw [if_neg same]

theorem constraint_constraintDeactivate_self {k : PointerConstraints} {id : Nat}
    (on : (k.constraint id).active = true) :
    (k.constraintDeactivate id).constraint id =
      { k.constraint id with
        active := false
        dead := (k.constraint id).dead || (k.constraint id).oneshot } := by
  unfold constraintDeactivate
  rw [if_pos on]
  exact Function.update_self ..

theorem constraint_constraintDeactivate_of_ne (k : PointerConstraints) {id other : Nat}
    (different : other ≠ id) :
    (k.constraintDeactivate id).constraint other = k.constraint other := by
  unfold constraintDeactivate
  split
  · exact Function.update_of_ne different ..
  · rfl

end PointerConstraints

namespace HintedPointer

variable {k : HintedPointer} {id : Nat}

def begun (k : HintedPointer) (id : Nat) : Nat :=
  (k.log id).count (.enter ())

/-- What is always known about the constraints and what they were told. -/
structure Kept (k : HintedPointer) : Prop where
  single : k.Single
  -- Constraints have numbers that were given out, each one once.
  apart : k.table.ids.Nodup
  below : ∀ id ∈ k.table.ids, id < k.created
  fresh : ∀ id, k.created ≤ id → k.log id = []
  -- A constraint that is active was told so last, and beginnings and ends alternate.
  told : ∀ id, Visit.current (k.log id) = if (k.table.constraint id).active then some () else none
  alternates : ∀ id, Visit.Alternates (k.log id)
  -- One that is used up after its first end has begun at most once.
  once : ∀ id, (k.table.constraint id).oneshot = true →
    k.begun id = if (k.table.constraint id).active || (k.table.constraint id).dead then 1 else 0

/-- What a constraint was told agrees with what it is. -/
structure Heard (log : List (Visit Unit)) (cc : PointerConstraint) : Prop where
  told : Visit.current log = if cc.active then some () else none
  alternates : Visit.Alternates log
  once : cc.oneshot = true →
    log.count (.enter ()) = if cc.active || cc.dead then 1 else 0

theorem Heard.new (surface : Option Nat) (locks oneshot : Bool) :
    Heard [] { surface, locks, oneshot } where
  told := rfl
  alternates := trivial
  once := fun _ => rfl

variable {log : List (Visit Unit)} {cc : PointerConstraint}

theorem Heard.enter (heard : Heard log cc) (off : cc.active = false) (usable : cc.dead = false) :
    Heard (.enter () :: log) { cc with active := true } := by
  have current := heard.told
  rw [off] at current
  refine ⟨rfl, heard.alternates.enter current (), fun oneshot => ?_⟩
  have before := heard.once oneshot
  rw [off, usable] at before
  rw [List.count_cons_self, before]
  rfl

theorem Heard.leave (heard : Heard log cc) (on : cc.active = true) :
    Heard (.leave () :: log) { cc with active := false, dead := cc.dead || cc.oneshot } := by
  have current := heard.told
  rw [on] at current
  refine ⟨by simp, heard.alternates.leave current, fun oneshot => ?_⟩
  change cc.oneshot = true at oneshot
  have before := heard.once oneshot
  rw [on] at before
  simpa [oneshot] using before

theorem Kept.heard (kept : k.Kept) (id : Nat) : Heard (k.log id) (k.table.constraint id) :=
  ⟨kept.told id, kept.alternates id, kept.once id⟩

theorem Kept.of_heard (single : k.Single) (apart : k.table.ids.Nodup)
    (below : ∀ id ∈ k.table.ids, id < k.created) (fresh : ∀ id, k.created ≤ id → k.log id = [])
    (heard : ∀ id, Heard (k.log id) (k.table.constraint id)) : k.Kept :=
  ⟨single, apart, below, fresh, fun id => (heard id).told, fun id => (heard id).alternates,
    fun id => (heard id).once⟩

theorem constraintDeactivate_of_inactive (off : (k.table.constraint id).active = false) :
    k.constraintDeactivate id = k := by
  unfold constraintDeactivate
  simp only [off, Bool.false_eq_true, ↓reduceIte]

theorem constraintDeactivate_of_active (on : (k.table.constraint id).active = true) :
    (k.constraintDeactivate id).table = k.table.constraintDeactivate id ∧
      (k.constraintDeactivate id).log = Function.update k.log id (.leave () :: k.log id) ∧
      (k.constraintDeactivate id).created = k.created ∧
      (k.constraintDeactivate id).hint = k.hint ∧
      (k.constraintDeactivate id).place = k.place ∧
      (k.constraintDeactivate id).ptrFocus = k.ptrFocus := by
  unfold constraintDeactivate
  simp only [on, ↓reduceIte]
  split
  · split <;> exact ⟨rfl, rfl, rfl, rfl, rfl, rfl⟩
  · exact ⟨rfl, rfl, rfl, rfl, rfl, rfl⟩

/-- A constraint that ends leaves no constraint active. -/
theorem Kept.deactivate (kept : k.Kept) (known : id ∈ k.table.ids) :
    (k.constraintDeactivate id).Kept := by
  cases on : (k.table.constraint id).active with
  | false =>
    rw [constraintDeactivate_of_inactive on]
    exact kept
  | true =>
    -- It is the one noted as active, and none is afterwards.
    have active := (kept.single.active id known).mp on
    obtain ⟨table, log, created, -, -, -⟩ := constraintDeactivate_of_active on
    have none := PointerConstraints.active_constraintDeactivate on active
    have flag := k.table.active_flag_constraintDeactivate id
    refine Kept.of_heard ⟨?_, ?_⟩ ?_ ?_ ?_ ?_
    · intro other there
      rw [table, none, flag]
      rw [table, PointerConstraints.ids_constraintDeactivate] at there
      have before := kept.single.active other there
      rw [active] at before
      by_cases same : other = id
      · simp [same]
      · simp only [same, ↓reduceIte, reduceCtorEq, iff_false]
        rw [before]
        exact fun equal => same (Option.some.inj equal).symm
    · intro other isActive
      rw [table, none] at isActive
      nomatch isActive
    · rw [table, PointerConstraints.ids_constraintDeactivate]
      exact kept.apart
    · rw [table, PointerConstraints.ids_constraintDeactivate, created]
      exact kept.below
    · intro other outside
      rw [created] at outside
      have different : other ≠ id := by
        have inside := kept.below id known
        omega
      rw [log, Function.update_of_ne different]
      exact kept.fresh other outside
    · -- Only the constraint that ends is told something, and only that one changes.
      intro other
      rw [log, table]
      by_cases same : other = id
      · rw [same, Function.update_self,
          PointerConstraints.constraint_constraintDeactivate_self on]
        exact (kept.heard id).leave on
      · rw [Function.update_of_ne same, k.table.constraint_constraintDeactivate_of_ne same]
        exact kept.heard other

/-- A constraint becomes active where none was. -/
theorem Kept.activate (kept : k.Kept) (known : id ∈ k.table.ids) (free : k.table.active = none)
    (usable : (k.table.constraint id).dead = false)
    (surface : (k.table.constraint id).surface.isSome = true) :
    (k.constraintActivate id).Kept := by
  have off (other : Nat) (there : other ∈ k.table.ids) :
      (k.table.constraint other).active = false := by
    have before := kept.single.active other there
    rw [free] at before
    simpa using before
  have result : k.constraintActivate id =
      { k.send id (.enter ()) with
        table :=
          { k.table.modify id fun cc => { cc with active := true } with active := some id } } := by
    simp [constraintActivate, PointerConstraints.constraintActivate, off id known]
  rw [result]
  have self : (k.table.modify id fun cc => { cc with active := true }).constraint id =
      { k.table.constraint id with active := true } := Function.update_self ..
  have rest (other : Nat) (different : other ≠ id) :
      (k.table.modify id fun cc => { cc with active := true }).constraint other =
        k.table.constraint other := Function.update_of_ne different ..
  have logSelf : (k.send id (.enter ())).log id = .enter () :: k.log id := Function.update_self ..
  have logRest (other : Nat) (different : other ≠ id) :
      (k.send id (.enter ())).log other = k.log other := Function.update_of_ne different ..
  refine Kept.of_heard ⟨?_, ?_⟩ kept.apart kept.below ?_ ?_
  · intro other there
    show ((k.table.modify id fun cc => { cc with active := true }).constraint other).active = true ↔
      some id = some other
    by_cases same : other = id
    · rw [same, self]
      simp
    · rw [rest other same, off other there]
      simpa using fun equal => same equal.symm
  · intro other isActive
    obtain rfl : id = other := Option.some.inj isActive
    refine ⟨known, ?_⟩
    show ((k.table.modify id fun cc => { cc with active := true }).constraint id).surface.isSome =
      true
    rw [self]
    exact surface
  · intro other outside
    have different : other ≠ id := by
      have inside := kept.below id known
      have beyond : k.created ≤ other := outside
      omega
    exact (logRest other different).trans (kept.fresh other outside)
  · intro other
    show Heard ((k.send id (.enter ())).log other)
      ((k.table.modify id fun cc => { cc with active := true }).constraint other)
    by_cases same : other = id
    · rw [same, self, logSelf]
      exact (kept.heard id).enter (off id known) usable
    · rw [rest other same, logRest other same]
      exact kept.heard other

variable {later : HintedPointer}

theorem Kept.congr (kept : k.Kept) (table : later.table = k.table) (log : later.log = k.log)
    (created : later.created = k.created) : later.Kept := by
  obtain ⟨single, apart, below, fresh, told, alternates, once⟩ := kept
  refine ⟨⟨?_, ?_⟩, ?_, ?_, ?_, ?_, ?_, ?_⟩
  · rw [table]
    exact single.active
  · rw [table]
    exact single.known
  · rw [table]
    exact apart
  · rw [table, created]
    exact below
  · rw [created, log]
    exact fresh
  · rw [log, table]
    exact told
  · rw [log]
    exact alternates
  · unfold begun
    rw [log, table]
    exact once

theorem Kept.off (kept : k.Kept) (known : id ∈ k.table.ids) (other : k.table.active ≠ some id) :
    (k.table.constraint id).active = false := by
  have same := kept.single.active id known
  cases on : (k.table.constraint id).active with
  | false => rfl
  | true => exact absurd (same.mp on) other

theorem Kept.active_deactivate (kept : k.Kept) (known : id ∈ k.table.ids) :
    (k.constraintDeactivate id).table.active ≠ some id := by
  cases on : (k.table.constraint id).active with
  | false =>
    rw [constraintDeactivate_of_inactive on]
    intro active
    rw [(kept.single.active id known).mpr active] at on
    nomatch on
  | true =>
    have active := (kept.single.active id known).mp on
    rw [(constraintDeactivate_of_active on).1,
      PointerConstraints.active_constraintDeactivate on active]
    exact nofun

theorem ids_constraintDeactivate (k : HintedPointer) (id : Nat) :
    (k.constraintDeactivate id).table.ids = k.table.ids := by
  cases on : (k.table.constraint id).active with
  | false => rw [constraintDeactivate_of_inactive on]
  | true =>
    rw [(constraintDeactivate_of_active on).1]
    exact k.table.ids_constraintDeactivate id

theorem ids_constraintDetachSurface (k : HintedPointer) (id : Nat) :
    (k.constraintDetachSurface id).table.ids = k.table.ids := by
  unfold constraintDetachSurface
  split
  · rfl
  · exact k.ids_constraintDeactivate id

theorem Kept.detachSurface (kept : k.Kept) (known : id ∈ k.table.ids) :
    (k.constraintDetachSurface id).Kept := by
  unfold constraintDetachSurface
  split
  · exact kept
  · have ended := kept.deactivate known
    have inactive := kept.active_deactivate known
    have there : id ∈ (k.constraintDeactivate id).table.ids := by
      rw [ids_constraintDeactivate]
      exact known
    have off := ended.off there inactive
    generalize k.constraintDeactivate id = d at ended inactive off
    have flags (other : Nat) :
        ((d.table.modify id fun cc => { cc with surface := none }).constraint other).active =
            (d.table.constraint other).active ∧
          ((d.table.modify id fun cc => { cc with surface := none }).constraint other).dead =
            (d.table.constraint other).dead ∧
          ((d.table.modify id fun cc => { cc with surface := none }).constraint other).oneshot =
            (d.table.constraint other).oneshot := by
      by_cases same : other = id
      · simp [PointerConstraints.modify, same]
      · simp [PointerConstraints.modify, same]
    refine ⟨⟨?_, ?_⟩, ended.apart, ended.below, ended.fresh, ?_, ended.alternates, ?_⟩
    · intro other member
      rw [(flags other).1]
      exact ended.single.active other member
    · intro other active
      have different : other ≠ id := by
        intro same
        exact inactive (same ▸ active)
      have before := ended.single.known other active
      refine ⟨before.1, ?_⟩
      simpa [PointerConstraints.modify, different] using before.2
    · intro other
      rw [(flags other).1]
      exact ended.told other
    · intro other oneshot
      rw [(flags other).2.2] at oneshot
      rw [(flags other).1, (flags other).2.1]
      exact ended.once other oneshot

variable {ids : List Nat}

theorem Kept.detachAll (kept : k.Kept) (s : Nat) (known : ∀ id ∈ ids, id ∈ k.table.ids) :
    (ids.foldl (fun k id =>
      if (k.table.constraint id).surface = some s then k.constraintDetachSurface id else k)
      k).Kept := by
  induction ids generalizing k with
  | nil => exact kept
  | cons id ids ih =>
    rw [List.foldl_cons]
    split
    · apply ih (kept.detachSurface (known id (.head _)))
      intro other member
      rw [ids_constraintDetachSurface]
      exact known other (.tail _ member)
    · exact ih kept fun other member => known other (.tail _ member)

theorem Kept.surfaceGone (kept : k.Kept) (s : Nat) : (k.constraintsSurfaceGone s).Kept :=
  kept.detachAll s fun _ member => member

theorem Kept.updateFocus (kept : k.Kept) (newfocus : Option Nat) :
    (k.constraintsUpdateFocus newfocus).Kept := by
  have left : (k.leaveFocus newfocus).Kept := by
    unfold HintedPointer.leaveFocus
    split
    · rename_i id active
      split
      · exact kept
      · exact kept.deactivate (kept.single.known id active).1
    · exact kept
  unfold constraintsUpdateFocus
  dsimp only
  split
  · -- A constraint on the surface, which is not used up, may become active.
    rename_i id free found
    obtain ⟨known, s, -, surface⟩ := PointerConstraints.constraintForSurface_eq_some found
    have usable : ((k.leaveFocus newfocus).table.constraint id).dead = false := by
      cases newfocus with
      | none => nomatch found
      | some t =>
        have matching := List.find?_some found
        rw [Bool.and_eq_true] at matching
        simpa using matching.1
    exact left.activate known free usable (by rw [surface]; rfl)
  · exact left

theorem Kept.resDestroy (kept : k.Kept) (id : Nat) : (k.constraintResDestroy id).Kept := by
  have perm := swapRemove_perm (· = id) k.table.ids
  have erased : (k.table.ids.eraseP (· = id)).Sublist k.table.ids := List.eraseP_sublist
  have subset : ∀ other ∈ swapRemove (· = id) k.table.ids, other ∈ k.table.ids := by
    intro other member
    exact erased.subset (perm.mem_iff.mp member)
  refine ⟨⟨?_, ?_⟩, ?_, ?_, kept.fresh, kept.told, kept.alternates, kept.once⟩
  · intro other member
    show (k.table.constraint other).active = true ↔
      (if k.table.active = some id then none else k.table.active) = some other
    rw [kept.single.active other (subset other member)]
    split
    · -- The destroyed constraint was the active one, and is no longer in the table.
      rename_i active
      have gone : k.table.ids.eraseP (· = id) = k.table.ids.erase id := by
        rw [List.erase_eq_eraseP]
        congr 1
        funext x
        rw [Bool.eq_iff_iff, beq_iff_eq, decide_eq_true_eq]
        exact eq_comm
      rw [active]
      constructor
      · intro same
        have left := perm.mem_iff.mp member
        rw [gone, ← Option.some.inj same] at left
        exact absurd left kept.apart.not_mem_erase
      · exact nofun
    · exact Iff.rfl
  · intro other active
    change (if k.table.active = some id then none else k.table.active) = some other at active
    split at active
    · nomatch active
    · rename_i apart
      obtain ⟨known, surface⟩ := kept.single.known other active
      refine ⟨?_, surface⟩
      have different : other ≠ id := fun same => apart (same ▸ active)
      refine perm.mem_iff.mpr ?_
      exact (List.mem_eraseP_of_neg (by simpa using different)).mpr known
  · exact perm.nodup_iff.mpr (kept.apart.sublist erased)
  · exact fun other member => kept.below other (subset other member)

/-- A new constraint becomes active at once where its surface has the pointer. -/
theorem Kept.new (kept : k.Kept) (surface : Option Nat) (locks oneshot : Bool) :
    (k.constraintNew surface locks oneshot).Kept := by
  unfold HintedPointer.constraintNew
  split
  · exact kept
  · -- The new constraint has a number that was never used.
    have unused : k.created ∉ k.table.ids := by
      intro member
      exact absurd (kept.below _ member) (Nat.lt_irrefl _)
    have rest (other : Nat) (different : other ≠ k.created) :
        (k.table.modify k.created fun _ => { surface, locks, oneshot }).constraint other =
          k.table.constraint other := Function.update_of_ne different ..
    have self : (k.table.modify k.created fun _ => { surface, locks, oneshot }).constraint
        k.created = { surface, locks, oneshot } := Function.update_self ..
    have apart (other : Nat) (member : other ∈ k.table.ids) : other ≠ k.created := by
      intro same
      exact unused (same ▸ member)
    have added : ({ k with
        created := k.created + 1
        table := { k.table.modify k.created fun _ => { surface, locks, oneshot } with
          ids := k.table.ids ++ [k.created] } } : HintedPointer).Kept := by
      refine Kept.of_heard ⟨?_, ?_⟩ ?_ ?_ ?_ ?_
      · intro other member
        show ((k.table.modify k.created fun _ => { surface, locks, oneshot }).constraint
          other).active = true ↔ k.table.active = some other
        rcases List.mem_append.mp member with there | new
        · rw [rest other (apart other there)]
          exact kept.single.active other there
        · rw [List.mem_singleton.mp new, self]
          constructor
          · exact nofun
          · exact fun active => absurd (kept.single.known _ active).1 unused
      · intro other active
        obtain ⟨known, on⟩ := kept.single.known other active
        refine ⟨List.mem_append_left _ known, ?_⟩
        show ((k.table.modify k.created fun _ => { surface, locks, oneshot }).constraint
          other).surface.isSome = true
        rw [rest other (apart other known)]
        exact on
      · apply List.Nodup.append kept.apart (List.nodup_singleton _)
        intro other there new
        exact apart other there (List.mem_singleton.mp new)
      · intro other member
        show other < k.created + 1
        rcases List.mem_append.mp member with there | new
        · exact Nat.lt_succ_of_lt (kept.below other there)
        · rw [List.mem_singleton.mp new]
          exact Nat.lt_succ_self _
      · intro other outside
        have beyond : k.created + 1 ≤ other := outside
        exact kept.fresh other (by omega)
      · intro other
        show Heard (k.log other)
          ((k.table.modify k.created fun _ => { surface, locks, oneshot }).constraint other)
        by_cases same : other = k.created
        · rw [same, self, kept.fresh _ (Nat.le_refl _)]
          exact Heard.new surface locks oneshot
        · rw [rest other same]
          exact kept.heard other
    dsimp only
    -- It becomes active at once if the pointer is on its surface and no other one is.
    split
    · rename_i chosen
      exact added.activate (List.mem_append_right _ (.head _)) chosen.2.2
        (by rw [self]) (by rw [self]; exact chosen.1)
    · exact added

/-- Every event keeps everything in order. -/
theorem Kept.next (kept : k.Kept) (event : Event) : (k.next event).Kept := by
  suffices after : (k.after event).Kept by exact after.congr rfl rfl rfl
  cases event with
  | motion place hit grabbed =>
    show (k.handleMotion place hit grabbed).Kept
    unfold handleMotion
    split
    · exact kept
    · dsimp only
      split
      · exact kept.congr rfl rfl rfl
      · apply Kept.updateFocus
        exact kept.congr rfl rfl rfl
  | focus s => exact kept.congr rfl rfl rfl
  | placed s place => exact kept.congr rfl rfl rfl
  | unmap s =>
    apply Kept.surfaceGone
    exact kept.congr rfl rfl rfl
  | destroy s =>
    apply Kept.surfaceGone
    exact (kept.surfaceGone s).congr rfl rfl rfl
  | constraintNew surface locks oneshot => exact kept.new surface locks oneshot
  | setHint id x y =>
    show (k.lockedPtrSetHint id x y).Kept
    unfold lockedPtrSetHint
    split
    · exact kept.congr rfl rfl rfl
    · exact kept
  | constraintDestroyed id => exact kept.resDestroy id

theorem kept_start : ({} : HintedPointer).Kept where
  single := ⟨nofun, nofun⟩
  apart := List.nodup_nil
  below := nofun
  fresh := fun _ _ => rfl
  told := fun _ => rfl
  alternates := fun _ => trivial
  once := fun _ oneshot => nomatch oneshot

variable {s : Nat} {hint : Int × Int}

theorem hintedLock_eq_some :
    k.hintedLock = some (id, s, hint) ↔
      k.table.active = some id ∧ (k.table.constraint id).surface = some s ∧
        k.hint id = some hint ∧ (k.table.constraint id).locks = true := by
  unfold hintedLock
  constructor
  · intro found
    obtain ⟨active, isActive, found⟩ := Option.bind_eq_some_iff.mp found
    obtain ⟨surface, there, found⟩ := Option.bind_eq_some_iff.mp found
    obtain ⟨given, hinted, found⟩ := Option.bind_eq_some_iff.mp found
    split at found
    · rename_i locks
      cases found
      exact ⟨isActive, there, hinted, locks⟩
    · nomatch found
  · rintro ⟨active, surface, hinted, locks⟩
    simp [active, surface, hinted, locks]

theorem Kept.deactivate_hinted (kept : k.Kept) (lock : k.hintedLock = some (id, s, hint)) :
    (k.constraintDeactivate id).cursor = (k.place s).hinted hint ∧
      (k.constraintDeactivate id).table.active = none := by
  obtain ⟨active, surface, hinted, locks⟩ := hintedLock_eq_some.mp lock
  have on := (kept.single.active id (kept.single.known id active).1).mpr active
  constructor
  · simp [constraintDeactivate, on, surface, hinted, locks]
  · rw [(constraintDeactivate_of_active on).1]
    exact PointerConstraints.active_constraintDeactivate on active

theorem detachSurface_cursor (attached : (k.table.constraint id).surface.isSome = true) :
    (k.constraintDetachSurface id).cursor = (k.constraintDeactivate id).cursor ∧
      (k.constraintDetachSurface id).table.active = (k.constraintDeactivate id).table.active := by
  have some : (k.table.constraint id).surface.isNone = false := by
    rw [Option.isNone_eq_false_iff]
    exact attached
  unfold constraintDetachSurface
  rw [some]
  exact ⟨rfl, rfl⟩

theorem detachSurface_of_inactive (off : (k.table.constraint id).active = false) :
    k.constraintDetachSurface id =
      { k with table := k.table.modify id fun cc => { cc with surface := none } } := by
  unfold constraintDetachSurface
  rw [constraintDeactivate_of_inactive off]
  split
  · rename_i free
    have same : ({ k.table.constraint id with surface := none } : PointerConstraint) =
        k.table.constraint id := by
      rw [← Option.isNone_iff_eq_none.mp free]
    simp [PointerConstraints.modify, same]
  · rfl

/-- A lock with a hint is active, or it has ended at the hint because its surface is gone. -/
structure Settles (lock : Nat × Nat × (Int × Int)) (place : SurfacePlace) (gone : Nat)
    (k : HintedPointer) : Prop where
  kept : k.Kept
  still : k.place lock.2.1 = place
  -- Once it has ended, no constraint is active.
  outcome : k.hintedLock = some lock ∨
    (lock.2.1 = gone ∧ k.table.active = none ∧ k.cursor = place.hinted lock.2.2)

theorem place_constraintDeactivate (k : HintedPointer) (id : Nat) :
    (k.constraintDeactivate id).place = k.place := by
  cases on : (k.table.constraint id).active with
  | false => rw [constraintDeactivate_of_inactive on]
  | true =>
    obtain ⟨-, -, -, -, place, -⟩ := constraintDeactivate_of_active on
    exact place

theorem place_constraintDetachSurface (k : HintedPointer) (id : Nat) :
    (k.constraintDetachSurface id).place = k.place := by
  unfold constraintDetachSurface
  split
  · rfl
  · exact k.place_constraintDeactivate id

variable {lock : Nat × Nat × (Int × Int)} {place : SurfacePlace} {gone : Nat}

theorem Settles.detachSurface (settles : Settles lock place gone k) (known : id ∈ k.table.ids)
    (there : (k.table.constraint id).surface = some gone) :
    Settles lock place gone (k.constraintDetachSurface id) := by
  refine ⟨settles.kept.detachSurface known, ?_, ?_⟩
  · rw [place_constraintDetachSurface]
    exact settles.still
  · rcases settles.outcome with active | ⟨same, free, cursor⟩
    · obtain ⟨lockId, s, hint⟩ := lock
      obtain ⟨isActive, surface, hinted, locks⟩ := hintedLock_eq_some.mp active
      by_cases own : id = lockId
      · -- This is the lock, which is on the surface that is gone.
        subst own
        rw [surface, Option.some.injEq] at there
        obtain ⟨cursor, free⟩ := settles.kept.deactivate_hinted active
        have attached : (k.table.constraint id).surface.isSome = true := by
          rw [surface]
          rfl
        obtain ⟨cursor', free'⟩ := detachSurface_cursor attached
        refine .inr ⟨there, free'.trans free, ?_⟩
        rw [cursor', cursor]
        exact congrArg (SurfacePlace.hinted · hint) settles.still
      · have off := settles.kept.off known (by rw [isActive]; simpa using Ne.symm own)
        have rest : (k.table.modify id fun cc => { cc with surface := none }).constraint lockId =
            k.table.constraint lockId := Function.update_of_ne (Ne.symm own) ..
        rw [detachSurface_of_inactive off]
        refine .inl (hintedLock_eq_some.mpr ⟨isActive, ?_, hinted, ?_⟩)
        · show ((k.table.modify id fun cc => { cc with surface := none }).constraint
            lockId).surface = some s
          rw [rest]
          exact surface
        · show ((k.table.modify id fun cc => { cc with surface := none }).constraint
            lockId).locks = true
          rw [rest]
          exact locks
    · have off := settles.kept.off known (by rw [free]; exact nofun)
      rw [detachSurface_of_inactive off]
      exact .inr ⟨same, free, cursor⟩

theorem Settles.detachAll (settles : Settles lock place gone k)
    (known : ∀ id ∈ ids, id ∈ k.table.ids) :
    Settles lock place gone (ids.foldl (fun k id =>
      if (k.table.constraint id).surface = some gone then k.constraintDetachSurface id else k)
      k) := by
  induction ids generalizing k with
  | nil => exact settles
  | cons id ids ih =>
    rw [List.foldl_cons]
    split
    · rename_i there
      apply ih (settles.detachSurface (known id (.head _)) there)
      intro other member
      rw [ids_constraintDetachSurface]
      exact known other (.tail _ member)
    · exact ih settles fun other member => known other (.tail _ member)

theorem Settles.pointerGone (settles : Settles lock place gone k) :
    Settles lock place gone (k.pointerGone gone) := by
  have moved : Settles lock place gone
      { k with ptrFocus := if k.ptrFocus = some gone then none else k.ptrFocus } :=
    ⟨settles.kept.congr rfl rfl rfl, settles.still, settles.outcome⟩
  exact moved.detachAll fun _ member => member

theorem Kept.updateFocus_hinted (kept : k.Kept) (active : k.hintedLock = some (id, s, hint))
    (newfocus : Option Nat) :
    k.constraintsUpdateFocus newfocus = k ∨
      (newfocus ≠ some s ∧
        (k.constraintsUpdateFocus newfocus).cursor = (k.place s).hinted hint) := by
  obtain ⟨isActive, surface, -, -⟩ := hintedLock_eq_some.mp active
  unfold constraintsUpdateFocus HintedPointer.leaveFocus
  simp only [isActive, surface]
  by_cases stays : some s = newfocus
  · simp only [stays, ↓reduceIte, isActive]
    exact .inl trivial
  · obtain ⟨cursor, free⟩ := kept.deactivate_hinted active
    simp only [stays, ↓reduceIte, free]
    refine .inr ⟨Ne.symm stays, ?_⟩
    -- A constraint that becomes active then leaves the cursor alone.
    split
    · rw [constraintActivate]
      split
      · exact cursor
      · exact cursor
    · exact cursor

variable {e : LockEnd}

theorem atHint_of_hinted (cursor : e.cursor = e.place.hinted e.hint) (wide : 0 < e.place.w)
    (high : 0 < e.place.h) : e.AtHint := by
  have x : e.cursor.1 = e.place.dx + clampi e.hint.1 0 (e.place.w - 1) := by
    rw [cursor, SurfacePlace.hinted, if_pos wide]
  have y : e.cursor.2 = e.place.dy + clampi e.hint.2 0 (e.place.h - 1) := by
    rw [cursor, SurfacePlace.hinted, if_pos high]
  unfold clampi at x y
  constructor
  · rw [x]
    split <;> omega
  · rw [y]
    split <;> omega
  · rw [x, y]
    split <;> split <;> omega

theorem lockEnd_eq_some (active : k.hintedLock = some (id, s, hint))
    (ended : k.lockEnd later = some e) :
    later.isActive id = false ∧ e = ⟨hint, k.place s, later.cursor⟩ := by
  unfold lockEnd at ended
  rw [active] at ended
  dsimp only at ended
  split at ended
  · nomatch ended
  · rename_i off
    exact ⟨by simpa using off, (Option.some.inj ended).symm⟩

theorem Kept.isActive (kept : k.Kept) (active : k.table.active = some id) :
    k.isActive id = true := by
  obtain ⟨known, -⟩ := kept.single.known id active
  have on := (kept.single.active id known).mpr active
  simp [HintedPointer.isActive, known, on]

theorem Kept.motion_hinted (kept : k.Kept) (active : k.hintedLock = some (id, s, hint))
    (place : Int × Int) (hit : Option Nat) (grabbed : Bool) :
    (k.handleMotion place hit grabbed).table.active = some id ∨
      (k.TakesFrom s (.motion place hit grabbed) ∧
        (k.handleMotion place hit grabbed).cursor = (k.place s).hinted hint) := by
  obtain ⟨isActive, -, -, -⟩ := hintedLock_eq_some.mp active
  by_cases locked : k.table.pointerLockedFor k.ptrFocus = true
  · have still : k.handleMotion place hit grabbed = k := if_pos locked
    rw [still]
    exact .inl isActive
  · by_cases stays : grabbed = true ∨ hit = k.ptrFocus
    · have still : k.handleMotion place hit grabbed = { k with cursor := place } := by
        simp [handleMotion, locked, stays]
      rw [still]
      exact .inl isActive
    · -- The pointer goes to another surface, or to none.
      have moved : k.handleMotion place hit grabbed =
          ({ k with cursor := place, ptrFocus := hit } : HintedPointer).constraintsUpdateFocus
            hit := by
        simp [handleMotion, locked, stays]
      have there : ({ k with cursor := place, ptrFocus := hit } : HintedPointer).Kept :=
        kept.congr rfl rfl rfl
      rw [moved]
      rcases there.updateFocus_hinted active hit with same | ⟨other, cursor⟩
      · rw [same]
        exact .inl isActive
      · rw [not_or] at stays
        exact .inr ⟨⟨by simpa using locked, by simpa using stays.1, stays.2, other⟩, cursor⟩

theorem active_constraintNew (isActive : k.table.active = some id) (surface : Option Nat)
    (locks oneshot : Bool) : (k.constraintNew surface locks oneshot).table.active = some id := by
  unfold constraintNew
  split
  · exact isActive
  · dsimp only
    rw [if_neg]
    · exact isActive
    · intro chosen
      have free : k.table.active = none := chosen.2.2
      rw [isActive] at free
      nomatch free

/-- A lock that ends leaves the pointer at its hint. -/
theorem Kept.atHint (kept : k.Kept) {event : Event} (heeds : k.Heeds event)
    (ended : k.lockEnd (k.after event) = some e) : e.AtHint := by
  cases active : k.hintedLock with
  | none =>
    unfold lockEnd at ended
    rw [active] at ended
    nomatch ended
  | some lock =>
    obtain ⟨id, s, hint⟩ := lock
    unfold Heeds at heeds
    rw [active] at heeds
    obtain ⟨alive, sized⟩ := heeds
    obtain ⟨isActive, -, -, -⟩ := hintedLock_eq_some.mp active
    obtain ⟨off, rfl⟩ := lockEnd_eq_some active ended
    have later : (k.after event).Kept := (kept.next event).congr rfl rfl rfl
    -- Where the lock stays the active one, it has not ended.
    have goesOn (same : (k.after event).table.active = some id) :
        (LockEnd.mk hint (k.place s) (k.after event).cursor).AtHint := by
      rw [later.isActive same] at off
      nomatch off
    have endsAt (takes : k.TakesFrom s event)
        (cursor : (k.after event).cursor = (k.place s).hinted hint) :
        (LockEnd.mk hint (k.place s) (k.after event).cursor).AtHint :=
      atHint_of_hinted cursor (sized takes).1 (sized takes).2
    have settled {gone : Nat} (takes : s = gone → k.TakesFrom s event)
        (settles : Settles (id, s, hint) (k.place s) gone (k.after event)) :
        (LockEnd.mk hint (k.place s) (k.after event).cursor).AtHint := by
      rcases settles.outcome with stays | ⟨same, -, cursor⟩
      · exact goesOn (hintedLock_eq_some.mp stays).1
      · exact endsAt (takes same) cursor
    have start (gone : Nat) : Settles (id, s, hint) (k.place s) gone k :=
      ⟨kept, rfl, .inl active⟩
    cases event with
    | motion place hit grabbed =>
      rcases kept.motion_hinted active place hit grabbed with stays | ⟨takes, cursor⟩
      · exact goesOn stays
      · exact endsAt takes cursor
    | focus t => exact goesOn isActive
    | placed t place => exact goesOn isActive
    | unmap t => exact settled (fun same => same.symm) (start t).pointerGone
    | destroy t =>
      have first : Settles (id, s, hint) (k.place s) t (k.constraintsSurfaceGone t) :=
        (start t).detachAll fun _ member => member
      exact settled (fun same => same.symm) first.pointerGone
    | constraintNew surface locks oneshot =>
      exact goesOn (active_constraintNew isActive surface locks oneshot)
    | setHint other x y =>
      apply goesOn
      show (k.lockedPtrSetHint other x y).table.active = some id
      unfold lockedPtrSetHint
      split
      · exact isActive
      · exact isActive
    | constraintDestroyed other =>
      apply goesOn
      show (if k.table.active = some other then none else k.table.active) = some id
      rw [isActive, if_neg]
      intro same
      rw [Option.some.inj same] at alive
      exact alive rfl

/-- Constraints as long as every event heeds the hint of the lock that is active. -/
def heedful : Machine HintedPointer Event :=
  machine.restrict Heeds

/-- In every run constraints begin and end in turn, a oneshot constraint begins at most once, and
the constraint noted as active is the only one; a lock with a hint ends at the hint if the events
heed it. -/
theorem locks_end_at_hint {trace : List Event} {k : HintedPointer} (run : machine.Run trace k) :
    (heedful.Run trace k → ∀ e ∈ k.ends, e.AtHint) ∧
      (∀ id, Visit.Alternates (k.log id)) ∧
      (∀ id, (k.table.constraint id).oneshot = true → k.begun id ≤ 1) ∧ k.Single := by
  have kept : k.Kept := by
    apply run.invariant fun _ k => k.Kept
    · intro k begun
      rw [show k = {} from begun]
      exact kept_start
    · exact fun _ _ event kept _ => kept.next event
  refine ⟨?_, kept.alternates, ?_, kept.single⟩
  · intro heeding
    have both : k.Kept ∧ ∀ e ∈ k.ends, e.AtHint := by
      apply heeding.invariant fun _ k => k.Kept ∧ ∀ e ∈ k.ends, e.AtHint
      · intro k begun
        rw [show k = {} from begun]
        exact ⟨kept_start, nofun⟩
      · intro _ k event held allowed
        refine ⟨held.1.next event, ?_⟩
        intro e member
        rcases List.mem_append.mp member with new | old
        · exact held.1.atHint allowed.2 (by simpa using new)
        · exact held.2 e old
    exact both.2
  · intro id oneshot
    rw [kept.once id oneshot]
    split <;> decide

def lockScript : List Event :=
  [.placed 5 ⟨10, 20, 100, 80⟩, .focus (some 5), .constraintNew (some 5) true true,
    .setHint 0 (500 * 256) (-3 * 256)]

def hideScript : List Event :=
  lockScript ++ [.unmap 5, .motion (1, 1) (some 5) false]

def dropScript : List Event :=
  lockScript ++ [.constraintDestroyed 0]

instance (k : HintedPointer) (s : Nat) : DecidablePred (k.TakesFrom s)
  | .motion _ hit grabbed =>
    inferInstanceAs (Decidable (k.table.pointerLockedFor k.ptrFocus = false ∧ grabbed = false ∧
      hit ≠ k.ptrFocus ∧ hit ≠ some s))
  | .unmap t | .destroy t => inferInstanceAs (Decidable (t = s))
  | .focus _ | .placed _ _ | .constraintNew _ _ _ | .setHint _ _ _ | .constraintDestroyed _ =>
    .isFalse fun takes => takes

instance (k : HintedPointer) (event : Event) : Decidable (heedful.enabled k event) :=
  match found : k.hintedLock with
  | none => .isTrue ⟨trivial, by unfold Heeds; rw [found]; trivial⟩
  | some (id, s, hint) =>
    decidable_of_iff (event ≠ .constraintDestroyed id ∧
      (k.TakesFrom s event → 0 < (k.place s).w ∧ 0 < (k.place s).h))
      ⟨fun heeds => ⟨trivial, by unfold Heeds; rw [found]; exact heeds⟩,
        fun allowed => by have heeds := allowed.2; unfold Heeds at heeds; rwa [found] at heeds⟩

theorem locks_end_at_hint_hidden :
    (∀ e ∈ (hideScript.foldl next {}).ends, e.AtHint) ∧
      (hideScript.foldl next {}).ends = [⟨(500, -3), ⟨10, 20, 100, 80⟩, (109, 20)⟩] :=
  ⟨(locks_end_at_hint (Machine.Run.of_script (m := machine) rfl hideScript
      (Machine.admits_of_enabled (fun _ _ => trivial) _ _))).1
      (Machine.Run.of_script (m := heedful) rfl hideScript (by decide)),
    by decide⟩

theorem not_locks_end_at_hint :
    ¬ ∀ (trace : List Event) (k : HintedPointer), machine.Run trace k →
      (∀ e ∈ k.ends, e.AtHint) ∧ (∀ id, Visit.Alternates (k.log id)) ∧
        (∀ id, (k.table.constraint id).oneshot = true → k.begun id ≤ 1) ∧ k.Single := by
  intro every
  have run := Machine.Run.of_script (m := machine) (s := {}) rfl dropScript
    (Machine.admits_of_enabled (fun _ _ => trivial) _ _)
  have ended := (every _ _ run).1 ⟨(500, -3), ⟨10, 20, 100, 80⟩, (0, 0)⟩ (by decide)
  exact absurd ended.x (by decide)

end HintedPointer

end Xios
