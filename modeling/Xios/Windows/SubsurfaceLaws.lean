import Mathlib.Algebra.Order.Ring.Nat
import Xios.Windows.Subsurface

/-! When the commits of synchronized subsurfaces are atomic. -/

namespace Xios

namespace TreeSurface

/-- The contents that applying everything pending would result in. -/
def awaited (x : TreeSurface) : SurfaceContents where
  buffer := if x.bufferAttached then x.pendingBuffer else x.currentBuffer
  scale := if x.pendingScaleDirty then x.pendingBufferScale else x.currentBufferScale
  frames := x.pendingFrameCallbacks ++ x.frameCallbacks

/-- What is applied is the last commit's contents, unless it waits, and no commit is twice. -/
structure Settled (x : TreeSurface) : Prop where
  -- Without a commit that waits, the last one's contents are applied.
  latest : x.cachePending = false → x.current = x.ledger.committed
  -- No commit has been applied more than once.
  once : x.ledger.applied.Nodup
  -- The last commit has been applied unless it waits.
  applied : 0 < x.ledger.serial →
    (x.ledger.serial ∈ x.ledger.applied ↔ x.cachePending = false)

/-- What holds of a surface between requests. -/
structure Kept (x : TreeSurface) : Prop extends x.Settled where
  asked : x.ledger.asked = x.awaited
  positive : x.pendingScaleDirty = true → 0 < x.pendingBufferScale
  -- Only commits made so far have been applied.
  bounded : ∀ n ∈ x.ledger.applied, n ≤ x.ledger.serial
  -- Commits that wait have been made, in synchronized mode.
  waiting : x.cachePending = true → 0 < x.ledger.serial ∧ x.sync = true

variable {x : TreeSurface}

theorem current_applyOwn (kept : x.Kept) : x.applyOwn.current = x.ledger.asked := by
  rw [kept.asked]
  cases dirty : x.pendingScaleDirty with
  | false => simp [applyOwn, current, awaited, dirty]
  | true =>
    have positive := kept.positive dirty
    simp [applyOwn, current, awaited, dirty, positive]

theorem Kept.pend {y : TreeSurface} (kept : x.Kept) (current : y.current = x.current)
    (cache : y.cachePending = x.cachePending) (sync : x.sync = true → y.sync = true)
    (committed : y.ledger.committed = x.ledger.committed)
    (serial : y.ledger.serial = x.ledger.serial) (applied : y.ledger.applied = x.ledger.applied)
    (asked : y.ledger.asked = y.awaited)
    (positive : y.pendingScaleDirty = true → 0 < y.pendingBufferScale) : y.Kept where
  latest := by rw [cache, current, committed]; exact kept.latest
  once := by rw [applied]; exact kept.once
  applied := by rw [serial, applied, cache]; exact kept.applied
  asked := asked
  positive := positive
  bounded := by rw [applied, serial]; exact kept.bounded
  waiting := by
    rw [cache, serial]
    exact fun waits => (kept.waiting waits).imp_right sync

theorem Kept.attach (kept : x.Kept) (buffer : Option Nat) : (x.attach buffer).Kept := by
  refine kept.pend rfl rfl id rfl rfl rfl ?_ kept.positive
  have asked := kept.asked
  simp only [TreeSurface.attach, ask, awaited] at asked ⊢
  rw [asked]
  rfl

theorem Kept.frame (kept : x.Kept) (callback : Nat) : (x.frame callback).Kept := by
  refine kept.pend rfl rfl id rfl rfl rfl ?_ kept.positive
  have asked := kept.asked
  simp only [TreeSurface.frame, ask, awaited] at asked ⊢
  rw [asked]
  rfl

theorem Kept.addDamage (kept : x.Kept) (r : Rect) : (x.addDamage r).Kept :=
  kept.pend rfl rfl id rfl rfl rfl kept.asked kept.positive

theorem Kept.setBufferScale (kept : x.Kept) (scale : Int) : (x.setBufferScale scale).Kept := by
  unfold TreeSurface.setBufferScale
  have asked := kept.asked
  split
  · exact kept
  · rename_i valid
    split
    · rename_i pending
      refine kept.pend rfl rfl id rfl rfl rfl ?_ kept.positive
      simp only [ask, awaited] at asked ⊢
      rw [asked]
      simp only [if_pos pending.1, pending.2]
      rfl
    · split
      · rename_i present
        refine kept.pend rfl rfl id rfl rfl rfl ?_ kept.positive
        simp only [ask, awaited] at asked ⊢
        rw [asked]
        simp only [if_neg (Bool.eq_false_iff.mp present.1), present.2]
        rfl
      · refine kept.pend rfl rfl id rfl rfl rfl ?_ fun _ => Int.not_le.mp fun low => valid (by
          simp only [ask] at low
          omega)
        simp only [ask, awaited] at asked ⊢
        rw [asked]
        rfl

theorem Kept.setSync (kept : x.Kept) : (x.setSync true).Kept :=
  kept.pend rfl rfl (fun _ => rfl) rfl rfl rfl kept.asked kept.positive

theorem Kept.setDesync (kept : x.Kept) (free : x.cachePending = false) : (x.setSync false).Kept where
  latest := kept.latest
  once := kept.once
  applied := kept.applied
  asked := kept.asked
  positive := kept.positive
  bounded := kept.bounded
  waiting waits := absurd (free.symm.trans waits) Bool.false_ne_true

theorem Kept.commitCached (kept : x.Kept) (sync : x.sync = true) : (x.note.cache true).Kept where
  latest waits := absurd waits (Bool.true_eq_false ▸ not_false)
  once := kept.once
  applied _ := by
    -- Its number is new.
    have fresh : x.ledger.serial + 1 ∉ x.ledger.applied := fun old => by
      have := kept.bounded _ old
      omega
    simpa [note, cache] using fresh
  asked := kept.asked
  positive := kept.positive
  bounded n old := Nat.le_succ_of_le (kept.bounded n old)
  waiting _ := ⟨Nat.succ_pos _, sync⟩

theorem Kept.commitApplied (kept : x.Kept) (free : x.cachePending = false) : x.note.applyOwn.Kept where
  latest _ := by
    have shown := current_applyOwn kept
    exact shown
  once := by
    -- Its number is new.
    refine List.nodup_cons.mpr ⟨fun old => ?_, kept.once⟩
    have := kept.bounded _ old
    simp only [note] at this
    omega
  applied _ := by
    simpa [note, applyOwn] using free
  asked := by
    have shown := current_applyOwn kept
    rw [show x.note.applyOwn.ledger.asked = x.ledger.asked from rfl, ← shown]
    rfl
  positive dirty := absurd dirty Bool.false_ne_true
  bounded n within := by
    obtain rfl | old := List.mem_cons.mp within
    · exact Nat.le_refl _
    · exact Nat.le_succ_of_le (kept.bounded n old)
  waiting waits := absurd (free.symm.trans waits) Bool.false_ne_true

theorem Kept.applyCached (kept : x.Kept) (waits : x.cachePending = true)
    (same : x.ledger.asked = x.ledger.committed) (sync : Bool) :
    ((x.setSync sync).cache false).applyOwn.Kept where
  latest _ := by
    have shown := current_applyOwn kept
    exact shown.trans same
  once := by
    refine List.nodup_cons.mpr ⟨fun old => ?_, kept.once⟩
    have free := (kept.applied (kept.waiting waits).1).mp old
    exact absurd (free.symm.trans waits) Bool.false_ne_true
  applied _ := by
    simp [cache, applyOwn]
  asked := by
    have shown := current_applyOwn kept
    rw [show ((x.setSync sync).cache false).applyOwn.ledger.asked = x.ledger.asked from rfl,
      ← shown]
    rfl
  positive dirty := absurd dirty Bool.false_ne_true
  bounded n within := by
    obtain rfl | old := List.mem_cons.mp within
    · exact Nat.le_refl _
    · exact kept.bounded n old
  waiting waits := absurd waits Bool.false_ne_true

theorem current_setBufferScale (x : TreeSurface) (scale : Int) :
    (x.setBufferScale scale).current = x.current := by
  unfold setBufferScale
  split
  · rfl
  · split
    · rfl
    · split <;> rfl

theorem cachePending_setBufferScale (x : TreeSurface) (scale : Int) :
    (x.setBufferScale scale).cachePending = x.cachePending := by
  unfold setBufferScale
  split
  · rfl
  · split
    · rfl
    · split <;> rfl

theorem damage_setBufferScale (x : TreeSurface) (scale : Int) :
    (x.setBufferScale scale).damage = x.damage := by
  unfold setBufferScale
  split
  · rfl
  · split
    · rfl
    · split <;> rfl

end TreeSurface

namespace SurfaceTree

variable {α : Type*}

/-- A subsurface is synchronized if it or an ancestor below the root is in synchronized mode. -/
def synced (f : Forest α) (st : SurfaceTree α) (c : α) : Bool :=
  f.climb (fun _ => false) (fun c _ above => (st c).sync || above) c

/-- The first ancestor of a subsurface that is not synchronized. -/
inductive NearestFree (f : Forest α) (st : SurfaceTree α) : α → α → Prop where
  -- The parent is not.
  | parent {c p : α} (up : f.parent c = some p) (free : st.synced f p = false) :
      NearestFree f st c p
  -- The parent is, so that it is the parent's.
  | above {c p s : α} (up : f.parent c = some p) (synced : st.synced f p = true)
      (nearest : NearestFree f st p s) : NearestFree f st c s

variable {f : Forest α} {st : SurfaceTree α} {s : α}

theorem NearestFree.depth_lt {c : α} (nearest : NearestFree f st c s) : f.depth s < f.depth c := by
  induction nearest with
  | parent up _ => exact f.deeper up
  | above up _ _ ih => exact ih.trans (f.deeper up)

def waiting (st : SurfaceTree α) (c : α) : Bool :=
  (st c).waits

theorem synced_iff {c : α} :
    st.synced f c = true ↔
      ∃ p, f.parent c = some p ∧ ((st c).sync = true ∨ st.synced f p = true) := by
  unfold synced
  rw [f.climb_eq]
  cases up : f.parent c with
  | none => simp
  | some p => simp

theorem synced_congr {st' : SurfaceTree α} (c : α)
    (same : ∀ d, f.depth d ≤ f.depth c → (st' d).sync = (st d).sync) :
    st'.synced f c = st.synced f c := by
  induction c using f.descend with
  | _ c ih =>
    unfold synced at ih ⊢
    rw [f.climb_eq, f.climb_eq _ (fun c _ above => (st c).sync || above)]
    cases up : f.parent c with
    | none => rfl
    | some p =>
      have lower := f.deeper up
      simp only [same c (Nat.le_refl _), ih p up fun d higher => same d (by omega)]

def Event.target : Event α → α
  | .attach s _ | .damage s _ | .setBufferScale s _ | .frame s _ => s
  | .commit s | .setSync s | .setDesync s => s

def alone : Event α → TreeSurface → TreeSurface
  | .attach _ buffer => (·.attach buffer)
  | .damage _ r => (·.addDamage r)
  | .setBufferScale _ scale => (·.setBufferScale scale)
  | .frame _ callback => (·.frame callback)
  | .commit _ => fun x => x.note.cache true
  | .setSync _ => (·.setSync true)
  | .setDesync _ => (·.setSync false)

theorem current_alone (event : Event α) (x : TreeSurface) :
    (alone event x).current = x.current := by
  cases event with
  | setBufferScale s scale => exact TreeSurface.current_setBufferScale x scale
  | attach | damage | frame | commit | setSync | setDesync => rfl

variable {event : Event α}

theorem damage_alone (quiet : ∀ s r, event ≠ .damage s r) (x : TreeSurface) :
    (alone event x).damage = x.damage := by
  cases event with
  | damage s r => exact absurd rfl (quiet s r)
  | setBufferScale s scale => exact TreeSurface.damage_setBufferScale x scale
  | attach | frame | commit | setSync | setDesync => rfl

def applies (f : Forest α) (st : SurfaceTree α) : Event α → Option α
  | .commit s => if (f.parent s).isSome = true ∧ (st s).sync = true then none else some s
  | .setDesync s => if (st s).cachePending then some s else none
  | _ => none

theorem event_of_applies (applied : st.applies f event = some s) :
    event = .commit s ∨ event = .setDesync s := by
  cases event with
  | commit s' =>
    simp only [applies] at applied
    split at applied
    · cases applied
    · exact .inl (congrArg _ (Option.some.inj applied))
  | setDesync s' =>
    simp only [applies] at applied
    split at applied
    · exact .inr (congrArg _ (Option.some.inj applied))
    · cases applied
  | attach | damage | setBufferScale | frame | setSync => cases applied

/-- What holds of all surfaces between requests. -/
structure Sound (f : Forest α) (st : SurfaceTree α) : Prop where
  -- Each keeps to what holds of one.
  kept : ∀ c, (st c).Kept
  -- Commits of roots do not wait.
  root : ∀ c, f.parent c = none → (st c).cachePending = false

theorem sound_fresh (f : Forest α) : Sound f (fun _ => {}) where
  kept _ := {
    latest := fun _ => rfl
    once := List.nodup_nil
    applied := fun first => absurd first (Nat.lt_irrefl 0)
    asked := rfl
    positive := fun dirty => absurd dirty Bool.false_ne_true
    bounded := fun _ within => absurd within List.not_mem_nil
    waiting := fun waits => absurd waits Bool.false_ne_true }
  root _ _ := rfl

/-- Nothing has been asked for since the last commit. -/
def Unchanged (x : TreeSurface) : Prop :=
  x.ledger.asked = x.ledger.committed
  deriving Decidable

variable [DecidableEq α]

/--
A request that applies a surface finds its parent not synchronized.

Since the commits that it applies with it nothing has been asked for.
-/
def Condition (f : Forest α) (st : SurfaceTree α) (event : Event α) : Prop :=
  ∀ s, st.applies f event = some s →
    (∀ p, f.parent s = some p → st.synced f p = false) ∧
      (event = .setDesync s → Unchanged (st s)) ∧
        ∀ c, f.reached st.waiting s c = true → Unchanged (st c)

/-- What a request may change of synchronized subsurfaces, and what it has to apply. -/
structure Atomic (f : Forest α) (st : SurfaceTree α) (event : Event α) : Prop where
  -- Contents change with a commit of the nearest free ancestor, or when synchronization ends.
  only : ∀ c, st.synced f c = true → (next f st event c).current ≠ (st c).current →
    ∃ s, event = .commit s ∧ NearestFree f st c s ∨
      event = .setDesync s ∧ (next f st event).synced f s = false ∧
        (c = s ∨ NearestFree f (next f st event) c s)
  -- Commits that wait for a surface, directly or behind others, are applied with it.
  complete : ∀ s, st.applies f event = some s → ∀ c, f.reached st.waiting s c = true →
    (next f st event c).cachePending = false
  -- Damage is handed on with no commit, and only when it is reported.
  damage : ∀ c, (next f st event c).damage ≠ (st c).damage → ∃ r, event = .damage c r

theorem nearestFree_of_reached {st' : SurfaceTree α} (free : st'.synced f s = false)
    (same : ∀ d, f.depth s < f.depth d → st.waiting d = true → (st' d).sync = true) (c : α)
    (below : f.reached st.waiting s c = true) : NearestFree f st' c s := by
  -- The walk up passes surfaces that are in synchronized mode themselves.
  induction c using f.descend with
  | _ c ih =>
    obtain ⟨p, up, _, here | higher⟩ := f.reached_iff.mp below
    · subst here
      exact .parent up free
    · obtain ⟨q, above, ready, _⟩ := f.reached_iff.mp higher
      have deeper := f.depth_lt_of_reached p higher
      exact .above up (synced_iff.mpr ⟨q, above, .inl (same p deeper ready)⟩) (ih p up higher)

def opening : Event α → TreeSurface → TreeSurface
  | .commit _ => TreeSurface.note
  | .setDesync _ => fun x => (x.setSync false).cache false
  | _ => id

theorem next_of_applies (applied : st.applies f event = some s) (d : α) :
    next f st event d =
      if d = s then (opening event (st d)).applyOwn
      else if f.reached st.waiting s d = true then ((st d).cache false).applyOwn
      else st d := by
  -- In both cases the surface is changed first, which leaves those below it as they are.
  have unfolded : next f st event = (st.modify s (opening event)).surfaceCommitApply f s := by
    cases event with
    | commit s' =>
      simp only [applies] at applied
      split at applied
      · cases applied
      · rename_i immediate
        obtain rfl := Option.some.inj applied
        simp only [next, surfaceCommit, if_neg immediate]
        rfl
    | setDesync s' =>
      simp only [applies] at applied
      split at applied
      · rename_i pending
        obtain rfl := Option.some.inj applied
        simp only [next, subsurfaceSetDesync, if_pos pending]
        simp [modify, opening]
      · cases applied
    | attach | damage | setBufferScale | frame | setSync => cases applied
  have same : ∀ e, f.depth s < f.depth e →
      TreeSurface.applyAction.ready (st.modify s (opening event) e) = st.waiting e := by
    intro e deeper
    have apart : e ≠ s := by
      rintro rfl
      omega
    simp [modify, apart, waiting, TreeSurface.applyAction]
  rw [unfolded, surfaceCommitApply, f.cascade_local, f.reached_congr same]
  by_cases here : d = s
  · subst here
    simp [modify, TreeSurface.applyAction]
  · simp [modify, here, TreeSurface.applyAction]

theorem Sound.modify (sound : Sound f st) {change : TreeSurface → TreeSurface}
    (kept : (change (st s)).Kept)
    (root : f.parent s = none → (change (st s)).cachePending = false) : Sound f (st.modify s change) where
  kept c := by
    by_cases here : c = s
    · subst here
      simpa [SurfaceTree.modify] using kept
    · simpa [SurfaceTree.modify, here] using sound.kept c
  root c top := by
    by_cases here : c = s
    · subst here
      simpa [SurfaceTree.modify] using root top
    · simpa [SurfaceTree.modify, here] using sound.root c top

theorem next_of_not_applies (nothing : st.applies f event = none) :
    next f st event = st.modify event.target (alone event) := by
  cases event with
  | attach | damage | setBufferScale | frame | setSync => rfl
  | commit s =>
    simp only [applies] at nothing
    split at nothing
    · rename_i cached
      simp only [next, surfaceCommit, if_pos cached]
      simp [modify, Event.target, alone]
    · cases nothing
  | setDesync s =>
    simp only [applies] at nothing
    split at nothing
    · cases nothing
    · rename_i idle
      simp only [next, subsurfaceSetDesync, if_neg idle]
      rfl

theorem Sound.next_of_not_applies (sound : Sound f st) (nothing : st.applies f event = none) :
    Sound f (next f st event) := by
  rw [SurfaceTree.next_of_not_applies nothing]
  have kept := sound.kept event.target
  have root := sound.root event.target
  cases event with
  | attach s buffer => exact sound.modify (kept.attach buffer) root
  | damage s r => exact sound.modify (kept.addDamage r) root
  | setBufferScale s scale =>
    refine sound.modify (kept.setBufferScale scale) fun top => ?_
    exact (TreeSurface.cachePending_setBufferScale _ scale).trans (root top)
  | frame s callback => exact sound.modify (kept.frame callback) root
  | setSync s => exact sound.modify kept.setSync root
  | commit s =>
    simp only [applies] at nothing
    split at nothing
    · rename_i cached
      refine sound.modify (kept.commitCached cached.2) fun top => ?_
      rw [show f.parent s = none from top] at cached
      exact absurd cached.1 Bool.false_ne_true
    · cases nothing
  | setDesync s =>
    simp only [applies] at nothing
    split at nothing
    · cases nothing
    · rename_i idle
      have free := Bool.eq_false_iff.mpr idle
      exact sound.modify (kept.setDesync free) fun _ => free

/-- Requests that meet the condition keep what holds of all surfaces. -/
theorem Sound.next (sound : Sound f st) (condition : Condition f st event) :
    Sound f (next f st event) := by
  cases applied : st.applies f event with
  | none => exact sound.next_of_not_applies applied
  | some s =>
    obtain ⟨_, own, below⟩ := condition s applied
    -- The surface that the request is about is brought up to date whatever the request is.
    have start : (opening event (st s)).applyOwn.Kept := by
      cases event with
      | commit s' =>
        simp only [applies] at applied
        split at applied
        · cases applied
        · rename_i immediate
          obtain rfl := Option.some.inj applied
          refine (sound.kept s').commitApplied ?_
          by_contra waits
          rw [Bool.not_eq_false] at waits
          have sync := ((sound.kept s').waiting waits).2
          cases up : f.parent s' with
          | none => exact absurd (sound.root s' up) (by simp [waits])
          | some p => exact immediate ⟨by simp [up], sync⟩
      | setDesync s' =>
        simp only [applies] at applied
        split at applied
        · rename_i pending
          obtain rfl := Option.some.inj applied
          exact (sound.kept s').applyCached pending (own rfl) false
        · cases applied
      | attach | damage | setBufferScale | frame | setSync => cases applied
    have top : f.parent s = none → (opening event (st s)).applyOwn.cachePending = false := by
      intro top
      cases event with
      | setDesync => rfl
      | commit | attach | damage | setBufferScale | frame | setSync => exact sound.root s top
    constructor
    · intro c
      rw [next_of_applies applied]
      split
      · rename_i here
        exact here ▸ start
      · split
        · rename_i reached
          have waits := f.ready_of_reached reached
          simp only [waiting, TreeSurface.waits, Bool.and_eq_true] at waits
          exact (sound.kept c).applyCached waits.2 (below c reached) (st c).sync
        · exact sound.kept c
    · intro c root
      rw [next_of_applies applied]
      split
      · rename_i here
        subst here
        exact top root
      · split
        · rfl
        · exact sound.root c root

theorem sync_next (applied : st.applies f event = some s) {d : α} (away : d ≠ s) :
    (next f st event d).sync = (st d).sync := by
  rw [next_of_applies applied, if_neg away]
  split <;> rfl

theorem free_of_commit (condition : Condition f st (.commit s))
    (applied : st.applies f (.commit s) = some s) : st.synced f s = false := by
  by_contra synced
  rw [Bool.not_eq_false] at synced
  obtain ⟨p, up, own | above⟩ := synced_iff.mp synced
  · simp [applies, up, own] at applied
  · have free := (condition s applied).1 p up
    exact absurd (free.symm.trans above) Bool.false_ne_true

theorem free_of_setDesync (condition : Condition f st (.setDesync s))
    (applied : st.applies f (.setDesync s) = some s) :
    (next f st (.setDesync s)).synced f s = false := by
  by_contra synced
  rw [Bool.not_eq_false] at synced
  obtain ⟨p, up, own | above⟩ := synced_iff.mp synced
  · rw [next_of_applies applied, if_pos rfl] at own
    exact absurd own Bool.false_ne_true
  · -- The modes above the surface are what they were.
    have lower := f.deeper up
    have same : (next f st (.setDesync s)).synced f p = st.synced f p := by
      refine synced_congr p fun d higher => sync_next applied ?_
      rintro rfl
      omega
    have free := (condition s applied).1 p up
    exact absurd (free.symm.trans (same.symm.trans above)) Bool.false_ne_true

/-- A synchronized surface changes only together with its ancestor. -/
theorem Condition.atomic (condition : Condition f st event) : Atomic f st event where
  only c synced changed := by
    cases applied : st.applies f event with
    | none =>
      rw [next_of_not_applies applied] at changed
      by_cases here : c = event.target
      · subst here
        simp [modify, current_alone] at changed
      · simp [modify, here] at changed
    | some s =>
      rw [next_of_applies applied] at changed
      refine ⟨s, ?_⟩
      obtain rfl | rfl := event_of_applies applied
      · have free := free_of_commit condition applied
        split at changed
        · rename_i here
          subst here
          exact absurd (free.symm.trans synced) Bool.false_ne_true
        · split at changed
          · rename_i reached
            refine .inl ⟨rfl, nearestFree_of_reached free (fun d _ waits => ?_) c reached⟩
            simp only [waiting, TreeSurface.waits, Bool.and_eq_true] at waits
            exact waits.1
          · exact absurd rfl changed
      · have free := free_of_setDesync condition applied
        refine .inr ⟨rfl, free, ?_⟩
        split at changed
        · rename_i here
          exact .inl here
        · split at changed
          · rename_i reached
            refine .inr (nearestFree_of_reached free (fun d deeper waits => ?_) c reached)
            have away : d ≠ s := by
              rintro rfl
              omega
            simp only [waiting, TreeSurface.waits, Bool.and_eq_true] at waits
            rw [sync_next applied away]
            exact waits.1
          · exact absurd rfl changed
  complete s applied c reached := by
    have deeper := f.depth_lt_of_reached c reached
    have away : c ≠ s := by
      rintro rfl
      omega
    rw [next_of_applies applied, if_neg away, if_pos reached]
    rfl
  damage c changed := by
    cases applied : st.applies f event with
    | none =>
      rw [next_of_not_applies applied] at changed
      by_cases here : c = event.target
      · subst here
        by_contra quiet
        refine changed ?_
        simp only [modify, Function.update_self]
        refine damage_alone (fun s r report => ?_) _
        subst report
        exact quiet ⟨r, rfl⟩
      · simp [modify, here] at changed
    | some s =>
      refine absurd ?_ changed
      rw [next_of_applies applied]
      split
      · cases event with
        | commit | setDesync | attach | damage | setBufferScale | frame | setSync => rfl
      · split <;> rfl

/--
Where every request meets the condition, commits of synchronized subsurfaces are atomic.

In every state reached, what is applied of each surface is its last commit, and once.
-/
theorem synchronized_commits_atomic (f : Forest α) {trace : List (Event α)} {st : SurfaceTree α}
    (run : ((machine f).restrict (Condition f)).Run trace st) :
    (∀ c, (st c).Settled) ∧ ∀ event, Condition f st event → Atomic f st event := by
  have sound : Sound f st := by
    refine run.invariant (fun _ st => Sound f st) ?_ ?_
    · rintro _ rfl
      exact sound_fresh f
    · intro _ st event sound allowed
      exact sound.next allowed.2
  exact ⟨fun c => (sound.kept c).toSettled, fun _ condition => condition.atomic⟩

local instance threeViews : NeZero 3 := ⟨by decide⟩

def nestedViews : Forest (Fin 3) where
  nodes := [2, 1, 0]
  parent
    | 0 => none
    | 1 => some 0
    | 2 => some 1
  depth c := c.val
  deeper {c p} up := by
    revert c p
    decide
  levels := 3
  within c := c.isLt
  listed {c p} up := by
    revert c p
    decide

def viewsInStep : List (Event (Fin 3)) :=
  [.attach 2 (some 5), .commit 2, .attach 1 (some 6), .frame 1 0, .commit 1, .commit 0]

def viewAhead : List (Event (Fin 3)) :=
  [.attach 1 (some 6), .commit 1, .attach 1 (some 7), .commit 0]

def innerDesync : List (Event (Fin 3)) :=
  [.setDesync 2, .attach 2 (some 5)]

instance (st : SurfaceTree (Fin 3)) (event : Event (Fin 3)) :
    Decidable ((machine nestedViews).enabled st event) := by
  unfold machine
  cases event <;> infer_instance

instance (st : SurfaceTree (Fin 3)) (event : Event (Fin 3)) :
    Decidable (((machine nestedViews).restrict (Condition nestedViews)).enabled st event) := by
  unfold Machine.restrict Condition
  infer_instance

theorem synchronized_commits_atomic_nested :
    let st := viewsInStep.foldl (next nestedViews) fun _ => {}
    (∀ c, (st c).Settled) ∧
      ∀ event, Condition nestedViews st event → Atomic nestedViews st event :=
  synchronized_commits_atomic nestedViews
    (Machine.Run.of_script (m := (machine nestedViews).restrict (Condition nestedViews)) rfl
      viewsInStep (by decide))

/--
Commits of synchronized subsurfaces are not always atomic.

What is requested behind a cached commit is applied with it.
A subsurface that is only synchronized by its parent is applied by its own commit.
-/
theorem not_synchronized_commits_atomic :
    (¬ ∀ (f : Forest (Fin 3)) (trace : List (Event (Fin 3))) (st : SurfaceTree (Fin 3)),
      (machine f).Run trace st → ∀ c, (st c).Settled) ∧
    ¬ ∀ (f : Forest (Fin 3)) (trace : List (Event (Fin 3))) (st : SurfaceTree (Fin 3)),
      (machine f).Run trace st → ∀ event, (machine f).enabled st event → Atomic f st event := by
  constructor
  · intro always
    have run : (machine nestedViews).Run _ _ := .of_script rfl viewAhead (by decide)
    have settled := always nestedViews _ _ run 1
    exact absurd (settled.latest (by decide)) (by decide)
  · intro always
    have run : (machine nestedViews).Run _ _ := .of_script rfl innerDesync (by decide)
    have atomic := always nestedViews _ _ run (.commit 2) trivial
    obtain ⟨s, ⟨own, nearest⟩ | ⟨other, _⟩⟩ := atomic.only 2 (by decide) (by decide)
    · cases own
      exact absurd nearest.depth_lt (Nat.lt_irrefl _)
    · cases other

end SurfaceTree

end Xios
