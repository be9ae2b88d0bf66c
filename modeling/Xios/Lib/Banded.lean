import Mathlib.Data.List.DropRight
import Mathlib.Order.Lattice

/-! Lists kept in bands of equal keys, and the moves that keep them so. -/

open scoped List

namespace Banded

variable {α κ : Type*} [LinearOrder κ]

/-- The keys never go down along the list. -/
def Sorted (key : α → κ) (l : List α) : Prop :=
  l.Pairwise fun a b => key a ≤ key b

def insert (key : α → κ) (a : α) (l : List α) : List α :=
  l.takeWhile (fun b => key b ≤ key a) ++ a :: l.dropWhile (fun b => key b ≤ key a)

def before [DecidableEq α] (a : α) (l : List α) : List α :=
  l.takeWhile (· ≠ a)

def after [DecidableEq α] (a : α) (l : List α) : List α :=
  (l.dropWhile (· ≠ a)).tail

def raise [DecidableEq α] (key : α → κ) (a : α) (l : List α) : List α :=
  if a ∈ l then before a l ++ insert key a (after a l) else l

def lower [DecidableEq α] (key : α → κ) (a : α) (l : List α) : List α :=
  if a ∈ l then
    (before a l).rdropWhile (fun b => key a ≤ key b) ++
      a :: (before a l).rtakeWhile (fun b => key a ≤ key b) ++ after a l
  else l

theorem insert_perm (key : α → κ) (a : α) (l : List α) : (insert key a l).Perm (a :: l) := by
  unfold insert
  have split := List.takeWhile_append_dropWhile (p := fun b => key b ≤ key a) (l := l)
  calc _ ~ a :: (l.takeWhile (fun b => key b ≤ key a) ++ l.dropWhile fun b => key b ≤ key a) :=
        List.perm_middle
    _ = a :: l := by rw [split]

theorem Sorted.dropWhile_gt {key : α → κ} {l : List α} (sorted : Sorted key l) (bound : κ) {b : α}
    (member : b ∈ l.dropWhile (fun c => key c ≤ bound)) : bound < key b := by
  induction l with
  | nil => cases member
  | cons c rest ih =>
    obtain ⟨least, ordered⟩ := List.pairwise_cons.mp sorted
    by_cases small : key c ≤ bound
    · rw [List.dropWhile_cons_of_pos (by simpa using small)] at member
      exact ih ordered member
    · rw [List.dropWhile_cons_of_neg (by simpa using small)] at member
      rcases List.mem_cons.mp member with same | later
      · rw [same]
        exact not_le.mp small
      · exact (not_le.mp small).trans_le (least b later)

theorem Sorted.insert {key : α → κ} {l : List α} (sorted : Sorted key l) (a : α) :
    Sorted key (insert key a l) := by
  have split := List.takeWhile_append_dropWhile (p := fun b => key b ≤ key a) (l := l)
  have parts : Sorted key (l.takeWhile (fun b => key b ≤ key a) ++
      l.dropWhile fun b => key b ≤ key a) := by rwa [split]
  obtain ⟨low, high, across⟩ := List.pairwise_append.mp parts
  refine List.pairwise_append.mpr ⟨low, List.pairwise_cons.mpr ⟨?_, high⟩, ?_⟩
  · intro b member
    exact (sorted.dropWhile_gt _ member).le
  · intro b small c member
    rcases List.mem_cons.mp member with same | later
    · rw [same]
      simpa using List.mem_takeWhile_imp small
    · exact across b small c later

/-- One element comes before another one. -/
def Before (l : List α) (a b : α) : Prop :=
  [a, b] <+ l

theorem before_filter {p : α → Bool} {l : List α} {a b : α} (first : p a) (second : p b) :
    Before (l.filter p) a b ↔ Before l a b := by
  constructor
  · intro ordered
    exact List.Sublist.trans ordered List.filter_sublist
  · intro ordered
    have kept := List.Sublist.filter p ordered
    rwa [List.filter_cons_of_pos first, List.filter_cons_of_pos second, List.filter_nil] at kept

theorem Before.asymm {l : List α} (once : l.Nodup) {a b : α} (ordered : Before l a b) :
    ¬Before l b a := by
  induction l with
  | nil => cases ordered
  | cons c rest ih =>
    obtain ⟨fresh, once⟩ := List.nodup_cons.mp once
    intro reversed
    cases ordered with
    | cons _ later =>
      cases reversed with
      | cons _ other => exact ih once later other
      | cons_cons _ other => exact fresh (later.subset (by simp))
    | cons_cons _ later =>
      cases reversed with
      | cons _ other => exact fresh (other.subset (by simp))
      | cons_cons _ other => exact fresh (List.singleton_sublist.mp other)

section Moves

variable [DecidableEq α]

instance (l : List α) (a b : α) : Decidable (Before l a b) :=
  inferInstanceAs (Decidable ([a, b] <+ l))

variable {a : α} {l : List α}

theorem before_append_after (member : a ∈ l) : before a l ++ a :: after a l = l := by
  induction l with
  | nil => cases member
  | cons b rest ih =>
    by_cases same : b = a
    · simp [before, after, same]
    · have later : a ∈ rest := by
        rcases List.mem_cons.mp member with first | later
        · exact absurd first.symm same
        · exact later
      have tail := ih later
      simp only [before, after] at tail ⊢
      rw [List.takeWhile_cons_of_pos (by simpa using same),
        List.dropWhile_cons_of_pos (by simpa using same), List.cons_append, tail]

theorem raise_perm (key : α → κ) (a : α) (l : List α) : (raise key a l).Perm l := by
  unfold raise
  split
  · rename_i member
    have moved := (insert_perm key a (after a l)).append_left (before a l)
    rwa [before_append_after member] at moved
  · exact .refl l

variable {key : α → κ}

theorem Sorted.raise (sorted : Sorted key l) (a : α) : Sorted key (raise key a l) := by
  unfold Banded.raise
  split
  · rename_i member
    have parts : Sorted key (before a l ++ a :: after a l) := by rwa [before_append_after member]
    obtain ⟨low, high, across⟩ := List.pairwise_append.mp parts
    have rest : Sorted key (after a l) := (List.pairwise_cons.mp high).2
    refine List.pairwise_append.mpr ⟨low, rest.insert a, ?_⟩
    -- What was before the element stays before the same elements.
    intro b earlier c moved
    exact across b earlier c ((insert_perm key a (after a l)).mem_iff.mp moved)
  · exact sorted

theorem lower_perm (key : α → κ) (a : α) (l : List α) : (lower key a l).Perm l := by
  unfold lower
  split
  · rename_i member
    have split := List.rdropWhile_append_rtakeWhile (p := fun b => decide (key a ≤ key b))
      (l := before a l)
    rw [List.append_assoc, List.cons_append]
    calc _ ~ a :: ((before a l).rdropWhile (fun b => key a ≤ key b) ++
          ((before a l).rtakeWhile (fun b => key a ≤ key b) ++ after a l)) := List.perm_middle
      _ = a :: (before a l ++ after a l) := by rw [← List.append_assoc, split]
      _ ~ before a l ++ a :: after a l := List.perm_middle.symm
      _ = l := before_append_after member
  · exact .refl l

theorem Sorted.lower (sorted : Sorted key l) (a : α) : Sorted key (lower key a l) := by
  unfold Banded.lower
  split
  · rename_i member
    have split := List.rdropWhile_append_rtakeWhile (p := fun b => decide (key a ≤ key b))
      (l := before a l)
    have parts : Sorted key (before a l ++ a :: after a l) := by rwa [before_append_after member]
    obtain ⟨low, high, across⟩ := List.pairwise_append.mp parts
    obtain ⟨least, rest⟩ := List.pairwise_cons.mp high
    have halves : Sorted key ((before a l).rdropWhile (fun b => key a ≤ key b) ++
        (before a l).rtakeWhile fun b => key a ≤ key b) := by rwa [split]
    obtain ⟨kept, passed, between⟩ := List.pairwise_append.mp halves
    -- Every part of the new list lies within the old one, except that the element comes earlier.
    have inBefore : ∀ b ∈ (before a l).rdropWhile (fun b => key a ≤ key b), b ∈ before a l :=
      fun b here => split ▸ List.mem_append_left _ here
    have passedBefore : ∀ b ∈ (before a l).rtakeWhile (fun b => key a ≤ key b), b ∈ before a l :=
      fun b here => split ▸ List.mem_append_right _ here
    rw [List.append_assoc, List.cons_append]
    refine List.pairwise_append.mpr ⟨kept, List.pairwise_cons.mpr ⟨?_, ?_⟩, ?_⟩
    · intro b moved
      rcases List.mem_append.mp moved with here | later
      · simpa using List.mem_rtakeWhile_imp here
      · exact least b later
    · refine List.pairwise_append.mpr ⟨passed, rest, ?_⟩
      intro b here c later
      exact across b (passedBefore b here) c (List.mem_cons_of_mem _ later)
    · intro b here c moved
      rcases List.mem_cons.mp moved with same | other
      · exact across b (inBefore b here) c (same ▸ List.mem_cons_self)
      · rcases List.mem_append.mp other with near | later
        · exact between b here c near
        · exact across b (inBefore b here) c (List.mem_cons_of_mem _ later)
  · exact sorted

theorem raise_filter {p : α → Bool} (other : p a = false) (l : List α) :
    (raise key a l).filter p = l.filter p := by
  unfold raise
  split
  · rename_i member
    have split := List.takeWhile_append_dropWhile (p := fun b => key b ≤ key a) (l := after a l)
    have skipped : ∀ rest : List α, (a :: rest).filter p = rest.filter p :=
      fun rest => List.filter_cons_of_neg (by simp [other])
    calc (before a l ++ insert key a (after a l)).filter p
        = (before a l ++ after a l).filter p := by
          rw [insert, List.filter_append, List.filter_append, skipped, ← List.filter_append, split,
            ← List.filter_append]
      _ = (before a l ++ a :: after a l).filter p := by
          rw [List.filter_append, List.filter_append, skipped]
      _ = l.filter p := by rw [before_append_after member]
  · rfl

variable {b : α}

theorem Sorted.raise_last (sorted : Sorted key l) (member : a ∈ l) (other : b ∈ l) (apart : b ≠ a)
    (band : key b = key a) : Before (Banded.raise key a l) b a := by
  have parts := before_append_after member
  have rest : Sorted key (after a l) := by
    rw [← parts] at sorted
    exact (List.pairwise_cons.mp (List.pairwise_append.mp sorted).2.1).2
  -- The element is put behind both what was before it and what followed in its band.
  have passed : b ∈ before a l ++ (after a l).takeWhile (fun c => key c ≤ key a) := by
    rw [← parts] at other
    rcases List.mem_append.mp other with early | late
    · exact List.mem_append_left _ early
    · have late := (List.mem_cons.mp late).resolve_left apart
      rw [← List.takeWhile_append_dropWhile (p := fun c => key c ≤ key a) (l := after a l)] at late
      rcases List.mem_append.mp late with here | beyond
      · exact List.mem_append_right _ here
      · exact absurd (rest.dropWhile_gt _ beyond) (by simp [band])
  have raised : Banded.raise key a l =
      (before a l ++ (after a l).takeWhile (fun c => key c ≤ key a)) ++
        (a :: (after a l).dropWhile (fun c => key c ≤ key a)) := by
    rw [Banded.raise, if_pos member, Banded.insert, List.append_assoc]
  rw [raised]
  exact (List.singleton_sublist.mpr passed).append (List.singleton_sublist.mpr List.mem_cons_self)

/-- Move elements to the end of their bands, one after the other. -/
def raiseAll (key : α → κ) (moved l : List α) : List α :=
  moved.foldl (fun l a => raise key a l) l

theorem raiseAll_perm (key : α → κ) (moved l : List α) : (raiseAll key moved l).Perm l := by
  induction moved generalizing l with
  | nil => exact .refl l
  | cons a rest ih => exact (ih (raise key a l)).trans (raise_perm key a l)

theorem Sorted.raiseAll (sorted : Sorted key l) (moved : List α) :
    Sorted key (raiseAll key moved l) := by
  induction moved generalizing l with
  | nil => exact sorted
  | cons a rest ih => exact ih (sorted.raise a)

variable {moved : List α}

theorem raiseAll_before (first : a ∉ moved) (second : b ∉ moved) :
    Before (raiseAll key moved l) a b ↔ Before l a b := by
  induction moved generalizing l with
  | nil => exact Iff.rfl
  | cons c rest ih =>
    have others : a ≠ c ∧ b ≠ c := ⟨fun same => first (same ▸ List.mem_cons_self),
      fun same => second (same ▸ List.mem_cons_self)⟩
    -- Without the element that is raised, the list stays as it is.
    have step : Before (Banded.raise key c l) a b ↔ Before l a b := by
      rw [← before_filter (p := (· ≠ c)) (by simp [others.1]) (by simp [others.2]),
        raise_filter (by simp), before_filter (by simp [others.1]) (by simp [others.2])]
    have later := ih (l := Banded.raise key c l)
      (fun member => first (List.mem_cons_of_mem c member))
      (fun member => second (List.mem_cons_of_mem c member))
    exact later.trans step

theorem Sorted.raiseAll_last (sorted : Sorted key l) (raised : a ∈ moved) (kept : b ∉ moved)
    (member : a ∈ l) (other : b ∈ l) (band : key b = key a) :
    Before (Banded.raiseAll key moved l) b a := by
  induction moved generalizing l with
  | nil => cases raised
  | cons c rest ih =>
    have perm := raise_perm key c l
    have apart : b ≠ a := fun same => kept (same ▸ raised)
    by_cases later : a ∈ rest
    · exact ih (sorted.raise c) later (fun member => kept (List.mem_cons_of_mem c member))
        (perm.mem_iff.mpr member) (perm.mem_iff.mpr other)
    · -- The element is raised now, and not again.
      have now : a = c := (List.mem_cons.mp raised).resolve_right later
      have first := sorted.raise_last member other apart band
      rw [← now]
      exact (raiseAll_before (fun member => kept (List.mem_cons_of_mem c member)) later).mpr first

theorem Sorted.raiseAll_order (sorted : Sorted key l) (once : moved.Nodup)
    (ordered : Before moved a b) (member : a ∈ l) (other : b ∈ l) (band : key a = key b) :
    Before (Banded.raiseAll key moved l) a b := by
  induction moved generalizing l with
  | nil => cases ordered
  | cons c rest ih =>
    have perm := raise_perm key c l
    obtain ⟨fresh, once⟩ := List.nodup_cons.mp once
    cases ordered with
    | cons _ later =>
      exact ih (sorted.raise c) once later (perm.mem_iff.mpr member) (perm.mem_iff.mpr other)
    | cons_cons _ later =>
      exact (sorted.raise a).raiseAll_last (List.singleton_sublist.mp later) fresh
        (perm.mem_iff.mpr other) (perm.mem_iff.mpr member) band

end Moves

end Banded
