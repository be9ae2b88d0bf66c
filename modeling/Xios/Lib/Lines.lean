import Mathlib.Data.List.Basic

/-! Lines of a stream, and accumulators of a fixed size that start again whenever they are full. -/

namespace Lines

variable {β : Type*} [DecidableEq β]

/-- The lines that a text completes and the one that it leaves begun, after some of a line. -/
def splitFrom (ends : β) : List β → List β → List (List β) × List β
  | begun, [] => ([], begun)
  | begun, c :: text =>
    if c = ends then
      let later := splitFrom ends [] text
      (begun :: later.1, later.2)
    else splitFrom ends (begun ++ [c]) text

def completed (ends : β) (text : List β) : List (List β) :=
  (splitFrom ends [] text).1

def begun (ends : β) (text : List β) : List β :=
  (splitFrom ends [] text).2

theorem splitFrom_append (ends : β) (head text more : List β) :
    splitFrom ends head (text ++ more) =
      ((splitFrom ends head text).1 ++ (splitFrom ends (splitFrom ends head text).2 more).1,
        (splitFrom ends (splitFrom ends head text).2 more).2) := by
  induction text generalizing head with
  | nil => simp [splitFrom]
  | cons c text ih =>
    rw [List.cons_append, splitFrom, splitFrom]
    split
    · simp [ih]
    · exact ih _

variable {ends : β}

theorem splitFrom_of_notMem (head : List β) {text : List β} (inside : ends ∉ text) :
    splitFrom ends head text = ([], head ++ text) := by
  induction text generalizing head with
  | nil => simp [splitFrom]
  | cons c text ih =>
    obtain ⟨other, later⟩ : ends ≠ c ∧ ends ∉ text := by simpa using inside
    rw [splitFrom, if_neg (Ne.symm other), ih _ later, List.append_assoc, List.singleton_append]

variable {line : List β}

theorem splitFrom_line (inside : ends ∉ line) (text : List β) :
    splitFrom ends [] (line ++ ends :: text) =
      (line :: (splitFrom ends [] text).1, (splitFrom ends [] text).2) := by
  rw [splitFrom_append, splitFrom_of_notMem [] inside, splitFrom, if_pos rfl]
  rfl

theorem notMem_splitFrom {head : List β} (clean : ends ∉ head) (text : List β) :
    ends ∉ (splitFrom ends head text).2 := by
  induction text generalizing head with
  | nil => exact clean
  | cons c text ih =>
    rw [splitFrom]
    split
    · exact ih List.not_mem_nil
    · rename_i other
      exact ih (by simp [clean, Ne.symm other])

def kept (capacity : Nat) (line : List β) : List β :=
  line.drop (line.length / capacity * capacity)

def emptied (capacity : Nat) (held : List β) : List β :=
  if capacity ≤ held.length then [] else held

omit [DecidableEq β] in
variable {capacity : Nat}

omit [DecidableEq β] in
theorem kept_of_short (short : line.length < capacity) : kept capacity line = line := by
  simp [kept, Nat.div_eq_of_lt short]

omit [DecidableEq β] in
theorem length_emptied (positive : 0 < capacity) (held : List β) :
    (emptied capacity held).length < capacity := by
  unfold emptied
  split
  · exact positive
  · omega

omit [DecidableEq β] in
theorem kept_push (positive : 0 < capacity) (line : List β) (c : β) :
    kept capacity (line ++ [c]) = emptied capacity (kept capacity line ++ [c]) := by
  have divided := Nat.div_add_mod' line.length capacity
  have left := Nat.mod_lt line.length positive
  have size : (kept capacity line ++ [c]).length = line.length % capacity + 1 := by
    simp only [kept, List.length_append, List.length_drop, List.length_singleton]
    omega
  have drops : line.length / capacity * capacity ≤ line.length := Nat.div_mul_le_self _ _
  unfold emptied
  rw [size]
  by_cases full : capacity ≤ line.length % capacity + 1
  · -- The item fills the accumulator, so the line is a multiple of the capacity now.
    have whole : line.length + 1 = (line.length / capacity + 1) * capacity := by
      rw [Nat.succ_mul]
      omega
    rw [if_pos full, kept, List.length_append, List.length_singleton, whole,
      Nat.mul_div_cancel _ positive, ← whole]
    exact List.drop_eq_nil_of_le (by simp)
  · have same : (line.length + 1) / capacity = line.length / capacity := by
      apply Nat.div_eq_of_lt_le
      · omega
      · rw [Nat.succ_mul]
        omega
    rw [if_neg full, kept, List.length_append, List.length_singleton, same, kept,
      List.drop_append_of_le_length drops]

theorem splitFrom_kept (positive : 0 < capacity) (ends : β) {held : List β}
    (agree : emptied capacity held = kept capacity line) (piece : List β)
    (fits : held.length + piece.length ≤ capacity) :
    (splitFrom ends held piece).1 = (splitFrom ends line piece).1.map (kept capacity) ∧
      emptied capacity (splitFrom ends held piece).2 =
        kept capacity (splitFrom ends line piece).2 := by
  -- The induction is on the piece, and each item of it found room.
  induction piece generalizing held line with
  | nil => exact ⟨rfl, agree⟩
  | cons c piece ih =>
    have room : held.length < capacity := by
      simp only [List.length_cons] at fits
      omega
    rw [emptied, if_neg (by omega)] at agree
    rw [splitFrom, splitFrom]
    split
    · -- The line is complete, and the next one starts in an accumulator with nothing in it.
      have empty : emptied capacity ([] : List β) = kept capacity [] := by simp [emptied, kept]
      have next := ih empty (by simp only [List.length_cons, List.length_nil] at fits ⊢; omega)
      exact ⟨List.cons_eq_cons.mpr ⟨agree, next.1⟩, next.2⟩
    · apply ih
      · rw [kept_push positive, agree]
      · simp only [List.length_append, List.length_cons, List.length_nil] at fits ⊢
        omega

end Lines
