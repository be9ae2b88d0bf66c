import Mathlib.Data.BitVec

/-! Machine words used as sets of small numbers: testing, adding and removing one member. -/

namespace Mask

variable {w : Nat}

/-- Membership of a small number in the set a word stands for. -/
def has (mask : BitVec w) (i : Nat) : Bool :=
  mask.getLsbD i

def bit (w i : Nat) : BitVec w :=
  1#w <<< i

@[simp] theorem has_bit (i j : Nat) : has (bit w i) j = (decide (j < w) && decide (j = i)) := by
  -- Shifting the lowest bit leaves exactly one position set, if it is still inside the word.
  by_cases same : j = i
  · subst same
    by_cases inside : j < w
    · simp only [has, bit, BitVec.getLsbD_shiftLeft, inside]
      simp [show 0 < w by omega]
    · simp [has, bit, BitVec.getLsbD_shiftLeft, inside]
  · by_cases below : j < i
    · simp [has, bit, BitVec.getLsbD_shiftLeft, below, same]
    · have apart : j - i ≠ 0 := by omega
      simp [has, bit, BitVec.getLsbD_shiftLeft, same, apart]

@[simp] theorem has_zero (i : Nat) : has (0#w) i = false :=
  BitVec.getLsbD_zero

@[simp] theorem has_and (left right : BitVec w) (i : Nat) :
    has (left &&& right) i = (has left i && has right i) :=
  BitVec.getLsbD_and

@[simp] theorem has_or (left right : BitVec w) (i : Nat) :
    has (left ||| right) i = (has left i || has right i) :=
  BitVec.getLsbD_or

theorem has_of_ge (mask : BitVec w) {i : Nat} (outside : w ≤ i) : has mask i = false :=
  BitVec.getLsbD_of_ge mask i outside

theorem eq_zero_iff {mask : BitVec w} : mask = 0#w ↔ ∀ i < w, has mask i = false := by
  constructor
  · rintro rfl i _
    exact has_zero i
  · intro absent
    exact BitVec.eq_of_getLsbD_eq fun i inside => by
      simpa only [has, BitVec.getLsbD_zero] using absent i inside

theorem and_bit_eq_zero_iff {mask : BitVec w} {i : Nat} (inside : i < w) :
    mask &&& bit w i = 0#w ↔ has mask i = false := by
  rw [eq_zero_iff]
  constructor
  · intro disjoint
    simpa [inside] using disjoint i inside
  · intro absent j bounded
    by_cases same : j = i
    · subst same; simp [absent]
    · simp [same]

@[simp high] theorem has_erase (mask : BitVec w) (i j : Nat) :
    has (mask &&& ~~~bit w i) j = (has mask j && !decide (j = i)) := by
  -- Positions outside the word are absent on both sides.
  by_cases inside : j < w
  · have complement : has (~~~bit w i) j = !has (bit w i) j := by
      simp only [has, BitVec.getLsbD_not, inside, decide_true, Bool.true_and]
    simp [complement, inside]
  · simp [has_of_ge mask (by omega : w ≤ j)]

end Mask
