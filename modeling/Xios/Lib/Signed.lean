import Mathlib.Order.Defs.LinearOrder
import Mathlib.Data.Int.Order.Basic

/-! Results of signed machine arithmetic, which do not exist where they leave their range. -/

namespace Signed

/-- A number, if it lies between two bounds. -/
def within (low high v : Int) : Option Int :=
  if low ≤ v ∧ v ≤ high then some v else none

def int32 (v : Int) : Option Int :=
  within (-2147483648) 2147483647 v

def int64 (v : Int) : Option Int :=
  within (-9223372036854775808) 9223372036854775807 v

theorem within_of_fits {low high v : Int} (above : low ≤ v) (below : v ≤ high) :
    within low high v = some v :=
  if_pos ⟨above, below⟩

theorem within_eq_some {low high v r : Int} :
    within low high v = some r ↔ v = r ∧ low ≤ v ∧ v ≤ high := by
  unfold within
  split
  · rename_i fits
    simp [fits.1, fits.2]
  · rename_i outside
    simp only [reduceCtorEq, false_iff]
    rintro ⟨-, fits⟩
    exact outside fits

theorem int32_of_fits {v : Int} (above : -2147483648 ≤ v) (below : v ≤ 2147483647) :
    int32 v = some v :=
  within_of_fits above below

theorem int32_of_large {v : Int} (large : 2147483647 < v) : int32 v = none :=
  if_neg (by omega)

theorem int64_of_fits {v : Int} (above : -9223372036854775808 ≤ v)
    (below : v ≤ 9223372036854775807) : int64 v = some v :=
  within_of_fits above below

/-- The number fits into 32 bits. -/
def Fits32 (v : Int) : Prop :=
  -2147483648 ≤ v ∧ v ≤ 2147483647
  deriving Decidable

theorem fits32_toInt (v : Int32) : Fits32 v.toInt := by
  have below := v.toInt_lt
  exact ⟨v.le_toInt, by omega⟩

theorem int32_eq_some {v r : Int} : int32 v = some r ↔ v = r ∧ Fits32 v :=
  within_eq_some

theorem Fits32.of_mul {v c : Int} (positive : 0 < c) (fits : Fits32 (v * c)) : Fits32 v := by
  obtain ⟨above, below⟩ := fits
  rcases Int.le_total 0 v with least | most
  · have grows := Int.mul_le_mul_of_nonneg_left (by omega : 1 ≤ c) least
    constructor <;> omega
  · have falls := Int.mul_le_mul_of_nonneg_left (by omega : 1 ≤ c) (by omega : 0 ≤ -v)
    have turned : -v * c = -(v * c) := Int.neg_mul v c
    constructor <;> omega

end Signed
