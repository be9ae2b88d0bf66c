import Mathlib.Data.Nat.Bitwise
import Xios.Macho.Runs

/-! The bits that are set where something is made weak, and those that stay. -/

namespace Xios

namespace MachoWeaken

theorem shiftRight_and_one (v b : Nat) : (v >>> b) &&& 0x1 = (v.testBit b).toNat := by
  rw [Nat.and_one_is_mod, Nat.shiftRight_eq_div_pow, Nat.toNat_testBit]

theorem or_eq_self {v b : Nat} (set : v.testBit b = true) : v ||| (1 <<< b) = v := by
  apply Nat.eq_of_testBit_eq
  intro k
  rw [Nat.testBit_or, Nat.one_shiftLeft, Nat.testBit_two_pow]
  by_cases same : b = k
  · rw [← same, set, Bool.true_or]
  · rw [decide_eq_false same, Bool.or_false]

theorem importFormat_cases {P : ImportFormat → Prop} (format : Nat)
    (narrow : ∀ stride, P ⟨stride, 4, 0xFF, 8, 9, 0x7FFFFF⟩)
    (wide : P ⟨16, 8, 0xFFFF, 16, 32, 0xFFFFFFFF⟩) : P (importFormat format) := by
  unfold importFormat
  split
  · exact narrow _
  · exact wide

theorem weak_eq (f : ImportFormat) (v : Nat) : f.weak v = (v.testBit f.weakBit).toNat :=
  shiftRight_and_one v f.weakBit

theorem weak_weaken (f : ImportFormat) (v : Nat) : f.weak (f.weaken v) ≠ 0 := by
  rw [weak_eq]
  unfold ImportFormat.weaken
  rw [Nat.testBit_or, Nat.one_shiftLeft, Nat.testBit_two_pow_self, Bool.or_true]
  decide

theorem weaken_eq_self {f : ImportFormat} {v : Nat} (weak : f.weak v ≠ 0) : f.weaken v = v := by
  rw [weak_eq] at weak
  apply or_eq_self
  cases set : v.testBit f.weakBit with
  | true => rfl
  | false =>
    rw [set] at weak
    exact absurd rfl weak

theorem nameOff_weaken (format v : Nat) :
    (importFormat format).nameOff ((importFormat format).weaken v) =
      (importFormat format).nameOff v := by
  have high : ∀ b k : Nat, b < k → (v ||| (1 <<< b)) >>> k = v >>> k := by
    intro b k above
    rw [Nat.shiftRight_or_distrib, Nat.one_shiftLeft, Nat.shiftRight_eq_div_pow (2 ^ b),
      Nat.div_eq_of_lt (Nat.pow_lt_pow_right (by decide) above), Nat.or_zero]
  apply importFormat_cases (P := fun f => f.nameOff (f.weaken v) = f.nameOff v) format
  · intro _
    unfold ImportFormat.nameOff ImportFormat.weaken
    rw [high 8 9 (by decide)]
  · unfold ImportFormat.nameOff ImportFormat.weaken
    rw [high 16 32 (by decide)]

theorem weaken_lt {format v : Nat} (fits : v < 256 ^ (importFormat format).width) :
    (importFormat format).weaken v < 256 ^ (importFormat format).width := by
  revert fits
  apply importFormat_cases (P := fun f => v < 256 ^ f.width → f.weaken v < 256 ^ f.width) format
  · intro _ fits
    have bit : 1 <<< 8 < 2 ^ 32 := by decide
    exact Nat.or_lt_two_pow fits bit
  · intro fits
    have bit : 1 <<< 16 < 2 ^ 64 := by decide
    exact Nat.or_lt_two_pow fits bit

theorem and_nWeakRef (desc : Nat) : desc &&& nWeakRef = (desc.testBit 6).toNat * 64 :=
  Nat.and_two_pow desc 6

theorem or_nWeakRef_eq_self {desc : Nat} (marked : desc &&& nWeakRef ≠ 0) :
    desc ||| nWeakRef = desc := by
  apply or_eq_self (b := 6)
  cases set : desc.testBit 6 with
  | true => rfl
  | false =>
    rw [and_nWeakRef, set] at marked
    exact absurd rfl marked

theorem and_nWeakRef_ne_zero {desc : Nat} (same : desc ||| nWeakRef = desc) :
    desc &&& nWeakRef ≠ 0 := by
  have set : desc.testBit 6 = true := by
    rw [← same, Nat.testBit_or]
    have own : nWeakRef.testBit 6 = true := by decide
    rw [own, Bool.or_true]
  rw [and_nWeakRef, set]
  decide

theorem or_nWeakRef_lt {desc : Nat} (fits : desc < 256 ^ 2) : desc ||| nWeakRef < 256 ^ 2 :=
  Nat.or_lt_two_pow (n := 16) fits (by decide)

end MachoWeaken

end Xios
