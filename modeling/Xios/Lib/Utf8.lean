import Mathlib.Data.List.Basic

/-! Codes whose words can be told apart from any place in a text, and UTF-8 as one of them. -/

namespace Code

variable {α β : Type*} (enc : α → List β)

/-- A text in a code. -/
def encode (text : List α) : List β :=
  text.flatMap enc

@[simp] theorem encode_nil : encode enc [] = [] := rfl

@[simp] theorem encode_cons (a : α) (text : List α) :
    encode enc (a :: text) = enc a ++ encode enc text :=
  List.flatMap_cons

@[simp] theorem encode_append (before after : List α) :
    encode enc (before ++ after) = encode enc before ++ encode enc after :=
  List.flatMap_append

theorem exists_word {text : List α} {n : Nat} (inside : n < (encode enc text).length) :
    ∃ before a after, text = before ++ a :: after ∧ (encode enc before).length ≤ n ∧
      n < (encode enc before).length + (enc a).length := by
  -- The words are gone through one by one until the place is reached.
  induction text generalizing n with
  | nil => simp at inside
  | cons a text ih =>
    by_cases here : n < (enc a).length
    · exact ⟨[], a, text, rfl, Nat.zero_le _, by simpa using here⟩
    · rw [encode_cons, List.length_append] at inside
      obtain ⟨before, b, after, split, low, high⟩ := ih (n := n - (enc a).length) (by omega)
      refine ⟨a :: before, b, after, by rw [split]; rfl, ?_, ?_⟩
      · rw [encode_cons, List.length_append]
        omega
      · rw [encode_cons, List.length_append]
        omega

theorem getD_word (before : List α) (a : α) (after : List α) {i : Nat} (d : β)
    (inside : i < (enc a).length) :
    (encode enc (before ++ a :: after)).getD ((encode enc before).length + i) d =
      (enc a)[i] := by
  rw [encode_append, encode_cons, List.getD_eq_getElem?_getD,
    List.getElem?_append_right (Nat.le_add_right _ _), Nat.add_sub_cancel_left,
    List.getElem?_append_left inside, List.getElem?_eq_getElem inside, Option.getD_some]

end Code

namespace Utf8

/-- The bytes of a text. -/
abbrev encode (text : List Char) : List UInt8 :=
  Code.encode String.utf8EncodeChar text

/-- Bytes that encode some text. -/
def Valid (bytes : List UInt8) : Prop :=
  ∃ text, bytes = encode text

/-- A byte that does not begin a character. -/
abbrev Continuation (byte : UInt8) : Prop :=
  byte &&& 0xc0 = 0x80

theorem continuation_tail (byte : UInt8) : Continuation (byte &&& 0x3f ||| 0x80) := by
  have every : ∀ v : BitVec 8, (v &&& 0x3f#8 ||| 0x80#8) &&& 0xc0#8 = 0x80#8 := by decide
  exact UInt8.eq_of_toBitVec_eq (every byte.toBitVec)

theorem not_continuation {byte : UInt8} (lead : byte.toNat ≤ 127 ∨ 0xc0 ≤ byte.toNat) :
    ¬Continuation byte := by
  have every : ∀ v : BitVec 8, v.toNat ≤ 127 ∨ 0xc0 ≤ v.toNat → v &&& 0xc0#8 ≠ 0x80#8 := by decide
  exact fun same => every byte.toBitVec lead (congrArg UInt8.toBitVec same)

theorem mark_le (payload mark : UInt8) : mark.toNat ≤ (payload ||| mark).toNat := by
  rw [UInt8.toNat_or]
  exact Nat.right_le_or

theorem lead_cases (c : Char) (inside : 0 < (String.utf8EncodeChar c).length) :
    c.utf8Size = 1 ∧ (String.utf8EncodeChar c)[0].toNat = c.toNat ∧ c.toNat ≤ 127 ∨
      0xc0 ≤ (String.utf8EncodeChar c)[0].toNat := by
  rcases c.utf8Size_eq with size | size | size | size
  · left
    have small : c.toNat ≤ 127 := UInt32.le_iff_toNat_le.mp (Char.utf8Size_eq_one_iff.mp size)
    refine ⟨size, ?_, small⟩
    simp only [String.utf8EncodeChar_eq_singleton size, List.getElem_cons_zero]
    rw [UInt32.toNat_toUInt8]
    exact Nat.mod_eq_of_lt (show c.toNat < 256 by omega)
  · right
    simp only [String.utf8EncodeChar_eq_cons_cons size, List.getElem_cons_zero]
    exact mark_le _ 0xc0
  · right
    simp only [String.utf8EncodeChar_eq_cons_cons_cons size, List.getElem_cons_zero]
    exact Nat.le_trans (by decide) (mark_le _ 0xe0)
  · right
    simp only [String.utf8EncodeChar_eq_cons_cons_cons_cons size, List.getElem_cons_zero]
    exact Nat.le_trans (by decide) (mark_le _ 0xf0)

theorem continuation_iff (c : Char) {i : Nat} (inside : i < (String.utf8EncodeChar c).length) :
    Continuation (String.utf8EncodeChar c)[i] ↔ i ≠ 0 := by
  match i with
  | 0 =>
    have lead : (String.utf8EncodeChar c)[0].toNat ≤ 127 ∨
        0xc0 ≤ (String.utf8EncodeChar c)[0].toNat := by
      rcases lead_cases c inside with ⟨-, same, small⟩ | marked
      · exact .inl (same ▸ small)
      · exact .inr marked
    exact iff_of_false (not_continuation lead) fun positive => positive rfl
  | i + 1 =>
    refine iff_of_true ?_ (Nat.succ_ne_zero i)
    rw [String.length_utf8EncodeChar] at inside
    rcases c.utf8Size_eq with size | size | size | size
    · omega
    · obtain rfl : i = 0 := by omega
      simp only [String.utf8EncodeChar_eq_cons_cons size]
      exact continuation_tail _
    · simp only [String.utf8EncodeChar_eq_cons_cons_cons size]
      have later : i = 0 ∨ i = 1 := by omega
      rcases later with rfl | rfl
      · exact continuation_tail _
      · exact continuation_tail _
    · simp only [String.utf8EncodeChar_eq_cons_cons_cons_cons size]
      have later : i = 0 ∨ i = 1 ∨ i = 2 := by omega
      rcases later with rfl | rfl | rfl
      · exact continuation_tail _
      · exact continuation_tail _
      · exact continuation_tail _

theorem zero_mem_iff (c : Char) : 0 ∈ String.utf8EncodeChar c ↔ c = '\x00' := by
  constructor
  · intro zero
    obtain ⟨i, inside, here⟩ := List.getElem_of_mem zero
    -- A zero is no later byte, and as a first byte it is the number of its character.
    have first : i = 0 := by
      by_contra later
      have continued := (continuation_iff c inside).mpr later
      rw [here] at continued
      exact absurd continued (by decide)
    subst first
    rcases lead_cases c inside with ⟨-, same, -⟩ | marked
    · rw [here] at same
      exact Char.toNat_inj.mp same.symm
    · rw [here] at marked
      exact absurd marked (by decide)
  · rintro rfl
    decide

theorem takeWhile_encode (text : List Char) :
    (encode text).takeWhile (· ≠ 0) = encode (text.takeWhile (· ≠ '\x00')) := by
  induction text with
  | nil => rfl
  | cons c text ih =>
    show (String.utf8EncodeChar c ++ encode text).takeWhile (· ≠ 0) = _
    by_cases null : c = '\x00'
    · subst null
      rfl
    · have bytes : ∀ byte ∈ String.utf8EncodeChar c, decide (byte ≠ 0) = true := by
        intro byte member
        rw [decide_eq_true_eq]
        rintro rfl
        exact null ((zero_mem_iff c).mp member)
      rw [List.takeWhile_append_of_pos bytes, ih,
        List.takeWhile_cons_of_pos (by simpa using null)]
      exact (Code.encode_cons _ _ _).symm

end Utf8
