import Xios.Debs.Ar

/-! An archive that is taken apart and put together again is the same. -/

namespace Xios

namespace StampMinos

section

variable (u : PyText) (utf8 : Utf8)

/-- A member with a header that tells of it. -/
structure Member.WellFormed (m : Member) : Prop where
  length : m.hdr.length = 60
  named : memberName u utf8 m.hdr = some m.name
  -- The size is a decimal numeral with blanks after it.
  sized : ∃ digits : Bytes, digits ≠ [] ∧ (∀ d ∈ digits, 48 ≤ d ∧ d ≤ 57) ∧
    decimalValue (digits.map UInt8.toNat) = m.body.length ∧ sizeField m.hdr = ljust 10 digits

/-- Members that stand one after the other, with a line break after a body of odd size. -/
inductive AreMembers : Bytes → List Member → Prop
  | nil : AreMembers [] []
  | even {m : Member} {data : Bytes} {members : List Member} (wellFormed : m.WellFormed u utf8)
      (size : m.body.length % 2 = 0) (more : AreMembers data members) :
      AreMembers (m.hdr ++ m.body ++ data) (m :: members)
  | odd {m : Member} {data : Bytes} {members : List Member} (wellFormed : m.WellFormed u utf8)
      (size : m.body.length % 2 = 1) (more : AreMembers data members) :
      AreMembers (m.hdr ++ m.body ++ 10 :: data) (m :: members)

/-- An archive with some members. -/
def IsArchive (data : Bytes) (members : List Member) : Prop :=
  ∃ rest, data = magic ++ rest ∧ AreMembers u utf8 rest members

variable {u utf8}

theorem isSpace_digit {c : Nat} (digit : 48 ≤ c ∧ c ≤ 57) : u.isSpace c = false := by
  rw [u.space_ascii c (by omega)]
  simp
  omega

theorem memberSize_eq {hdr digits : Bytes} (nonempty : digits ≠ [])
    (digit : ∀ d ∈ digits, 48 ≤ d ∧ d ≤ 57) (field : sizeField hdr = ljust 10 digits) {n : Nat}
    (value : decimalValue (digits.map UInt8.toNat) = n) : memberSize u utf8 hdr = some n := by
  have digits' : ∀ c ∈ digits.map UInt8.toNat, 48 ≤ c ∧ c ≤ 57 := by
    intro c member
    obtain ⟨d, inside, rfl⟩ := List.mem_map.mp member
    have bounds := digit d inside
    simpa [UInt8.le_iff_toNat_le] using bounds
  have plain : ∀ b ∈ ljust 10 digits, b < 128 := by
    intro b member
    rcases List.mem_append.mp member with inside | blank
    · have bounds := digit b inside
      simp only [UInt8.le_iff_toNat_le, UInt8.lt_iff_toNat_lt] at bounds ⊢
      exact Nat.lt_of_le_of_lt bounds.2 (by decide)
    · rw [List.eq_of_mem_replicate blank]
      decide
  -- The blanks after the numeral are stripped before it is read.
  have stripped : u.strip ((ljust 10 digits).map UInt8.toNat) = digits.map UInt8.toNat := by
    unfold ljust
    rw [List.map_append, List.map_replicate]
    apply PyText.strip_append
    · exact fun c member => isSpace_digit (digits' c member)
    · intro c blank
      rw [List.eq_of_mem_replicate blank, u.space_ascii _ (by decide)]
      decide
  unfold memberSize
  rw [field, utf8.decode_ascii _ plain]
  dsimp only [Option.bind_eq_bind, Option.bind_some]
  rw [stripped, u.int_digits _ (by simpa using nonempty) digits', value]
  rfl

theorem Member.WellFormed.memberSize {m : Member} (wellFormed : m.WellFormed u utf8) :
    StampMinos.memberSize u utf8 m.hdr = some m.body.length := by
  obtain ⟨digits, nonempty, digit, value, field⟩ := wellFormed.sized
  exact memberSize_eq nonempty digit field value

theorem length_padding (body : Bytes) : (padding body).length = body.length % 2 := by
  unfold padding
  split
  · rename_i odd
    rw [odd]
    rfl
  · simp
    omega

theorem splitMembers_append {m : Member} (wellFormed : m.WellFormed u utf8) (data : Bytes) :
    splitMembers u utf8 (memberBytes m ++ data) =
      (splitMembers u utf8 data).map (m :: ·) := by
  have length := wellFormed.length
  have whole : memberBytes m ++ data = m.hdr ++ (m.body ++ (padding m.body ++ data)) := by
    unfold memberBytes
    rw [List.append_assoc, List.append_assoc]
  have header : (memberBytes m ++ data).take 60 = m.hdr := by
    rw [whole, List.take_left' length]
  have after : (memberBytes m ++ data).drop 60 = m.body ++ (padding m.body ++ data) := by
    rw [whole, List.drop_left' length]
  have rest : (memberBytes m ++ data).drop (60 + m.body.length + m.body.length % 2) = data := by
    rw [Nat.add_assoc, ← List.drop_drop, after, ← List.drop_drop, List.drop_left,
      List.drop_left' (length_padding m.body)]
  conv_lhs => unfold splitMembers
  rw [dif_neg (by rw [whole, List.length_append]; omega), header, after]
  dsimp only
  rw [wellFormed.memberSize, wellFormed.named]
  dsimp only [Option.bind_eq_bind, Option.bind_some]
  rw [rest, List.take_left]
  cases splitMembers u utf8 data <;> rfl

theorem splitMembers_flatMap {members : List Member}
    (wellFormed : ∀ m ∈ members, m.WellFormed u utf8) :
    splitMembers u utf8 (members.flatMap memberBytes) = some members := by
  induction members with
  | nil =>
    unfold splitMembers
    rfl
  | cons m members ih =>
    rw [List.forall_mem_cons] at wellFormed
    rw [List.flatMap_cons, splitMembers_append wellFormed.1, ih wellFormed.2]
    rfl

theorem arSplit_arBuild {members : List Member}
    (wellFormed : ∀ m ∈ members, m.WellFormed u utf8) :
    arSplit u utf8 (arBuild members) = some members := by
  have length : magic.length = 8 := by decide
  unfold arSplit arBuild
  rw [if_pos (List.take_left' length), List.drop_left' length, splitMembers_flatMap wellFormed]

/-- Archives are what is built of well-formed members. -/
theorem isArchive_iff {data : Bytes} {members : List Member} :
    IsArchive u utf8 data members ↔
      (∀ m ∈ members, m.WellFormed u utf8) ∧ data = arBuild members := by
  -- The induction is on the members that follow the magic string.
  have general : ∀ {rest}, AreMembers u utf8 rest members →
      (∀ m ∈ members, m.WellFormed u utf8) ∧ rest = members.flatMap memberBytes := by
    intro rest are
    induction are with
    | nil => simp
    | even wellFormed size more ih =>
      rw [List.forall_mem_cons, List.flatMap_cons, memberBytes, padding, if_neg (by omega),
        List.append_nil, ← ih.2]
      exact ⟨⟨wellFormed, ih.1⟩, rfl⟩
    | odd wellFormed size more ih =>
      rw [List.forall_mem_cons, List.flatMap_cons, memberBytes, padding, if_pos size, ← ih.2]
      exact ⟨⟨wellFormed, ih.1⟩, by simp⟩
  constructor
  · rintro ⟨rest, rfl, are⟩
    obtain ⟨wellFormed, rfl⟩ := general are
    exact ⟨wellFormed, rfl⟩
  · rintro ⟨wellFormed, rfl⟩
    refine ⟨_, rfl, ?_⟩
    clear general
    induction members with
    | nil => exact .nil
    | cons m members ih =>
      rw [List.forall_mem_cons] at wellFormed
      have more := ih wellFormed.2
      rw [List.flatMap_cons, memberBytes, padding]
      split
      · rename_i odd
        rw [List.append_assoc]
        exact .odd wellFormed.1 odd more
      · rename_i even
        rw [List.append_nil]
        exact .even wellFormed.1 (by omega) more

end

end StampMinos

end Xios
