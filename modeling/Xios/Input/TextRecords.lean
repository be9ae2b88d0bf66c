import Xios.Input.SenderLaws
import Xios.Lib.Utf8

/-! Text goes to the compositor in records that hold whole code points. -/

namespace Xios

open Utf8

namespace IoscInput

/-- The text loop, run to its end, whatever number of rounds it takes. -/
inductive TextRuns : IoscInput → List UInt8 → List SenderAnswer → IoscInput → Prop where
  -- The text is out, or the connection is gone.
  | finished {h : IoscInput} {utf8 : List UInt8} {answers : List SenderAnswer}
      (ended : utf8 = [] ∨ h.isOpen = false) : TextRuns h utf8 answers h
  -- There is no code point to be cut at.
  | stuck {h : IoscInput} {utf8 : List UInt8} {answers : List SenderAnswer}
      (going : ¬(utf8 = [] ∨ h.isOpen = false)) (uncut : chunkLength utf8 = 0) :
      TextRuns h utf8 answers h
  -- No more can wait.
  | full {h : IoscInput} {utf8 : List UInt8} {answers : List SenderAnswer}
      (going : ¬(utf8 = [] ∨ h.isOpen = false)) (cut : chunkLength utf8 ≠ 0)
      (overflow : outqMax < h.outqLen + msgSize + chunkLength utf8) : TextRuns h utf8 answers h
  -- One more record goes out.
  | record {h after : IoscInput} {utf8 : List UInt8} {answers : List SenderAnswer}
      (going : ¬(utf8 = [] ∨ h.isOpen = false)) (cut : chunkLength utf8 ≠ 0)
      (room : ¬outqMax < h.outqLen + msgSize + chunkLength utf8)
      (later : TextRuns
        (h.sendRecord ⟨textMsg (chunkLength utf8), utf8.take (chunkLength utf8)⟩
          (answers.headD {}))
        (utf8.drop (chunkLength utf8)) answers.tail after) : TextRuns h utf8 answers after

theorem textRuns_textLoop {fuel : Nat} (h : IoscInput) {utf8 : List UInt8}
    (answers : List SenderAnswer) (enough : utf8.length ≤ fuel) :
    TextRuns h utf8 answers (textLoop fuel h utf8 answers) := by
  induction fuel generalizing h utf8 answers with
  | zero =>
    have empty : utf8 = [] := List.eq_nil_of_length_eq_zero (by omega)
    exact .finished (.inl empty)
  | succ fuel ih =>
    unfold textLoop
    split
    · rename_i ended
      exact .finished ended
    rename_i going
    dsimp only
    split
    · rename_i uncut
      exact .stuck going uncut
    rename_i cut
    split
    · rename_i overflow
      exact .full going cut overflow
    · -- A record shortens what is left.
      rename_i room
      exact .record going cut room (ih _ _ (by rw [List.length_drop]; omega))

theorem backOff_eq {utf8 : List UInt8} {start len : Nat} (before : start ≤ len)
    (first : start = 0 ∨ ¬Continuation (utf8.getD start 0))
    (inside : ∀ i, start < i → i ≤ len → Continuation (utf8.getD i 0)) :
    backOff utf8 len = start := by
  induction len with
  | zero => exact (Nat.le_zero.mp before).symm
  | succ len ih =>
    unfold backOff
    by_cases here : start = len + 1
    · -- The last place is one to cut at.
      subst here
      rw [if_neg (first.resolve_left (Nat.succ_ne_zero len))]
    · rw [if_pos (inside (len + 1) (by omega) (Nat.le_refl _))]
      exact ih (by omega) fun i after limit => inside i after (by omega)

theorem backOff_encode {text : List Char} {len : Nat} (short : len < (encode text).length) :
    ∃ before after, text = before ++ after ∧ backOff (encode text) len = (encode before).length ∧
      len < (encode before).length + 4 := by
  obtain ⟨before, c, after, split, low, high⟩ := Code.exists_word _ short
  refine ⟨before, c :: after, split, ?_, ?_⟩
  · rw [split]
    apply backOff_eq low
    · right
      -- The code point itself begins with a byte that continues none.
      have positive : 0 < (String.utf8EncodeChar c).length := by
        rw [String.length_utf8EncodeChar]
        exact c.utf8Size_pos
      have place := Code.getD_word String.utf8EncodeChar before c after 0 positive
      rw [Nat.add_zero] at place
      rw [place]
      exact fun continued => (continuation_iff c positive).mp continued rfl
    · intro i later limit
      obtain ⟨k, rfl⟩ := Nat.exists_eq_add_of_lt later
      have place := Code.getD_word String.utf8EncodeChar before c after (i := k + 1) 0 (by omega)
      rw [show (Code.encode String.utf8EncodeChar before).length + k + 1 =
        (Code.encode String.utf8EncodeChar before).length + (k + 1) by omega, place]
      exact (continuation_iff c (by omega)).mpr (Nat.succ_ne_zero k)
  · have size := c.utf8Size_le_four
    rw [String.length_utf8EncodeChar] at high
    exact Nat.lt_of_lt_of_le high (Nat.add_le_add_left size _)

theorem chunkLength_encode {text : List Char} (some : text ≠ []) :
    ∃ before after, text = before ++ after ∧ chunkLength (encode text) = (encode before).length ∧
      1 ≤ chunkLength (encode text) := by
  unfold chunkLength
  split
  · rename_i long
    obtain ⟨before, after, split, cut, near⟩ := backOff_encode long
    refine ⟨before, after, split, cut, ?_⟩
    -- At most three bytes are given up.
    have chunk : textChunk = 4096 := rfl
    omega
  · refine ⟨text, [], (List.append_nil _).symm, rfl, ?_⟩
    obtain ⟨c, rest, rfl⟩ := List.exists_cons_of_ne_nil some
    have size := c.utf8Size_pos
    show 1 ≤ (String.utf8EncodeChar c ++ encode rest).length
    rw [List.length_append, String.length_utf8EncodeChar]
    omega

/-- A record with a text of its own, as long as it says and not too long. -/
structure TextRecord (r : SenderRecord) : Prop where
  -- It is a text record of valid text.
  type : r.msg.type = inText
  valid : Valid r.payload
  -- The text is neither empty nor longer than a record may be.
  some : 1 ≤ r.payload.length
  small : r.payload.length ≤ textChunk
  -- The header states the length twice.
  length : r.msg.length.toNat = r.payload.length
  code : r.msg.inputCode.toNat = r.payload.length

/-- What has become of a text when the loop has ended. -/
structure TextSent (h after : IoscInput) (utf8 : List UInt8) (records : List SenderRecord) :
    Prop where
  -- The records come after those before.
  sent : after.sent = h.sent ++ records
  each : ∀ r ∈ records, TextRecord r
  -- They carry the front of the text, and all of it unless something is in the way.
  front : (records.map SenderRecord.payload).flatten <+: utf8
  whole : (records.map SenderRecord.payload).flatten = utf8 ∨ after.isOpen = false ∨
    outqMax < after.outqLen + msgSize +
      chunkLength (utf8.drop (records.map SenderRecord.payload).flatten.length)

theorem textRecord_take {utf8 : List UInt8} {before : List Char}
    (cut : utf8.take (chunkLength utf8) = encode before) (some : 1 ≤ chunkLength utf8) :
    TextRecord ⟨textMsg (chunkLength utf8), utf8.take (chunkLength utf8)⟩ := by
  obtain ⟨short, small⟩ := chunkLength_le utf8
  have size : (utf8.take (chunkLength utf8)).length = chunkLength utf8 := by
    rw [List.length_take]
    omega
  have chunk : textChunk = 4096 := rfl
  have number : (BitVec.ofNat 32 (chunkLength utf8)).toNat = chunkLength utf8 := by
    rw [BitVec.toNat_ofNat]
    exact Nat.mod_eq_of_lt (by omega)
  refine ⟨rfl, ⟨before, cut⟩, ?_, ?_, number.trans size.symm, number.trans size.symm⟩
  · show 1 ≤ (utf8.take (chunkLength utf8)).length
    omega
  · show (utf8.take (chunkLength utf8)).length ≤ textChunk
    omega

theorem TextRuns.sent {h after : IoscInput} {utf8 : List UInt8} {answers : List SenderAnswer}
    (runs : TextRuns h utf8 answers after) (valid : Valid utf8) :
    ∃ records, TextSent h after utf8 records := by
  -- The induction is on the rounds of the loop, whose last three cases send nothing.
  induction runs with
  | @finished h utf8 _ ended =>
    refine ⟨[], (List.append_nil _).symm, fun _ none => (List.not_mem_nil none).elim,
      List.nil_prefix, ?_⟩
    rcases ended with empty | gone
    · exact .inl empty.symm
    · exact .inr (.inl gone)
  | @stuck h utf8 _ going uncut =>
    -- A valid text can always be cut.
    obtain ⟨text, rfl⟩ := valid
    have some : text ≠ [] := by
      rintro rfl
      exact going (.inl rfl)
    obtain ⟨_, _, _, _, positive⟩ := chunkLength_encode some
    omega
  | @full h utf8 _ _ _ overflow =>
    exact ⟨[], (List.append_nil _).symm, fun _ none => (List.not_mem_nil none).elim,
      List.nil_prefix, .inr (.inr overflow)⟩
  | @record h after utf8 answers going cut room later ih =>
    obtain ⟨text, rfl⟩ := valid
    have some : text ≠ [] := by
      rintro rfl
      exact going (.inl rfl)
    obtain ⟨before, rest, split, length, positive⟩ := chunkLength_encode some
    have bytes : encode text = encode before ++ encode rest := by
      rw [split]
      exact Code.encode_append _ _ _
    have front : (encode text).take (chunkLength (encode text)) = encode before := by
      rw [length, bytes]
      exact List.take_left
    have behind : (encode text).drop (chunkLength (encode text)) = encode rest := by
      rw [length, bytes]
      exact List.drop_left
    obtain ⟨records, sent, each, order, whole⟩ := ih ⟨rest, behind⟩
    have first := textRecord_take front positive
    have alive : h.isOpen = true := by simpa using (not_or.1 going).2
    rw [behind] at order whole
    refine ⟨⟨textMsg (chunkLength (encode text)),
      (encode text).take (chunkLength (encode text))⟩ :: records, ?_, ?_, ?_, ?_⟩
    · rw [sent, sent_sendRecord, alive, if_pos rfl, List.append_assoc]
      rfl
    · intro r member
      rcases List.mem_cons.1 member with rfl | among
      · exact first
      · exact each r among
    · simp only [List.map_cons, List.flatten_cons, front]
      rw [bytes]
      exact (List.prefix_append_right_inj _).2 order
    · simp only [List.map_cons, List.flatten_cons, front]
      rw [bytes, List.append_cancel_left_eq, List.length_append, ← List.drop_drop, List.drop_left]
      exact whole

/--
Text is cut between code points only.

Whatever waits already and however the socket answers, the records of a text are valid text of
bounded size, they carry the front of the text, and they carry all of it unless the connection is
dropped or no more can wait.
The loop ends on every string of bytes.
-/
theorem text_split :
    (∀ (h : IoscInput) (text : List Char) (answers : List SenderAnswer),
      (encode text).takeWhile (· ≠ 0) = encode (text.takeWhile (· ≠ '\x00')) ∧
        ∃ records, TextSent h (h.inputText (encode text) answers)
          ((encode text).takeWhile (· ≠ 0)) records) ∧
      ∀ (h : IoscInput) (utf8 : List UInt8) (answers : List SenderAnswer),
        TextRuns h (utf8.takeWhile (· ≠ 0)) answers (h.inputText utf8 answers) := by
  have ends : ∀ (h : IoscInput) (utf8 : List UInt8) (answers : List SenderAnswer),
      TextRuns h (utf8.takeWhile (· ≠ 0)) answers (h.inputText utf8 answers) :=
    fun h utf8 answers => textRuns_textLoop h answers (Nat.le_refl _)
  refine ⟨?_, ends⟩
  intro h text answers
  exact ⟨takeWhile_encode text, (ends h (encode text) answers).sent ⟨_, takeWhile_encode text⟩⟩

end IoscInput

end Xios
