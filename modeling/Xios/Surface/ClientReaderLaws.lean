import Mathlib.Data.List.Induction
import Xios.Surface.ClientReader

/-! The loop reads an app's records as it should, unless it takes a length for a negative number. -/

/-! What a reader visits on the way through an input. -/

namespace Reader

variable {σ β ω : Type*} {r : Reader σ β ω} {phase later : σ} {input left : List β}

theorem Visits.length_le (visits : r.Visits phase input later left) :
    left.length ≤ input.length := by
  induction visits with
  | here => exact Nat.le_refl _
  | more _ _ _ ih =>
    rw [List.length_append]
    omega

theorem Visits.append (visits : r.Visits phase input later left) (extra : List β) :
    r.Visits phase (input ++ extra) later (left ++ extra) := by
  induction visits with
  | here => exact .here _ _
  | more full went _ ih =>
    rw [List.append_assoc]
    exact .more full went ih

end Reader

namespace Xios

/-- On an input, two readers have delivered the same, and both have stopped or neither. -/
def Alike (r r' : Reader AppPhase UInt8 XiosMsg) (phase : AppPhase) (input : List UInt8) : Prop :=
  (r.parse phase input).out = (r'.parse phase input).out ∧
    ((r.parse phase input).waiting = none ↔ (r'.parse phase input).waiting = none)

/-- The reader comes to a length that is negative as a signed number, and there is more to read. -/
def Overlong (stream : List UInt8) : Prop :=
  ∃ more rest, plainReader.Visits .header stream (.skip more) rest ∧ 2 ^ 31 ≤ more + 1 ∧
    msgSize ≤ rest.length

section

variable {n : BitVec 32 → Nat} {frame : List UInt8}

theorem finish_wrong (wrong : (XiosMsg.decode frame).magic ≠ msgMagic) :
    (clientReader n).finish .header frame = .stop [] :=
  if_pos wrong

theorem finish_header (right : (XiosMsg.decode frame).magic = msgMagic) :
    (clientReader n).finish .header frame =
      .more (match n (XiosMsg.decode frame).length with
        | 0 => .header
        | more + 1 => .skip more) [XiosMsg.decode frame] := by
  show (if (XiosMsg.decode frame).magic ≠ msgMagic then _ else _) = _
  rw [if_neg fun wrong => wrong right]
  cases n (XiosMsg.decode frame).length <;> rfl

theorem finish_skip (more : Nat) :
    (clientReader n).finish (.skip more) frame = .more .header [] :=
  rfl

theorem parse_header_short {input : List UInt8} (short : input.length < msgSize) :
    (clientReader n).parse .header input = ⟨[], some (.header, input), []⟩ :=
  (clientReader n).parse_short short

theorem parse_skip_short {more : Nat} {input : List UInt8} (short : input.length < more + 1) :
    (clientReader n).parse (.skip more) input = ⟨[], some (.skip more, input), []⟩ :=
  (clientReader n).parse_short
    (show input.length < (clientReader n).want (.skip more) from short)

end

theorem toNat_toInt {length : BitVec 32} (small : length.toNat < 2 ^ 31) :
    length.toInt.toNat = length.toNat := by
  rw [BitVec.toInt_eq_toNat_cond, if_pos (by omega)]
  rfl

theorem toNat_toInt_eq_zero {length : BitVec 32} (large : 2 ^ 31 ≤ length.toNat) :
    length.toInt.toNat = 0 ∧ length.toInt < 0 := by
  have bound := length.isLt
  rw [BitVec.toInt_eq_toNat_cond, if_neg (by omega)]
  omega

theorem alike_more {phase phase' : AppPhase} {frame rest : List UInt8} {out : List XiosMsg}
    (full : frame.length = plainReader.want phase)
    (went : plainReader.finish phase frame = .more phase' out)
    (went' : signedReader.finish phase frame = .more phase' out) :
    Alike signedReader plainReader phase (frame ++ rest) ↔
      Alike signedReader plainReader phase' rest := by
  unfold Alike
  rw [plainReader.parse_more full went, signedReader.parse_more full went']
  simp only [Reader.Outcome.out_prepend, Reader.Outcome.waiting_prepend, List.append_cancel_left_eq]

/-- Without overlong records, signed and unsigned lengths are skipped alike. -/
theorem alike_of_not_overlong {phase : AppPhase} {input : List UInt8}
    (short : ∀ more rest, plainReader.Visits phase input (.skip more) rest → 2 ^ 31 ≤ more + 1 →
      rest.length < msgSize) : Alike signedReader plainReader phase input := by
  -- The induction is on the input, frame by frame.
  induction size : input.length using Nat.strongRecOn generalizing phase input with
  | ind n ih =>
    by_cases partial' : input.length < plainReader.want phase
    · -- Both wait for the rest of the same frame.
      have plain := plainReader.parse_short partial'
      have signed := signedReader.parse_short (show input.length < signedReader.want phase from partial')
      unfold Alike
      rw [plain, signed]
      exact ⟨rfl, Iff.rfl⟩
    · have full : (input.take (plainReader.want phase)).length = plainReader.want phase := by
        rw [List.length_take]
        omega
      have wanted := plainReader.positive phase
      have shorter : (input.drop (plainReader.want phase)).length < n := by
        rw [List.length_drop]
        omega
      have split := List.take_append_drop (plainReader.want phase) input
      generalize input.take (plainReader.want phase) = frame at full split
      generalize input.drop (plainReader.want phase) = rest at shorter split
      subst split
      cases phase with
      | skip more =>
        rw [alike_more full (finish_skip more) (finish_skip more)]
        exact ih _ shorter (fun more' rest' visits =>
          short more' rest' (.more full (finish_skip more) visits)) rfl
      | header =>
        by_cases right : (XiosMsg.decode frame).magic = msgMagic
        · have went := finish_header (n := BitVec.toNat) right
          have went' := finish_header (n := fun length => length.toInt.toNat) right
          by_cases small : (XiosMsg.decode frame).length.toNat < 2 ^ 31
          · -- The length is the same with and without a sign.
            rw [toNat_toInt small] at went'
            rw [alike_more full went went']
            exact ih _ shorter (fun more' rest' visits =>
              short more' rest' (.more full went visits)) rfl
          · -- One reader skips what the other takes for a record, and neither has enough of it.
            have negative := (toNat_toInt_eq_zero (Nat.le_of_not_lt small)).1
            obtain ⟨more, large⟩ : ∃ more, (XiosMsg.decode frame).length.toNat = more + 1 :=
              ⟨(XiosMsg.decode frame).length.toNat - 1, by omega⟩
            rw [large] at went
            rw [negative] at went'
            have few := short more rest (.more full went (.here _ _)) (by omega)
            have size : msgSize = 32 := rfl
            unfold Alike
            rw [plainReader.parse_more full went, signedReader.parse_more full went',
              parse_header_short few, parse_skip_short (by omega)]
            exact ⟨rfl, iff_of_false (by simp) (by simp)⟩
        · have stopped := finish_wrong (n := BitVec.toNat) right
          have stopped' := finish_wrong (n := fun length => length.toInt.toNat) right
          unfold Alike
          rw [plainReader.parse_stop full stopped, signedReader.parse_stop full stopped']
          exact ⟨rfl, Iff.rfl⟩

theorem not_alike_negative {frame rest : List UInt8} (full : frame.length = msgSize)
    (right : (XiosMsg.decode frame).magic = msgMagic)
    (large : 2 ^ 31 ≤ (XiosMsg.decode frame).length.toNat) (more : msgSize ≤ rest.length) :
    ¬Alike signedReader plainReader .header (frame ++ rest.take msgSize) := by
  have went := finish_header (n := BitVec.toNat) right
  have went' := finish_header (n := fun length => length.toInt.toNat) right
  obtain ⟨skipped, known⟩ : ∃ skipped, (XiosMsg.decode frame).length.toNat = skipped + 1 :=
    ⟨(XiosMsg.decode frame).length.toNat - 1, by omega⟩
  rw [known] at went
  rw [(toNat_toInt_eq_zero large).1] at went'
  have next : (rest.take msgSize).length = msgSize := by
    rw [List.length_take]
    omega
  have size : msgSize = 32 := rfl
  have plain : (plainReader.parse .header (frame ++ rest.take msgSize)) =
      ⟨[XiosMsg.decode frame], some (.skip skipped, rest.take msgSize), []⟩ := by
    rw [plainReader.parse_more full went, parse_skip_short (by omega)]
    rfl
  unfold Alike
  rw [plain, signedReader.parse_more full went']
  generalize rest.take msgSize = second at next
  intro alike
  -- The one that skips nothing stops at these bytes or delivers them.
  by_cases right' : (XiosMsg.decode second).magic = msgMagic
  · have later := signedReader.parse_more next (finish_header right') []
    rw [List.append_nil] at later
    have longer := congrArg List.length alike.1
    rw [later] at longer
    simp at longer
  · have later := signedReader.parse_stop next (finish_wrong right') []
    rw [List.append_nil] at later
    rw [later] at alike
    exact absurd (alike.2.mp rfl) (by simp)

/-- A record too long for a signed length makes the two readers differ. -/
theorem exists_not_alike {phase later : AppPhase} {input left : List UInt8}
    (visits : plainReader.Visits phase input later left)
    (begun : ∀ more, phase = .skip more → more + 1 < 2 ^ 31) {more : Nat} (here : later = .skip more)
    (large : 2 ^ 31 ≤ more + 1) (enough : msgSize ≤ left.length) :
    ∃ part, part <+: input ∧ ¬Alike signedReader plainReader phase part := by
  -- The induction follows the reader to the first such length.
  induction visits with
  | here =>
    have small := begun more here
    omega
  | @more phase phase' later frame rest left out full went onward ih =>
    -- A frame that both treat in the same way only moves the place.
    have moved (went' : signedReader.finish phase frame = .more phase' out)
        (begun' : ∀ more, phase' = .skip more → more + 1 < 2 ^ 31) :
        ∃ part, part <+: frame ++ rest ∧ ¬Alike signedReader plainReader phase part := by
      obtain ⟨part, inside, differs⟩ := ih begun' here enough
      refine ⟨frame ++ part, (List.prefix_append_right_inj _).2 inside, ?_⟩
      rw [alike_more full went went']
      exact differs
    cases phase with
    | skip skipped =>
      obtain ⟨rfl, rfl⟩ := Verdict.more.inj ((finish_skip skipped).symm.trans went)
      exact moved (finish_skip skipped) fun more same => by cases same
    | header =>
      have right : (XiosMsg.decode frame).magic = msgMagic := by
        by_contra wrong
        rw [finish_wrong wrong] at went
        cases went
      have known := finish_header (n := BitVec.toNat) right
      obtain ⟨rfl, rfl⟩ := Verdict.more.inj (known.symm.trans went)
      by_cases small : (XiosMsg.decode frame).length.toNat < 2 ^ 31
      · have same := finish_header (n := fun length => length.toInt.toNat) right
        rw [toNat_toInt small] at same
        refine moved same ?_
        intro more' skips
        -- What is skipped is as long as the record says.
        split at skips
        · cases skips
        · rename_i known'
          cases skips
          omega
      · have size := onward.length_le
        exact ⟨frame ++ rest.take msgSize,
          (List.prefix_append_right_inj _).2 (List.take_prefix _ _),
          not_alike_negative full right (Nat.le_of_not_lt small) (by omega)⟩

namespace ClientReader

variable {s : ClientReader}

/-- The variables of the loop are those of a reader in some phase with part of a frame. -/
def Holds (s : ClientReader) : AppPhase → List UInt8 → Prop
  | .header, got => got = s.rxbuf ∧ s.skip ≤ 0 ∧ s.rxbuf.length < msgSize
  | .skip more, got => s.rxbuf = [] ∧ 0 < s.skip ∧ got.length + s.skip.toNat = more + 1

/-- The loop has done what the reader with signed lengths does with the bytes received. -/
inductive Tracks (s : ClientReader) : Prop where
  | goes (phase : AppPhase) (got : List UInt8) (_ : s.stopped = false)
      (parsed : signedReader.parse .header s.received = ⟨s.handed, some (phase, got), []⟩)
      (holds : s.Holds phase got)
  | stops (stopped : s.stopped = true) (out : s.mode = .out)
      (parsed : signedReader.parse .header s.received = ⟨s.handed, none, []⟩)

theorem tracks_of_parse {phase phase' : AppPhase} {got got' left : List UInt8}
    {handed out : List XiosMsg} {s' : ClientReader}
    (parsed : signedReader.parse .header s.received = ⟨handed, some (phase, got), []⟩)
    (received : s'.received = s.received ++ got') (going : s'.stopped = false)
    (later : signedReader.parse phase (got ++ got') = ⟨out, some (phase', left), []⟩)
    (handed' : s'.handed = handed ++ out) (holds : s'.Holds phase' left) : s'.Tracks := by
  refine .goes phase' left going ?_ holds
  rw [received, signedReader.parse_append_of_waiting parsed, later, handed']
  rfl

theorem tracks_finish {frame : List UInt8} {before : List UInt8} {got' : List UInt8}
    (parsed : signedReader.parse .header before = ⟨s.handed, some (.header, frame), []⟩)
    (full : s.rxbuf = frame ++ got') (size : s.rxbuf.length = msgSize)
    (received : s.received = before ++ got') (going : s.stopped = false) (signed : s.skip ≤ 0) :
    s.finish.Tracks := by
  unfold finish
  by_cases right : (XiosMsg.decode s.rxbuf).magic = msgMagic
  · rw [if_neg fun wrong => wrong right]
    have went := finish_header (n := fun length => length.toInt.toNat) right
    have later := signedReader.parse_more size went []
    rw [List.append_nil, signedReader.parse_nil, full] at later
    have whole : signedReader.parse .header s.received =
        ⟨s.handed ++ [XiosMsg.decode s.rxbuf],
          some (match (XiosMsg.decode s.rxbuf).length.toInt.toNat with
            | 0 => .header
            | more + 1 => .skip more, []), []⟩ := by
      rw [received, signedReader.parse_append_of_waiting parsed, later, full]
      simp [Reader.Outcome.prepend]
    generalize XiosMsg.decode s.rxbuf = m at whole
    -- What is skipped next is what the signed length says, which is nothing if it is negative.
    cases number : m.length.toInt.toNat with
    | zero =>
      rw [number] at whole
      split
      · exact .goes .header [] going whole ⟨rfl, Int.toNat_eq_zero.mp number, Nat.succ_pos 31⟩
      · exact .goes .header [] going whole ⟨rfl, signed, Nat.succ_pos 31⟩
    | succ more =>
      rw [number] at whole
      have positive : 0 < m.length.toNat := by
        rw [Nat.pos_iff_ne_zero]
        intro zero
        have none : m.length = 0#32 := BitVec.eq_of_toNat_eq zero
        rw [none] at number
        cases number
      rw [if_pos positive]
      refine .goes (.skip more) [] going whole ⟨rfl, ?_, ?_⟩
      · show 0 < m.length.toInt
        omega
      · show 0 + m.length.toInt.toNat = more + 1
        omega
  · rw [if_pos right]
    have stopped := signedReader.parse_stop size
      (finish_wrong (n := fun length => length.toInt.toNat) right) []
    rw [List.append_nil, full] at stopped
    refine .stops rfl rfl ?_
    show signedReader.parse .header s.received = ⟨s.handed, none, []⟩
    rw [received, signedReader.parse_append_of_waiting parsed, stopped]
    simp [Reader.Outcome.prepend]

theorem Tracks.take (tracks : s.Tracks) (going : s.stopped = false) {got' : List UInt8}
    (fits : got'.length ≤ s.want) : (s.take got').Tracks := by
  cases tracks with
  | stops stopped =>
    rw [going] at stopped
    cases stopped
  | goes phase got _ parsed holds =>
    unfold ClientReader.take
    dsimp only
    cases phase with
    | header =>
      obtain ⟨rfl, signed, short⟩ := holds
      rw [if_neg (by omega)]
      rw [want, if_neg (by omega)] at fits
      split
      · rename_i still
        exact tracks_of_parse parsed rfl going (parse_header_short still) (List.append_nil _).symm
          ⟨rfl, signed, still⟩
      · rename_i complete
        refine tracks_finish parsed rfl ?_ rfl going signed
        rw [List.length_append] at complete ⊢
        omega
    | skip more =>
      obtain ⟨empty, positive, left⟩ := holds
      rw [if_pos positive]
      rw [want, if_pos positive] at fits
      by_cases still : got.length + got'.length < more + 1
      · have later : signedReader.parse (.skip more) (got ++ got') =
            ⟨[], some (.skip more, got ++ got'), []⟩ :=
          parse_skip_short (by rw [List.length_append]; exact still)
        refine tracks_of_parse parsed rfl going later (List.append_nil _).symm ⟨empty, ?_, ?_⟩
        · show 0 < s.skip - got'.length
          omega
        · show (got ++ got').length + (s.skip - got'.length).toNat = more + 1
          rw [List.length_append]
          omega
      · -- The last byte of what is skipped has arrived.
        have full : (got ++ got').length = more + 1 := by
          rw [List.length_append]
          omega
        have later := signedReader.parse_more
          (show (got ++ got').length = signedReader.want (.skip more) from full) (finish_skip more) []
        rw [List.append_nil, signedReader.parse_nil] at later
        refine tracks_of_parse parsed rfl going later (List.append_nil _).symm ⟨?_, ?_, ?_⟩
        · exact empty.symm
        · show s.skip - got'.length ≤ 0
          omega
        · show s.rxbuf.length < msgSize
          rw [empty]
          decide

/-- Every call keeps the loop with the reader. -/
theorem Tracks.next (tracks : s.Tracks) {event : Event} (answers : s.Answers event) :
    (s.next event).Tracks := by
  have same {s' : ClientReader} (received : s'.received = s.received)
      (handed : s'.handed = s.handed) (stopped : s'.stopped = s.stopped)
      (rxbuf : s'.rxbuf = s.rxbuf) (skip : s'.skip = s.skip) (out : s.stopped = false) :
      s'.Tracks := by
    cases tracks with
    | stops stopped' =>
      rw [out] at stopped'
      cases stopped'
    | goes phase got _ parsed holds =>
      refine .goes phase got (stopped.trans out) (by rw [received, handed]; exact parsed) ?_
      cases phase with
      | header =>
        obtain ⟨same, signed, short⟩ := holds
        exact ⟨rxbuf ▸ same, skip ▸ signed, rxbuf ▸ short⟩
      | skip more =>
        obtain ⟨empty, positive, left⟩ := holds
        exact ⟨rxbuf ▸ empty, skip ▸ positive, skip ▸ left⟩
  -- A loop that has stopped is asked nothing more.
  have going : s.stopped = false := by
    cases tracks with
    | goes _ _ going => exact going
    | stops _ out =>
      cases event <;> simp [Answers, out] at answers
  cases event with
  | data first more =>
    exact tracks.take going (List.length_take_le _ _)
  | ready => exact same rfl rfl rfl rfl rfl going
  | again => exact same rfl rfl rfl rfl rfl going
  | intr => exact same rfl rfl rfl rfl rfl going
  | hangUp => exact same rfl rfl rfl rfl rfl going
  | gone => exact same rfl rfl rfl rfl rfl going

theorem tracks_of_run {trace : List Event} (run : machine.Run trace s) : s.Tracks := by
  refine run.invariant (fun _ s => s.Tracks) ?_ ?_
  · intro s begun
    obtain rfl := begun
    exact .goes .header [] rfl (signedReader.parse_nil .header) ⟨rfl, Int.le_refl 0, by decide⟩
  · intro _ s event tracks answers
    exact tracks.next answers

theorem Tracks.parsed (tracks : s.Tracks) :
    s.handed = (signedReader.parse .header s.received).out ∧
      (s.stopped = true ↔ (signedReader.parse .header s.received).waiting = none) := by
  cases tracks with
  | goes phase got going parsed =>
    rw [parsed]
    exact ⟨rfl, iff_of_false (by simp [going]) (by simp)⟩
  | stops stopped _ parsed =>
    rw [parsed]
    exact ⟨rfl, iff_of_true stopped rfl⟩

theorem Tracks.agrees_iff (tracks : s.Tracks) :
    s.Agrees ↔ Alike signedReader plainReader .header s.received := by
  obtain ⟨handed, stopped⟩ := tracks.parsed
  unfold Agrees Alike
  rw [← handed, stopped]

theorem take_mode (got : List UInt8) :
    (s.take got).received = s.received ++ got ∧
      ((s.take got).mode = s.mode ∨ (s.take got).stopped = true) := by
  unfold take finish
  dsimp only
  split
  · exact ⟨rfl, .inl rfl⟩
  split
  · exact ⟨rfl, .inl rfl⟩
  split
  · exact ⟨rfl, .inr rfl⟩
  split <;> exact ⟨rfl, .inl rfl⟩

theorem Tracks.want_pos (tracks : s.Tracks) (going : s.stopped = false) : 0 < s.want := by
  cases tracks with
  | stops stopped =>
    rw [going] at stopped
    cases stopped
  | goes phase got _ _ holds =>
    unfold want
    have scratch : scratchSize = 128 := rfl
    split
    · omega
    · cases phase with
      | header =>
        have short := holds.2.2
        omega
      | skip more =>
        have positive := holds.2.1
        omega

theorem exists_run (bytes : List UInt8) :
    ∃ trace s, machine.Run trace s ∧ s.received <+: bytes ∧
      (s.stopped = false → s.mode = .reading ∧ s.received = bytes) := by
  -- The bytes arrive one by one.
  induction bytes using List.reverseRecOn with
  | nil =>
    have begun : machine.Run [] ({} : ClientReader) := .start rfl
    have ready : machine.enabled ({} : ClientReader) .ready := rfl
    exact ⟨_, _, begun.step .ready ready, List.prefix_refl _, fun _ => ⟨rfl, rfl⟩⟩
  | append_singleton bytes b ih =>
    obtain ⟨trace, s, run, part, going⟩ := ih
    cases stopped : s.stopped with
    | true =>
      refine ⟨trace, s, run, part.trans (List.prefix_append _ _), ?_⟩
      intro going
      rw [stopped] at going
      cases going
    | false =>
      obtain ⟨reading, received⟩ := going stopped
      have room := (tracks_of_run run).want_pos stopped
      obtain ⟨received', mode⟩ := take_mode (s := s) [b]
      have one : s.next (.data b []) = s.take [b] := by
        show s.take ([b].take s.want) = _
        rw [List.take_of_length_le (show [b].length ≤ s.want from room)]
      have answered : machine.enabled s (.data b []) := reading
      refine ⟨_, _, run.step (.data b []) answered, ?_, ?_⟩
      · show (s.next (.data b [])).received <+: _
        simp only [one, received', received]
        exact List.prefix_refl _
      · intro going'
        show (s.next (.data b [])).mode = _ ∧ (s.next (.data b [])).received = _
        have going'' : (s.next (.data b [])).stopped = false := going'
        rw [one] at going'' ⊢
        refine ⟨?_, by rw [received', received]⟩
        rcases mode with same | ended
        · exact same.trans reading
        · rw [going''] at ended
          cases ended

/--
The loop treats a stream as intended exactly if no length is taken for a negative number.

Whatever part of the stream has been read and however it came in pieces, the loop has handed on the
records that a reader of unsigned lengths finds in it and has stopped where that reader stops, if
and only if that reader never comes to a length of 2 ^ 31 or more with another record's worth of
bytes behind it.
-/
theorem reads_as_intended_iff (stream : List UInt8) :
    (∀ trace s, machine.Run trace s → s.received <+: stream → s.Agrees) ↔ ¬Overlong stream := by
  constructor
  · intro agrees overlong
    obtain ⟨more, rest, visits, large, enough⟩ := overlong
    obtain ⟨part, inside, differs⟩ := exists_not_alike visits (fun more same => by cases same) rfl
      large enough
    -- The loop is made to read just the part on which the readers differ.
    obtain ⟨trace, s, run, upTo, going⟩ := exists_run part
    have tracks := tracks_of_run run
    have alike := tracks.agrees_iff.mp (agrees trace s run (upTo.trans inside))
    cases stopped : s.stopped with
    | false =>
      rw [(going stopped).2] at alike
      exact differs alike
    | true =>
      -- Having stopped before, both readers do nothing with the rest of it.
      have signedStopped := tracks.parsed.2.mp stopped
      have plainStopped := alike.2.mp signedStopped
      have signed := signedReader.parse_of_stopped_part .header upTo signedStopped
      have plain := plainReader.parse_of_stopped_part .header upTo plainStopped
      apply differs
      exact ⟨signed.2.trans (alike.1.trans plain.2.symm), iff_of_true signed.1 plain.1⟩
  · intro fair trace s run part
    rw [(tracks_of_run run).agrees_iff]
    apply alike_of_not_overlong
    intro more rest visits large
    by_contra enough
    -- What the reader comes to in a part of the stream, it comes to in the stream.
    obtain ⟨behind, whole⟩ := part
    refine fair ⟨more, rest ++ behind, ?_, large, ?_⟩
    · rw [← whole]
      exact visits.append behind
    · rw [List.length_append]
      omega

def hugeRecord : XiosMsg :=
  { magic := msgMagic, type := msgPacing, length := 0x80000000#32 }

def hiddenRecord : XiosMsg :=
  { magic := msgMagic, type := msgReleased, windowId := 1#32, a := 1#32 }

/-- What should have been skipped is handed on as a record. -/
theorem not_reads_as_intended :
    ¬∀ (stream : List UInt8) (trace : List Event) (s : ClientReader), machine.Run trace s →
      s.received <+: stream → s.Agrees := by
  intro agrees
  have script : machine.Admits {} [.ready, .data 0x31 (hugeRecord.encode.drop 1),
      .data 0x31 (hiddenRecord.encode.drop 1)] := by
    refine ⟨rfl, rfl, ?_, trivial⟩
    show Answers _ (.data 0x31 (hiddenRecord.encode.drop 1))
    decide
  have run := Machine.Run.of_script (m := machine) (s := {}) rfl _ script
  have handed := (agrees (hugeRecord.encode ++ hiddenRecord.encode) _ _ run (by decide)).1
  exact absurd handed (by decide)

end ClientReader

end Xios
