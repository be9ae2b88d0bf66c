import Xios.Input.Sender

/-! What the app sends goes out whole and in order, however little the socket takes at a time. -/

namespace Xios

theorem senderStream_concat (records : List SenderRecord) (r : SenderRecord) :
    senderStream (records ++ [r]) = senderStream records ++ r.bytes := by
  simp [senderStream]

namespace IoscInput

/-- Nothing is lost, torn or forgotten on a connection. -/
structure Sound (h : IoscInput) : Prop where
  -- What waits lies within the memory for it.
  room : h.outqHead + h.outqLen ≤ outqMax
  -- Nothing waits on a connection that was dropped.
  shut : h.isOpen = false → h.outqLen = 0
  -- A connection that is there was not dropped.
  kept : h.isOpen = true → h.loss = none
  -- What was put out and what waits are the records that were to be sent.
  exact : h.isOpen = true → h.written ++ h.queued = senderStream h.sent
  -- What was put out begins the records that were to be sent.
  inOrder : h.written <+: senderStream h.sent
  -- Nothing was put out of the record that would have been too much.
  fits : h.loss = some .overflow →
    ∃ before r, h.sent = before ++ [r] ∧ h.written <+: senderStream before

theorem sound_new : Sound {} where
  room := Nat.zero_le _
  shut _ := rfl
  kept _ := rfl
  exact _ := rfl
  inOrder := ⟨[], rfl⟩
  fits none := by cases none

@[simp] theorem length_queued (h : IoscInput) : h.queued.length = h.outqLen :=
  Memory.length_read _ _ _

@[simp] theorem isOpen_drop (h : IoscInput) (loss : SenderLoss) : (h.drop loss).isOpen = false :=
  rfl

variable {h : IoscInput}

theorem sound_drop (inOrder : h.written <+: senderStream h.sent) {loss : SenderLoss}
    (other : loss ≠ .overflow) : (h.drop loss).Sound where
  room := Nat.zero_le _
  shut _ := rfl
  kept alive := by cases alive
  exact alive := by cases alive
  inOrder := inOrder
  fits overflow := by
    simp only [drop, Option.some.injEq] at overflow
    exact absurd overflow other

/-- What a flush that did not fail has done. -/
structure Flushed (h h' : IoscInput) : Prop where
  isOpen : h'.isOpen = h.isOpen
  -- What waits lies within the memory for it.
  room : h'.outqHead + h'.outqLen ≤ outqMax
  -- What went out was the front of what waited.
  exact : h'.written ++ h'.queued = h.written ++ h.queued
  -- Nothing else changed.
  sent : h'.sent = h.sent
  loss : h'.loss = h.loss

theorem flushOut_cases (h : IoscInput) (plan : List WriteResult)
    (room : h.outqHead + h.outqLen ≤ outqMax) :
    (∃ written, (h.flushOut plan).1 = { h with written }.drop .error ∧
        written <+: h.written ++ h.queued) ∨
      Flushed h (h.flushOut plan).1 := by
  have whole := writeLoop_put_append_rest h.queued plan
  unfold flushOut
  generalize writeLoop h.queued plan = w at whole
  have lengths := congrArg List.length whole
  rw [List.length_append, length_queued] at lengths
  dsimp only
  split
  · refine .inl ⟨h.written ++ w.put, rfl, ?_⟩
    rw [← whole]
    exact (List.prefix_append_right_inj _).2 (List.prefix_append _ _)
  · right
    -- The bytes that still wait lie behind those that went out.
    have rest : h.outq.read (h.outqHead + w.put.length) (h.outqLen - w.put.length) = w.rest := by
      rw [Memory.read_drop _ _ _ _ (by omega)]
      show h.queued.drop w.put.length = w.rest
      rw [← whole, List.drop_left]
    refine ⟨rfl, ?_, ?_, rfl, rfl⟩
    · show (if h.outqLen - w.put.length = 0 then 0 else h.outqHead + w.put.length) +
        (h.outqLen - w.put.length) ≤ outqMax
      split <;> omega
    · show h.written ++ w.put ++ h.outq.read
        (if h.outqLen - w.put.length = 0 then 0 else h.outqHead + w.put.length)
        (h.outqLen - w.put.length) = h.written ++ h.queued
      rw [← whole, List.append_assoc]
      split
      · rename_i empty
        rw [empty] at rest ⊢
        rw [← rest]
        rfl
      · rw [rest]

theorem writeParts_append (r : SenderRecord) (plan : List WriteResult) :
    (writeParts r plan).put ++ ((writeParts r plan).header ++ (writeParts r plan).payload) =
      r.bytes := by
  have first := writeLoop_put_append_rest r.msg.encode plan
  unfold writeParts SenderRecord.bytes
  dsimp only
  split
  · rename_i done
    have second := writeLoop_put_append_rest r.payload (writeLoop r.msg.encode plan).plan
    rw [(writeLoop_rest_eq_nil _ _).2 done, List.append_nil] at first
    rw [List.nil_append, List.append_assoc, second, first]
  · rw [← List.append_assoc, first]

theorem writeParts_done (r : SenderRecord) (plan : List WriteResult) :
    (writeParts r plan).header ++ (writeParts r plan).payload = [] ↔
      (writeParts r plan).ended = .done := by
  unfold writeParts
  dsimp only
  split
  · exact writeLoop_rest_eq_nil _ _
  · rename_i unfinished
    have left := (writeLoop_rest_eq_nil r.msg.encode plan).not.2 unfinished
    exact ⟨fun none => absurd (List.append_eq_nil_iff.1 none).1 left, fun done => absurd done unfinished⟩

theorem direct_append (h : IoscInput) (r : SenderRecord) (plan : List WriteResult) :
    (h.direct r plan).put ++ ((h.direct r plan).header ++ (h.direct r plan).payload) = r.bytes := by
  unfold direct
  split
  · exact writeParts_append r plan
  · rfl

variable {r : SenderRecord}

theorem direct_done {plan : List WriteResult} (done : (h.direct r plan).ended = .done) :
    h.outqLen = 0 ∧ (h.direct r plan).put = r.bytes := by
  have whole := h.direct_append r plan
  unfold direct at done whole ⊢
  split at done
  · rename_i empty
    rw [if_pos empty, (writeParts_done r plan).2 done, List.append_nil] at whole
    rw [if_pos empty]
    exact ⟨empty, whole⟩
  · cases done

theorem direct_put (r : SenderRecord) (plan : List WriteResult) (waits : h.outqLen ≠ 0) :
    (h.direct r plan).put = [] := by
  simp [direct, waits]

theorem compact_spec (h : IoscInput) (rest : Nat) (fits : h.outqLen + rest ≤ outqMax) :
    ∃ outq outqHead, h.compact rest = { h with outq, outqHead } ∧
      outqHead + h.outqLen + rest ≤ outqMax ∧ outq.read outqHead h.outqLen = h.queued := by
  unfold compact
  split
  · exact ⟨_, 0, rfl, by omega, Memory.read_move _ _ _ _⟩
  · exact ⟨h.outq, h.outqHead, rfl, by omega, rfl⟩

theorem enqueue_cases (h : IoscInput) (parts : SentParts) (memory : Bool) :
    (outqMax < h.outqLen + (parts.header ++ parts.payload).length ∧
        h.enqueue parts memory = h.drop .overflow) ∨
      h.enqueue parts memory = h.drop .memory ∨
      ∃ outq outqHead outqLen, h.enqueue parts memory =
          { h with allocated := true, outq, outqHead, outqLen } ∧
        outqHead + outqLen ≤ outqMax ∧
        outq.read outqHead outqLen = h.queued ++ (parts.header ++ parts.payload) := by
  unfold enqueue
  rw [List.length_append]
  dsimp only
  split
  · rename_i large
    exact .inl ⟨large, rfl⟩
  · rename_i small
    split
    · exact .inr (.inl rfl)
    · obtain ⟨outq, outqHead, here, room, queue⟩ := compact_spec { h with allocated := true }
        (parts.header.length + parts.payload.length) (Nat.le_of_not_lt small)
      rw [here]
      refine .inr (.inr ⟨_, outqHead, _, rfl, ?_, ?_⟩)
      · show outqHead + (h.outqLen + (parts.header.length + parts.payload.length)) ≤ outqMax
        rw [← Nat.add_assoc]
        exact room
      · -- Both parts are copied one behind the other.
        show ((outq.write (outqHead + h.outqLen) parts.header).write
            (outqHead + h.outqLen + parts.header.length) parts.payload).read outqHead
          (h.outqLen + (parts.header.length + parts.payload.length)) = _
        rw [← Memory.write_append, ← List.length_append, Memory.read_write_append]
        exact congrArg (· ++ _) queue

/-- A record that is not written in whole leaves its rest in the queue, or loses the link. -/
theorem sound_sendFlushed {before : List SenderRecord} (alive : h.isOpen = true)
    (kept : h.loss = none) (room : h.outqHead + h.outqLen ≤ outqMax)
    (sent : h.sent = before ++ [r]) (exact : h.written ++ h.queued = senderStream before)
    (small : r.bytes.length ≤ outqMax) (plan : List WriteResult) (memory : Bool) :
    (h.sendFlushed r plan memory).Sound := by
  have whole := h.direct_append r plan
  -- Either nothing waited and the record went out in part, or nothing went out.
  have inOrder : h.written ++ (h.direct r plan).put <+: senderStream h.sent := by
    rw [sent, senderStream_concat, ← exact, ← whole]
    by_cases empty : h.outqLen = 0
    · have idle : h.queued = [] := by simp [queued, empty, Memory.read]
      rw [idle, List.append_nil]
      exact (List.prefix_append_right_inj _).2 (List.prefix_append _ _)
    · rw [direct_put r plan empty, List.append_nil, List.append_assoc]
      exact List.prefix_append _ _
  unfold sendFlushed
  dsimp only
  split
  · exact sound_drop inOrder (by decide)
  · rename_i done
    obtain ⟨empty, all⟩ := direct_done done
    have idle : h.queued = [] := by simp [queued, empty, Memory.read]
    refine ⟨room, fun gone => absurd alive (by simp [show h.isOpen = false from gone]),
      fun _ => kept, fun _ => ?_, inOrder, fun overflow => ?_⟩
    · show h.written ++ (h.direct r plan).put ++ h.queued = senderStream h.sent
      rw [sent, senderStream_concat, ← exact, all, idle, List.append_nil, List.append_nil]
    · exact absurd overflow (by simp [show h.loss = none from kept])
  · rcases enqueue_cases { h with written := h.written ++ (h.direct r plan).put }
        (h.direct r plan) memory with ⟨large, dropped⟩ | dropped | ⟨outq, head, len, here, fits, queue⟩
    · rw [dropped]
      -- A record fits into an empty queue, so older bytes wait and nothing of it went out.
      have waits : h.outqLen ≠ 0 := by
        intro empty
        have lengths := congrArg List.length whole
        rw [List.length_append] at lengths
        replace large : outqMax < h.outqLen + _ := large
        omega
      refine ⟨Nat.zero_le _, fun _ => rfl, fun alive => ?_, fun alive => ?_, inOrder, fun _ => ?_⟩
      · cases alive
      · cases alive
      · refine ⟨before, r, sent, ?_⟩
        show h.written ++ (h.direct r plan).put <+: senderStream before
        rw [direct_put r plan waits, List.append_nil, ← exact]
        exact List.prefix_append _ _
    · rw [dropped]
      exact sound_drop inOrder (by decide)
    · rw [here]
      refine ⟨fits, fun gone => absurd alive (by simp [show h.isOpen = false from gone]),
        fun _ => kept, fun _ => ?_, inOrder, fun overflow => ?_⟩
      · show h.written ++ (h.direct r plan).put ++ outq.read head len = senderStream h.sent
        rw [queue, sent, senderStream_concat, ← exact, ← whole]
        show h.written ++ (h.direct r plan).put ++ (h.queued ++ _) = _
        by_cases empty : h.outqLen = 0
        · have idle : h.queued = [] := by simp [queued, empty, Memory.read]
          rw [idle, List.nil_append, List.append_nil, List.append_assoc]
        · rw [direct_put r plan empty, List.append_nil, List.nil_append, List.append_assoc]
      · exact absurd overflow (by simp [show h.loss = none from kept])

theorem Sound.sendRecord (sound : h.Sound) (small : r.bytes.length ≤ outqMax)
    (answer : SenderAnswer) : (h.sendRecord r answer).Sound := by
  unfold IoscInput.sendRecord
  split
  · exact sound
  rename_i alive
  rw [Bool.not_eq_false] at alive
  have exact := sound.exact alive
  dsimp only
  rcases flushOut_cases { h with sent := h.sent ++ [r] } answer.plan sound.room with
    ⟨written, dropped, front⟩ | flushed
  · -- The flush failed, so nothing of the record went out.
    replace front : written <+: senderStream h.sent := exact ▸ front
    rw [dropped, if_pos (isOpen_drop _ _)]
    refine sound_drop (front.trans ?_) (by decide)
    show senderStream h.sent <+: senderStream (h.sent ++ [r])
    rw [senderStream_concat]
    exact List.prefix_append _ _
  · have stays := flushed.isOpen.trans alive
    rw [if_neg (by simp [stays])]
    exact sound_sendFlushed stays (flushed.loss.trans (sound.kept alive)) flushed.room flushed.sent
      (flushed.exact.trans exact) small _ _

theorem Sound.pollTraits (sound : h.Sound) (gone : Bool) (answer : SenderAnswer) :
    (h.pollTraits gone answer).Sound := by
  unfold IoscInput.pollTraits
  split
  · exact sound
  rename_i alive
  rw [Bool.not_eq_false] at alive
  have exact := sound.exact alive
  rcases flushOut_cases h answer.plan sound.room with ⟨written, dropped, front⟩ | flushed
  · rw [dropped, if_pos (isOpen_drop _ _)]
    exact sound_drop (exact ▸ front) (by decide)
  · have stays := flushed.isOpen.trans alive
    have kept := flushed.loss.trans (sound.kept alive)
    have whole : (h.flushOut answer.plan).1.written ++ (h.flushOut answer.plan).1.queued =
        senderStream (h.flushOut answer.plan).1.sent := by
      rw [flushed.exact, exact, flushed.sent]
    have inOrder : (h.flushOut answer.plan).1.written <+:
        senderStream (h.flushOut answer.plan).1.sent := ⟨_, whole⟩
    rw [if_neg (by simp [stays])]
    split
    · exact sound_drop inOrder (by decide)
    · refine ⟨flushed.room, fun closed => ?_, fun _ => kept, fun _ => whole, inOrder, fun lost => ?_⟩
      · rw [stays] at closed
        cases closed
      · rw [kept] at lost
        cases lost

theorem sent_flushOut (h : IoscInput) (plan : List WriteResult) :
    (h.flushOut plan).1.sent = h.sent := by
  unfold flushOut
  dsimp only
  split <;> rfl

theorem sent_enqueue (h : IoscInput) (parts : SentParts) (memory : Bool) :
    (h.enqueue parts memory).sent = h.sent := by
  rcases h.enqueue_cases parts memory with ⟨-, here⟩ | here | ⟨outq, head, len, here, -⟩ <;>
    rw [here] <;> rfl

theorem written_enqueue (h : IoscInput) (parts : SentParts) (memory : Bool) :
    (h.enqueue parts memory).written = h.written := by
  rcases h.enqueue_cases parts memory with ⟨-, here⟩ | here | ⟨outq, head, len, here, -⟩ <;>
    rw [here] <;> rfl

theorem sent_sendRecord (h : IoscInput) (r : SenderRecord) (answer : SenderAnswer) :
    (h.sendRecord r answer).sent = h.sent ++ if h.isOpen then [r] else [] := by
  unfold sendRecord
  cases alive : h.isOpen with
  | false => simp
  | true =>
    simp only [Bool.true_eq_false, if_false, if_true]
    split
    · exact sent_flushOut _ _
    · unfold sendFlushed
      dsimp only
      split
      · exact sent_flushOut _ _
      · exact sent_flushOut _ _
      · rw [sent_enqueue]
        exact sent_flushOut _ _

theorem backOff_le (utf8 : List UInt8) (len : Nat) : backOff utf8 len ≤ len := by
  induction len with
  | zero => exact Nat.le_refl 0
  | succ len ih =>
    unfold backOff
    split <;> omega

theorem chunkLength_le (utf8 : List UInt8) :
    chunkLength utf8 ≤ utf8.length ∧ chunkLength utf8 ≤ textChunk := by
  have back := backOff_le utf8 textChunk
  unfold chunkLength
  split <;> omega

/-- A record that is only a header, of a kind a client may send at any time. -/
def Plain (m : XiosMsg) : Prop :=
  m.magic = msgMagic ∧ m.length = 0#32 ∧
    m.type ∈ [inMotion, inButton, inKey, inTouch, inTablet, inAxis, inGesture]

theorem plain_input {type : BitVec 32} (x y code state mods : BitVec 32)
    (kind : type ∈ [inMotion, inButton, inKey, inTouch, inTablet, inAxis, inGesture]) :
    Plain (.input type x y code state mods) :=
  ⟨rfl, rfl, kind⟩

/-- A record as the calls produce them. -/
inductive Produced : SenderRecord → Prop where
  -- Only a header.
  | plain {m : XiosMsg} (plain : Plain m) : Produced { msg := m }
  -- Text of a bounded size.
  | text (payload : List UInt8) (some : 1 ≤ payload.length) (small : payload.length ≤ textChunk) :
      Produced ⟨textMsg payload.length, payload⟩

theorem Produced.small (produced : Produced r) : r.bytes.length ≤ outqMax := by
  cases produced with
  | plain => simp [SenderRecord.bytes, msgSize, outqMax]
  | text payload _ small =>
    simp only [SenderRecord.bytes, List.length_append, XiosMsg.length_encode, msgSize, outqMax]
    simp only [textChunk] at small
    omega

/-- What one call does: it keeps the connection sound and adds records of the right kind. -/
structure Calls (h h' : IoscInput) (records : List SenderRecord) : Prop where
  sound : h'.Sound
  -- The records come after those before.
  sent : h'.sent = h.sent ++ records
  -- They are such as calls produce.
  produced : ∀ r ∈ records, Produced r

theorem calls_sendMsg (sound : h.Sound) {m : XiosMsg} (plain : Plain m) (answer : SenderAnswer) :
    Calls h (h.sendMsg m answer) (if h.isOpen then [{ msg := m }] else []) where
  sound := sound.sendRecord (Produced.plain plain).small answer
  sent := sent_sendRecord h _ answer
  produced := by
    intro r sent
    split at sent
    · rw [List.mem_singleton.1 sent]
      exact .plain plain
    · cases sent

/-- The records of a text carry the front of it, in order. -/
theorem calls_textLoop (fuel : Nat) (sound : h.Sound) (utf8 : List UInt8)
    (answers : List SenderAnswer) :
    ∃ records, Calls h (textLoop fuel h utf8 answers) records ∧
      (records.map SenderRecord.payload).flatten <+: utf8 := by
  have nothing : ∃ records, Calls h h records ∧
      (records.map SenderRecord.payload).flatten <+: utf8 :=
    ⟨[], ⟨sound, (List.append_nil _).symm, fun _ none => by cases none⟩, List.nil_prefix⟩
  induction fuel generalizing h utf8 answers with
  | zero => exact nothing
  | succ fuel ih =>
    unfold textLoop
    split
    · exact nothing
    rename_i going
    dsimp only
    split
    · exact nothing
    split
    · exact nothing
    -- One record takes the front of the text, and the loop goes on behind it.
    obtain ⟨short, small⟩ := chunkLength_le utf8
    have size : (utf8.take (chunkLength utf8)).length = chunkLength utf8 := by
      rw [List.length_take]
      omega
    have made : Produced ⟨textMsg (chunkLength utf8), utf8.take (chunkLength utf8)⟩ := by
      have text := Produced.text (utf8.take (chunkLength utf8)) (by omega) (by omega)
      rwa [size] at text
    have alive : h.isOpen = true := by simpa using (not_or.1 going).2
    have first := sound.sendRecord made.small (answers.headD {})
    obtain ⟨records, ⟨kept, sent, produced⟩, front⟩ := ih first (utf8.drop (chunkLength utf8))
      answers.tail ⟨[], ⟨first, (List.append_nil _).symm, fun _ none => by cases none⟩,
        List.nil_prefix⟩
    refine ⟨⟨textMsg (chunkLength utf8), utf8.take (chunkLength utf8)⟩ :: records,
      ⟨kept, ?_, ?_⟩, ?_⟩
    · rw [sent, sent_sendRecord, alive, if_pos rfl, List.append_assoc]
      rfl
    · intro r member
      rcases List.mem_cons.1 member with rfl | later
      · exact made
      · exact produced r later
    · simp only [List.map_cons, List.flatten_cons]
      conv_rhs => rw [← List.take_append_drop (chunkLength utf8) utf8]
      exact (List.prefix_append_right_inj _).2 front

theorem Sound.call (sound : h.Sound) (answers : List SenderAnswer) (c : Call) :
    ∃ records, Calls h (h.call answers c) records := by
  cases c with
  | text utf8 =>
    obtain ⟨records, calls, -⟩ := calls_textLoop _ sound (utf8.takeWhile (· ≠ 0)) answers
    exact ⟨records, calls⟩
  | pollTraits gone =>
    refine ⟨[], sound.pollTraits gone _, ?_, fun _ none => by cases none⟩
    show (h.pollTraits gone _).sent = h.sent ++ []
    unfold IoscInput.pollTraits
    rw [List.append_nil]
    split
    · rfl
    · dsimp only
      split
      · exact sent_flushOut _ _
      · split <;> exact sent_flushOut _ _
  | motion | button | key | touch | tablet | axis | gesture =>
    exact ⟨_, calls_sendMsg sound (plain_input _ _ _ _ _ (by decide)) _⟩

theorem written_flushOut (h : IoscInput) (plan : List WriteResult) :
    h.written <+: (h.flushOut plan).1.written := by
  unfold flushOut
  dsimp only
  split <;> exact List.prefix_append _ _

theorem written_sendRecord (h : IoscInput) (r : SenderRecord) (answer : SenderAnswer) :
    h.written <+: (h.sendRecord r answer).written := by
  unfold sendRecord
  split
  · exact List.prefix_refl _
  have flushed := written_flushOut { h with sent := h.sent ++ [r] } answer.plan
  dsimp only
  split
  · exact flushed
  · unfold sendFlushed
    dsimp only
    refine flushed.trans ?_
    split
    · exact List.prefix_append _ _
    · exact List.prefix_append _ _
    · rw [written_enqueue]
      exact List.prefix_append _ _

theorem written_textLoop (fuel : Nat) (h : IoscInput) (utf8 : List UInt8)
    (answers : List SenderAnswer) : h.written <+: (textLoop fuel h utf8 answers).written := by
  induction fuel generalizing h utf8 answers with
  | zero => exact List.prefix_refl _
  | succ fuel ih =>
    unfold textLoop
    split
    · exact List.prefix_refl _
    dsimp only
    split
    · exact List.prefix_refl _
    split
    · exact List.prefix_refl _
    · exact (written_sendRecord _ _ _).trans (ih _ _ _)

theorem written_call (h : IoscInput) (answers : List SenderAnswer) (c : Call) :
    h.written <+: (h.call answers c).written := by
  cases c with
  | text utf8 => exact written_textLoop _ _ _ _
  | pollTraits gone =>
    show h.written <+: (h.pollTraits gone _).written
    unfold pollTraits
    split
    · exact List.prefix_refl _
    · dsimp only
      split
      · exact written_flushOut _ _
      · split <;> exact written_flushOut _ _
  | motion | button | key | touch | tablet | axis | gesture => exact written_sendRecord _ _ _

end IoscInput

end Xios
