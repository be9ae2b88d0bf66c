import Xios.Audio.Link

/-! What arrives over an audio connection, and where a drain loses the framing of the stream. -/

namespace Xios

/-- What the reference framing of a stream delivers. -/
inductive Framed where
  -- A header of an open stream.
  | reached (m : AudioMsg)
  -- A message, with its whole payload.
  | handled (message : AudioHandled)
  deriving DecidableEq

/-- What the reference framing expects next, before or after a stream is opened. -/
inductive FramedPhase where
  | header (stream : Option AudioStream)
  -- The payload behind a header, one byte more than the number says.
  | payload (stream : Option AudioStream) (m : AudioMsg) (more : Nat)

def framedReached (stream : Option AudioStream) (m : AudioMsg) : List Framed :=
  if stream.isSome then [.reached m] else []

/-- A whole message, reported behind something else. -/
def framedMessage (before : List Framed) (stream : Option AudioStream) (m : AudioMsg)
    (payload : List UInt8) : Verdict FramedPhase Framed :=
  match stream with
  | none =>
    if m.Opens then
      match (AudioOpen.decode payload).stream with
      | none => .stop before
      | some stream =>
        .more (.header (some stream)) (before ++ [.handled (.opened (AudioOpen.decode payload))])
    else .stop before
  | some _ =>
    if m.type = audioMsgData then .more (.header stream) (before ++ [.handled (.data payload)])
    else if m.type = audioMsgDrain then
      .more (.header stream) (before ++ [.handled (.drain payload)])
    else .stop before

/-- The reference framing: behind every header its payload, whatever its type. -/
def framedThread : Reader FramedPhase UInt8 Framed where
  want
    | .header _ => audioMsgSize
    | .payload _ _ more => more + 1
  positive
    | .header _ | .payload _ _ _ => Nat.succ_pos _
  finish
    | .header stream, bytes =>
      let m := AudioMsg.decode bytes
      if m.Malformed then .stop []
      else
        match m.size.toNat with
        | 0 => framedMessage (framedReached stream m) stream m []
        | more + 1 => .more (.payload stream m more) (framedReached stream m)
    | .payload stream m _, bytes => framedMessage [] stream m bytes

def Framed.handled? : Framed → Option AudioHandled
  | .handled message => some message
  | .reached _ => none

def framedHandled (bytes : List UInt8) : List AudioHandled :=
  (framedThread.parse (.header none) bytes).out.filterMap Framed.handled?

@[simp] theorem Framed.handled?_reached (m : AudioMsg) : handled? (.reached m) = none := rfl

@[simp] theorem Framed.handled?_handled (message : AudioHandled) :
    handled? (.handled message) = some message := rfl

/-- No drain among the reported headers has a payload. -/
def DrainsEmptyIn (out : List Framed) : Prop :=
  ∀ m, Framed.reached m ∈ out → m.type = audioMsgDrain → m.size.toNat = 0

/-- No drain that the reference framing reaches has a payload. -/
def DrainsEmpty (bytes : List UInt8) : Prop :=
  DrainsEmptyIn (framedThread.parse (.header none) bytes).out

theorem clientPayload_eq (stream : AudioStream) (payload : List UInt8) :
    clientPayload stream payload = .more (.header stream) [.data payload] := by
  simp [clientPayload, stream.rejects_eq_false]

private theorem client_header (stream : AudioStream) (bytes : List UInt8) :
    clientThread.parse (.header stream) bytes =
      if bytes.length < audioMsgSize then ⟨[], some (.header stream, bytes), []⟩
      else
        clientThread.settle (bytes.drop audioMsgSize)
          (clientHeader stream (AudioMsg.decode (bytes.take audioMsgSize))) :=
  clientThread.parse_eq (.header stream) bytes

private theorem client_payload (stream : AudioStream) (more : Nat) (bytes : List UInt8) :
    clientThread.parse (.payload stream more) bytes =
      if bytes.length < more + 1 then ⟨[], some (.payload stream more, bytes), []⟩
      else
        clientThread.settle (bytes.drop (more + 1))
          (clientPayload stream (bytes.take (more + 1))) :=
  clientThread.parse_eq (.payload stream more) bytes

private theorem client_discard (more : Nat) (bytes : List UInt8) :
    (clientThread.parse (.discard more) bytes).out = [] := by
  rw [clientThread.parse_eq]
  split <;> rfl

private theorem framed_header (stream : AudioStream) (bytes : List UInt8) :
    framedThread.parse (.header (some stream)) bytes =
      if bytes.length < audioMsgSize then ⟨[], some (.header (some stream), bytes), []⟩
      else
        framedThread.settle (bytes.drop audioMsgSize)
          (framedThread.finish (.header (some stream)) (bytes.take audioMsgSize)) :=
  framedThread.parse_eq (.header (some stream)) bytes

private theorem framed_finish (stream : AudioStream) (head : List UInt8) :
    framedThread.finish (.header (some stream)) head =
      if (AudioMsg.decode head).Malformed then .stop []
      else
        match (AudioMsg.decode head).size.toNat with
        | 0 =>
          framedMessage [.reached (AudioMsg.decode head)] (some stream) (AudioMsg.decode head) []
        | more + 1 =>
          .more (.payload (some stream) (AudioMsg.decode head) more)
            [.reached (AudioMsg.decode head)] :=
  rfl

private theorem framed_payload (stream : AudioStream) (m : AudioMsg) (more : Nat)
    (bytes : List UInt8) :
    framedThread.parse (.payload (some stream) m more) bytes =
      if bytes.length < more + 1 then ⟨[], some (.payload (some stream) m more, bytes), []⟩
      else
        framedThread.settle (bytes.drop (more + 1))
          (framedMessage [] (some stream) m (bytes.take (more + 1))) :=
  framedThread.parse_eq (.payload (some stream) m more) bytes

variable {stream : AudioStream} {m : AudioMsg}

private theorem framedMessage_data (data : m.type = audioMsgData) (before : List Framed)
    (payload : List UInt8) :
    framedMessage before (some stream) m payload =
      .more (.header (some stream)) (before ++ [.handled (.data payload)]) := by
  simp [framedMessage, data]

private theorem framedMessage_drain (drain : m.type = audioMsgDrain) (before : List Framed)
    (payload : List UInt8) :
    framedMessage before (some stream) m payload =
      .more (.header (some stream)) (before ++ [.handled (.drain payload)]) := by
  have data : audioMsgDrain ≠ audioMsgData := by decide
  simp [framedMessage, drain, data]

private theorem framedMessage_other (data : m.type ≠ audioMsgData)
    (drain : m.type ≠ audioMsgDrain) (before : List Framed) (payload : List UInt8) :
    framedMessage before (some stream) m payload = .stop before := by
  simp [framedMessage, data, drain]

variable {bytes : List UInt8}

private theorem framed_other (stream : AudioStream) (full : ¬bytes.length < audioMsgSize)
    (here : AudioMsg.decode (bytes.take audioMsgSize) = m) (formed : ¬m.Malformed)
    (data : m.type ≠ audioMsgData) (drain : m.type ≠ audioMsgDrain) :
    (framedThread.parse (.header (some stream)) bytes).out = [.reached m] := by
  rw [framed_header, if_neg full, framed_finish, here, if_neg formed]
  cases m.size.toNat with
  | zero => simp [framedMessage_other data drain]
  | succ more =>
    -- Whether or not the payload is complete, nothing is reported for it.
    simp only [Reader.settle_more, Reader.Outcome.prepend, framed_payload,
      framedMessage_other data drain]
    split <;> rfl

private theorem client_other (stream : AudioStream) (full : ¬bytes.length < audioMsgSize)
    (here : AudioMsg.decode (bytes.take audioMsgSize) = m) (data : m.type ≠ audioMsgData)
    (drain : m.type ≠ audioMsgDrain) : (clientThread.parse (.header stream) bytes).out = [] := by
  rw [client_header, if_neg full, here, clientHeader]
  by_cases formed : m.Malformed
  · rw [if_pos formed]
    rfl
  by_cases close : m.type = audioMsgClose
  · rw [if_neg formed, if_pos close]
    rfl
  rw [if_neg formed, if_neg close, if_neg drain, if_neg data]
  cases m.size.toNat with
  | zero => rfl
  | succ more => exact client_discard more _

private theorem client_drain (stream : AudioStream) (full : ¬bytes.length < audioMsgSize)
    (here : AudioMsg.decode (bytes.take audioMsgSize) = m) (formed : ¬m.Malformed)
    (drain : m.type = audioMsgDrain) :
    clientThread.parse (.header stream) bytes =
      (clientThread.parse (.header stream) (bytes.drop audioMsgSize)).prepend [.drain []] := by
  have close : m.type ≠ audioMsgClose := by simp [drain, audioMsgDrain, audioMsgClose]
  rw [client_header, if_neg full, here, clientHeader, if_neg formed, if_neg close, if_pos drain]
  rfl

private theorem both_data (stream : AudioStream) (full : ¬bytes.length < audioMsgSize)
    (here : AudioMsg.decode (bytes.take audioMsgSize) = m) (formed : ¬m.Malformed)
    (data : m.type = audioMsgData) :
    (clientThread.parse (.header stream) bytes).out = [] ∧
        (framedThread.parse (.header (some stream)) bytes).out = [.reached m] ∨
      ∃ payload rest, rest.length < bytes.length ∧
        clientThread.parse (.header stream) bytes =
          (clientThread.parse (.header stream) rest).prepend [.data payload] ∧
        framedThread.parse (.header (some stream)) bytes =
          (framedThread.parse (.header (some stream)) rest).prepend
            [.reached m, .handled (.data payload)] := by
  have close : m.type ≠ audioMsgClose := by simp [data, audioMsgData, audioMsgClose]
  have drain : m.type ≠ audioMsgDrain := by simp [data, audioMsgData, audioMsgDrain]
  have shorter : (bytes.drop audioMsgSize).length < bytes.length := by
    simp only [List.length_drop, audioMsgSize] at full ⊢
    omega
  rw [client_header, if_neg full, here, clientHeader, if_neg formed, if_neg close, if_neg drain,
    if_pos data, framed_header, if_neg full, framed_finish, here, if_neg formed]
  cases m.size.toNat with
  | zero =>
    -- Both are done with the message at once.
    refine .inr ⟨[], bytes.drop audioMsgSize, shorter, ?_, ?_⟩
    · simp [clientPayload_eq]
    · simp [framedMessage_data data]
  | succ more =>
    simp only [Reader.settle_more, client_payload, framed_payload]
    by_cases short : (bytes.drop audioMsgSize).length < more + 1
    · rw [if_pos short, if_pos short]
      exact .inl ⟨rfl, rfl⟩
    · rw [if_neg short, if_neg short]
      refine .inr ⟨(bytes.drop audioMsgSize).take (more + 1),
        (bytes.drop audioMsgSize).drop (more + 1), by simp at shorter ⊢; omega, ?_, ?_⟩
      · simp [Reader.Outcome.prepend, clientPayload_eq]
      · simp [Reader.Outcome.prepend, framedMessage_data data]

private theorem framed_drain (stream : AudioStream) {more : Nat}
    (full : ¬bytes.length < audioMsgSize) (here : AudioMsg.decode (bytes.take audioMsgSize) = m)
    (formed : ¬m.Malformed) (drain : m.type = audioMsgDrain) (size : m.size.toNat = more + 1) :
    ∃ later, (framedThread.parse (.header (some stream)) bytes).out = .reached m :: later ∧
      ∀ rest, later.filterMap Framed.handled? ≠ .drain [] :: rest := by
  rw [framed_header, if_neg full, framed_finish, here, if_neg formed, size]
  simp only [Reader.settle_more, framed_payload, framedMessage_drain drain]
  by_cases short : (bytes.drop audioMsgSize).length < more + 1
  · rw [if_pos short]
    exact ⟨[], rfl, fun rest => by simp⟩
  · rw [if_neg short]
    refine ⟨.handled (.drain ((bytes.drop audioMsgSize).take (more + 1))) ::
      (framedThread.parse (.header (some stream))
        ((bytes.drop audioMsgSize).drop (more + 1))).out, rfl, fun rest same => ?_⟩
    have whole : ((bytes.drop audioMsgSize).take (more + 1)).length = more + 1 := by
      simp only [List.length_take, List.length_drop] at short ⊢
      omega
    simp only [List.filterMap_cons, Framed.handled?_handled, List.cons.injEq,
      AudioHandled.drain.injEq] at same
    rw [same.1] at whole
    cases whole

private theorem handled_eq_iff_from (stream : AudioStream) (bytes : List UInt8) :
    (clientThread.parse (.header stream) bytes).out =
        (framedThread.parse (.header (some stream)) bytes).out.filterMap Framed.handled? ↔
      DrainsEmptyIn (framedThread.parse (.header (some stream)) bytes).out := by
  -- The induction is on the stream, message by message of the reference framing.
  induction size : bytes.length using Nat.strongRecOn generalizing bytes with
  | ind n ih =>
    by_cases full : bytes.length < audioMsgSize
    · rw [client_header, framed_header, if_pos full, if_pos full]
      simp [DrainsEmptyIn]
    have less : (bytes.drop audioMsgSize).length < n := by
      simp only [List.length_drop, audioMsgSize] at full ⊢
      omega
    obtain ⟨m, here⟩ : ∃ m, AudioMsg.decode (bytes.take audioMsgSize) = m := ⟨_, rfl⟩
    by_cases formed : m.Malformed
    · rw [client_header, framed_header, if_neg full, if_neg full, framed_finish, here, clientHeader,
        if_pos formed, if_pos formed]
      simp [DrainsEmptyIn]
    by_cases data : m.type = audioMsgData
    · have other : m.type ≠ audioMsgDrain := by simp [data, audioMsgData, audioMsgDrain]
      obtain ⟨client, framed⟩ | ⟨payload, rest, shorter, client, framed⟩ :=
        both_data stream full here formed data
      · rw [client, framed]
        simp [DrainsEmptyIn, other]
      · have later := ih rest.length (by omega) rest rfl
        rw [client, framed]
        simpa [DrainsEmptyIn, Reader.Outcome.prepend, List.filterMap_cons, other] using later
    by_cases drain : m.type = audioMsgDrain
    · rw [client_drain stream full here formed drain]
      cases empty : m.size.toNat with
      | zero =>
        have later := ih _ less (bytes.drop audioMsgSize) rfl
        rw [framed_header, if_neg full, framed_finish, here, if_neg formed, empty]
        simpa [framedMessage_drain drain, DrainsEmptyIn, Reader.Outcome.prepend,
          List.filterMap_cons, empty] using later
      | succ more =>
        -- The two readers already differ in what they take for this message.
        obtain ⟨later, framed, differs⟩ := framed_drain stream full here formed drain empty
        rw [framed]
        constructor
        · intro same
          simp only [Reader.Outcome.prepend, List.filterMap_cons, Framed.handled?_reached] at same
          exact absurd same.symm (differs _)
        · intro allEmpty
          have zero := allEmpty m List.mem_cons_self drain
          omega
    · rw [client_other stream full here data drain, framed_other stream full here formed data drain]
      simp [DrainsEmptyIn, drain]

private theorem client_first (bytes : List UInt8) :
    clientThread.parse .first bytes =
      if bytes.length < audioMsgSize then ⟨[], some (.first, bytes), []⟩
      else
        clientThread.settle (bytes.drop audioMsgSize)
          (if (AudioMsg.decode (bytes.take audioMsgSize)).Opens then .more .opening []
          else .stop []) :=
  clientThread.parse_eq .first bytes

private theorem client_opening (bytes : List UInt8) :
    clientThread.parse .opening bytes =
      if bytes.length < audioOpenSize then ⟨[], some (.opening, bytes), []⟩
      else
        match (AudioOpen.decode (bytes.take audioOpenSize)).stream with
        | none => ⟨[], none, bytes.drop audioOpenSize⟩
        | some stream =>
          (clientThread.parse (.header stream) (bytes.drop audioOpenSize)).prepend
            [.opened (AudioOpen.decode (bytes.take audioOpenSize))] := by
  rw [show clientThread.parse .opening bytes =
    if bytes.length < audioOpenSize then ⟨[], some (.opening, bytes), []⟩
    else clientThread.settle (bytes.drop audioOpenSize)
      (clientThread.finish .opening (bytes.take audioOpenSize)) from
    clientThread.parse_eq .opening bytes]
  cases opened : (AudioOpen.decode (bytes.take audioOpenSize)).stream with
  | none => simp [clientThread, opened]
  | some stream => simp [clientThread, opened]

private theorem framed_first (bytes : List UInt8) :
    framedThread.parse (.header none) bytes =
      if bytes.length < audioMsgSize then ⟨[], some (.header none, bytes), []⟩
      else
        framedThread.settle (bytes.drop audioMsgSize)
          (if (AudioMsg.decode (bytes.take audioMsgSize)).Malformed then .stop []
          else
            match (AudioMsg.decode (bytes.take audioMsgSize)).size.toNat with
            | 0 => framedMessage [] none (AudioMsg.decode (bytes.take audioMsgSize)) []
            | more + 1 =>
              .more (.payload none (AudioMsg.decode (bytes.take audioMsgSize)) more) []) :=
  framedThread.parse_eq (.header none) bytes

private theorem framed_first_payload (m : AudioMsg) (more : Nat) (bytes : List UInt8) :
    framedThread.parse (.payload none m more) bytes =
      if bytes.length < more + 1 then ⟨[], some (.payload none m more, bytes), []⟩
      else
        framedThread.settle (bytes.drop (more + 1))
          (framedMessage [] none m (bytes.take (more + 1))) :=
  framedThread.parse_eq (.payload none m more) bytes

private theorem framed_first_other (full : ¬bytes.length < audioMsgSize)
    (here : AudioMsg.decode (bytes.take audioMsgSize) = m) (opens : ¬m.Opens) :
    (framedThread.parse (.header none) bytes).out = [] := by
  have refused : ∀ payload, framedMessage [] none m payload = .stop [] := by
    intro payload
    simp [framedMessage, opens]
  rw [framed_first, if_neg full, here]
  by_cases formed : m.Malformed
  · rw [if_pos formed]
    rfl
  rw [if_neg formed]
  cases m.size.toNat with
  | zero => simp [refused]
  | succ more =>
    simp only [Reader.settle_more, framed_first_payload, refused]
    split <;> rfl

private theorem framed_opening (full : ¬bytes.length < audioMsgSize)
    (here : AudioMsg.decode (bytes.take audioMsgSize) = m) (opens : m.Opens) :
    framedThread.parse (.header none) bytes =
      if (bytes.drop audioMsgSize).length < audioOpenSize then
        ⟨[], some (.payload none m 15, bytes.drop audioMsgSize), []⟩
      else
        match (AudioOpen.decode ((bytes.drop audioMsgSize).take audioOpenSize)).stream with
        | none => ⟨[], none, (bytes.drop audioMsgSize).drop audioOpenSize⟩
        | some stream =>
          (framedThread.parse (.header (some stream))
            ((bytes.drop audioMsgSize).drop audioOpenSize)).prepend
            [.handled (.opened (AudioOpen.decode ((bytes.drop audioMsgSize).take audioOpenSize)))]
      := by
  have size : m.size.toNat = 15 + 1 := opens.2.2.2
  have formed : ¬m.Malformed := by simp [AudioMsg.Malformed, opens.1, opens.2.1, size, maxPayload]
  rw [framed_first, if_neg full, here, if_neg formed, size]
  simp only [Reader.settle_more, Reader.Outcome.prepend_nil, framed_first_payload]
  rw [show audioOpenSize = 15 + 1 from rfl]
  cases opened : (AudioOpen.decode ((bytes.drop audioMsgSize).take (15 + 1))).stream with
  | none => simp [framedMessage, opens, opened]
  | some stream => simp [framedMessage, opens, opened]

/--
The daemon acts on the messages of the reference framing exactly if no drain has a payload.

Every message is compared with the payload that was taken for it.
-/
private theorem clientHandled_eq_iff (bytes : List UInt8) :
    clientHandled bytes = framedHandled bytes ↔ DrainsEmpty bytes := by
  unfold clientHandled framedHandled DrainsEmpty
  rw [client_first]
  by_cases full : bytes.length < audioMsgSize
  · rw [framed_first, if_pos full, if_pos full]
    simp [DrainsEmptyIn]
  obtain ⟨m, here⟩ : ∃ m, AudioMsg.decode (bytes.take audioMsgSize) = m := ⟨_, rfl⟩
  rw [if_neg full, here]
  by_cases opens : m.Opens
  · rw [if_pos opens, framed_opening full here opens, Reader.settle_more,
      Reader.Outcome.prepend_nil, client_opening]
    by_cases short : (bytes.drop audioMsgSize).length < audioOpenSize
    · rw [if_pos short, if_pos short]
      simp [DrainsEmptyIn]
    rw [if_neg short, if_neg short]
    cases (AudioOpen.decode ((bytes.drop audioMsgSize).take audioOpenSize)).stream with
    | none => simp [DrainsEmptyIn]
    | some stream =>
      -- Behind the opening message both read the same open stream.
      have later := handled_eq_iff_from stream ((bytes.drop audioMsgSize).drop audioOpenSize)
      simpa [DrainsEmptyIn, Reader.Outcome.prepend, List.filterMap_cons] using later
  · rw [if_neg opens, framed_first_other full here opens]
    simp [DrainsEmptyIn]

private theorem writeFull_spec (length done : Nat) (plan : List AttemptResult)
    (inside : done ≤ length) :
    (writeFull length done plan).2 ≤ length ∧
      ((writeFull length done plan).1 = some .ok ↔ (writeFull length done plan).2 = length) := by
  -- The cases are those of the loop, and each attempt leaves the number of bytes in its bound.
  fun_induction writeFull length done plan with
  | case1 done =>
    refine ⟨inside, ?_⟩
    by_cases rest : done < length
    · simp only [rest, ↓reduceIte, reduceCtorEq, false_iff]
      omega
    · simp only [rest, ↓reduceIte, true_iff]
      omega
  | case3 done plan more n ih => exact ih (by omega)
  | case4 done plan more ih | case6 done plan more ih | case7 done plan more ih => exact ih inside
  | case2 | case5 | case8 | case9 =>
    refine ⟨inside, ?_⟩
    simp only [Option.some.injEq, reduceCtorEq, false_iff]
    omega
  | case10 done plan more =>
    exact ⟨inside, by simp only [true_iff]; omega⟩

private theorem xiosSend_spec (type : BitVec 32) (payload : List UInt8)
    (plan : List AttemptResult) :
    xiosSend type payload plan = (some .sent, audioMessage type payload) ∨
      xiosSend type payload plan = (some .dropped, []) ∨
      ∃ result n, xiosSend type payload plan = (result, (audioMessage type payload).take n) ∧
        n < (audioMessage type payload).length ∧ (result = none ∨ result = some .torn) := by
  obtain ⟨inside, all⟩ := writeFull_spec (audioMessage type payload).length 0 plan (Nat.zero_le _)
  unfold xiosSend
  simp only
  generalize writeFull (audioMessage type payload).length 0 plan = written at inside all
  obtain ⟨result, done⟩ := written
  simp only at inside all
  cases result with
  | none => exact .inr (.inr ⟨none, done, rfl, by have := all.mpr; grind, .inl rfl⟩)
  | some result =>
    cases result with
    | ok =>
      rw [all.mp rfl]
      simp
    | timeout =>
      have part : done < (audioMessage type payload).length := by
        have := all.mpr
        grind
      by_cases none : done = 0
      · simp [none]
      · exact .inr (.inr ⟨some .torn, done, by simp [none], part, .inr rfl⟩)
    | error =>
      have part : done < (audioMessage type payload).length := by
        have := all.mpr
        grind
      exact .inr (.inr ⟨some .torn, done, rfl, part, .inr rfl⟩)

def audioHeader (type : BitVec 32) (payload : List UInt8) : AudioMsg :=
  ⟨audioMagic, audioVersion, type, BitVec.ofNat 32 payload.length⟩

private theorem length_audioMessage (type : BitVec 32) (payload : List UInt8) :
    (audioMessage type payload).length = audioMsgSize + payload.length := by
  simp [audioMessage]

private theorem audioMessage_drop (type : BitVec 32) (payload : List UInt8) (n : Nat) :
    ((audioMessage type payload).take (audioMsgSize + n)).drop audioMsgSize = payload.take n := by
  rw [audioMessage, ← AudioMsg.length_encode ⟨audioMagic, audioVersion, type,
    BitVec.ofNat 32 payload.length⟩, List.take_length_add_append, List.drop_left]

private theorem audioMessage_head (type : BitVec 32) (payload : List UInt8) (n : Nat) :
    AudioMsg.decode (((audioMessage type payload).take (audioMsgSize + n)).take audioMsgSize) =
      audioHeader type payload := by
  rw [audioMessage, ← AudioMsg.length_encode ⟨audioMagic, audioVersion, type,
    BitVec.ofNat 32 payload.length⟩, List.take_length_add_append, List.take_left]
  exact AudioMsg.decode_encode _

variable {type : BitVec 32} {payload : List UInt8}

private theorem audioHeader_size (fits : payload.length ≤ maxPayload) :
    (audioHeader type payload).size.toNat = payload.length := by
  simp only [audioHeader, maxPayload] at fits ⊢
  rw [BitVec.toNat_ofNat, Nat.mod_eq_of_lt (by omega)]

private theorem audioHeader_formed (fits : payload.length ≤ maxPayload) :
    ¬(audioHeader type payload).Malformed := by
  simp only [AudioMsg.Malformed, audioHeader_size fits]
  simpa [audioHeader] using fits

private theorem client_message (stream : AudioStream) (type : BitVec 32) (payload : List UInt8)
    (n : Nat) :
    clientThread.parse (.header stream) ((audioMessage type payload).take (audioMsgSize + n)) =
      clientThread.settle (payload.take n) (clientHeader stream (audioHeader type payload)) := by
  have full : ¬((audioMessage type payload).take (audioMsgSize + n)).length < audioMsgSize := by
    rw [List.length_take, length_audioMessage]
    omega
  rw [client_header, if_neg full, audioMessage_drop, audioMessage_head]

/-- What any first part of one message makes the server do. -/
private theorem client_message_spec (stream : AudioStream) (fits : payload.length ≤ maxPayload)
    (drain : type = audioMsgDrain → payload = [])
    (kind : type = audioMsgData ∨ type = audioMsgDrain ∨ type = audioMsgClose) (n : Nat) :
    let outcome := clientThread.parse (.header stream) ((audioMessage type payload).take n)
    (outcome.waiting = none ∧ type = audioMsgClose ∧ outcome.out = []) ∨
      n < (audioMessage type payload).length ∧ outcome.waiting.isSome = true ∧ outcome.out = [] ∨
      (audioMessage type payload).length ≤ n ∧ outcome.waiting = some (.header stream, []) ∧
        outcome.out.filterMap AudioHandled.payload? =
          if type = audioMsgData then [payload] else [] := by
  intro outcome
  have size := length_audioMessage type payload
  have nothing : clientThread.parse (.header stream) [] = ⟨[], some (.header stream, []), []⟩ :=
    clientThread.parse_nil _
  by_cases short : n < audioMsgSize
  · -- Not even the header is there.
    have waits : outcome = ⟨[], some (.header stream, (audioMessage type payload).take n), []⟩ := by
      show clientThread.parse _ _ = _
      rw [client_header, if_pos (by rw [List.length_take]; omega)]
    exact .inr (.inl ⟨by omega, by rw [waits]; rfl, by rw [waits]⟩)
  obtain ⟨k, rfl⟩ := Nat.exists_eq_add_of_le (Nat.le_of_not_lt short)
  have read : outcome = clientThread.settle (payload.take k)
      (clientHeader stream (audioHeader type payload)) := client_message stream type payload k
  rw [clientHeader, if_neg (audioHeader_formed fits), audioHeader_size fits] at read
  obtain rfl | rfl | rfl := kind
  · cases length : payload.length with
    | zero =>
      obtain rfl := List.eq_nil_of_length_eq_zero length
      have ended : outcome = ⟨[.data []], some (.header stream, []), []⟩ := by
        rw [read]
        simp [audioHeader, audioMsgData, audioMsgClose, audioMsgDrain, clientPayload_eq, nothing,
          Reader.Outcome.prepend]
      exact .inr (.inr ⟨by omega, by rw [ended], by rw [ended]; rfl⟩)
    | succ more =>
      have waits : outcome = clientThread.parse (.payload stream more) (payload.take k) := by
        rw [read, length]
        simp [audioHeader, audioMsgData, audioMsgClose, audioMsgDrain]
      rw [client_payload, List.length_take, length] at waits
      by_cases part : k < more + 1
      · rw [if_pos (by omega)] at waits
        exact .inr (.inl ⟨by omega, by rw [waits]; rfl, by rw [waits]⟩)
      · have whole : payload.take k = payload := List.take_of_length_le (by omega)
        have all : payload.take (more + 1) = payload := List.take_of_length_le (by omega)
        have rest : payload.drop (more + 1) = [] := List.drop_eq_nil_of_le (by omega)
        rw [if_neg (by omega), whole, all, rest, clientPayload_eq, Reader.settle_more,
          nothing] at waits
        exact .inr (.inr ⟨by omega, by rw [waits]; rfl, by rw [waits]; rfl⟩)
  · obtain rfl := drain rfl
    have ended : outcome = ⟨[.drain []], some (.header stream, []), []⟩ := by
      rw [read]
      simp [audioHeader, audioMsgClose, audioMsgDrain, nothing, Reader.Outcome.prepend]
    exact .inr (.inr ⟨by simp [size], by rw [ended], by rw [ended]; rfl⟩)
  · have stopped : outcome = ⟨[], none, payload.take k⟩ := by
      rw [read]
      simp [audioHeader]
    exact .inl ⟨by rw [stopped], rfl, by rw [stopped]⟩

private theorem client_open_spec (fits : payload.length = audioOpenSize) (n : Nat) :
    let outcome := clientThread.parse .first ((audioMessage audioMsgOpen payload).take n)
    outcome.out.filterMap AudioHandled.payload? = [] ∧
      (outcome.waiting = none ∧ (AudioOpen.decode payload).stream = none ∨
        n < (audioMessage audioMsgOpen payload).length ∧ outcome.waiting.isSome = true ∨
        ∃ stream, outcome.waiting = some (.header stream, [])) := by
  intro outcome
  have size := length_audioMessage audioMsgOpen payload
  by_cases short : n < audioMsgSize
  · have waits : outcome = ⟨[], some (.first, (audioMessage audioMsgOpen payload).take n), []⟩ := by
      show clientThread.parse _ _ = _
      rw [client_first, if_pos (by rw [List.length_take]; omega)]
    exact ⟨by rw [waits]; rfl, .inr (.inl ⟨by omega, by rw [waits]; rfl⟩)⟩
  obtain ⟨k, rfl⟩ := Nat.exists_eq_add_of_le (Nat.le_of_not_lt short)
  have opens : (audioHeader audioMsgOpen payload).Opens := by
    have announced : (audioHeader audioMsgOpen payload).size.toNat = payload.length :=
      audioHeader_size (by rw [fits]; decide)
    exact ⟨rfl, rfl, rfl, by rw [announced, fits]⟩
  have read : outcome = clientThread.parse .opening (payload.take k) := by
    show clientThread.parse _ _ = _
    rw [client_first, if_neg (by rw [List.length_take]; omega), audioMessage_drop,
      audioMessage_head, if_pos opens]
    rfl
  rw [client_opening, List.length_take, fits] at read
  by_cases part : k < audioOpenSize
  · rw [if_pos (by omega)] at read
    exact ⟨by rw [read]; rfl, .inr (.inl ⟨by omega, by rw [read]; rfl⟩)⟩
  · have whole : payload.take k = payload := List.take_of_length_le (by omega)
    have all : payload.take audioOpenSize = payload := List.take_of_length_le (by omega)
    have rest : payload.drop audioOpenSize = [] := List.drop_eq_nil_of_le (by omega)
    rw [if_neg (by omega), whole, all, rest] at read
    cases opened : (AudioOpen.decode payload).stream with
    | none =>
      rw [opened] at read
      exact ⟨by rw [read]; rfl, .inl ⟨by rw [read], rfl⟩⟩
    | some stream =>
      rw [opened] at read
      simp only [clientThread.parse_nil (.header stream)] at read
      exact ⟨by rw [read]; rfl, .inr (.inr ⟨stream, by rw [read]; rfl⟩)⟩

private theorem client_first_other (payload : List UInt8) (other : type ≠ audioMsgOpen) (n : Nat) :
    let outcome := clientThread.parse .first ((audioMessage type payload).take n)
    outcome.out = [] ∧
      (outcome.waiting = none ∨
        n < (audioMessage type payload).length ∧ outcome.waiting.isSome = true) := by
  intro outcome
  have size := length_audioMessage type payload
  by_cases short : n < audioMsgSize
  · have waits : outcome = ⟨[], some (.first, (audioMessage type payload).take n), []⟩ := by
      show clientThread.parse _ _ = _
      rw [client_first, if_pos (by rw [List.length_take]; omega)]
    exact ⟨by rw [waits], .inr ⟨by omega, by rw [waits]; rfl⟩⟩
  obtain ⟨k, rfl⟩ := Nat.exists_eq_add_of_le (Nat.le_of_not_lt short)
  have refused : ¬(audioHeader type payload).Opens := fun opens => other opens.2.2.1
  have stopped : outcome = ⟨[], none, payload.take k⟩ := by
    show clientThread.parse _ _ = _
    rw [client_first, if_neg (by rw [List.length_take]; omega), audioMessage_drop,
      audioMessage_head, if_neg refused]
    rfl
  exact ⟨by rw [stopped], .inl (by rw [stopped])⟩

/-- Samples of a message that the sender reported to be out. -/
def AudioCall.delivered? (c : AudioCall) : Option (List UInt8) :=
  if c.type = audioMsgData ∧ c.result = some .sent then some c.payload else none

/-- Samples of all messages that the sender reported to be out. -/
def delivered (calls : List AudioCall) : List (List UInt8) :=
  calls.filterMap AudioCall.delivered?

def AudioLink.passed (s : AudioLink) : List (List UInt8) :=
  s.calls.filterMap fun c => if c.type = audioMsgData then some c.payload else none

/-- The message that opens the stream was dropped, or asks for what the daemon does not support. -/
def OpenRefused (calls : List AudioCall) : Prop :=
  ∃ first rest, calls = first :: rest ∧
    (first.result = some .dropped ∨ (AudioOpen.decode first.payload).stream = none)

/-- The daemon closes its end: the stream was never open, or a closing message ended it. -/
def DaemonCloses (calls : List AudioCall) (ingested : List (List UInt8)) : Prop :=
  OpenRefused calls ∧ ingested = [] ∨
    ∃ before close after, calls = before ++ close :: after ∧ close.type = audioMsgClose ∧
      close.result ≠ some .dropped ∧ ingested = delivered before

/-- What arrives is intact, and what is missing was dropped whole or lies behind the end. -/
structure AudioLink.Intact (s : AudioLink) : Prop where
  -- The daemon ingests what was sent, in order and byte for byte, up to some message.
  arrives : s.ingested <+: delivered s.calls
  -- Every message was sent or dropped whole, except one behind which there are no others.
  accounted : ∀ before c after, s.calls = before ++ c :: after →
    c.result = some .sent ∨ c.result = some .dropped ∨ after = []
  -- A daemon that has read everything and still reads has ingested everything that was sent.
  complete : s.buffer = [] → s.daemon.waiting.isSome = true → s.ingested = delivered s.calls
  -- Otherwise it closed its end for a reason.
  closes : s.daemon.waiting = none → DaemonCloses s.calls s.ingested

private theorem delivered_concat (calls : List AudioCall) (c : AudioCall) :
    delivered (calls ++ [c]) = delivered calls ++ c.delivered?.toList := by
  rw [delivered, List.filterMap_append, ← delivered]
  cases taken : c.delivered? <;> simp [taken]

theorem delivered_sublist (s : AudioLink) : (delivered s.calls).Sublist s.passed := by
  unfold delivered AudioLink.passed
  induction s.calls with
  | nil => exact List.Sublist.slnil
  | cons c calls ih =>
    by_cases data : c.type = audioMsgData
    · by_cases sent : c.result = some .sent
      · simpa [AudioCall.delivered?, data, sent] using ih
      · simpa [AudioCall.delivered?, data, sent] using ih.cons c.payload
    · simpa [AudioCall.delivered?, data] using ih

variable {calls : List AudioCall}

variable {ingested : List (List UInt8)}

private theorem DaemonCloses.append (closes : DaemonCloses calls ingested) (more : List AudioCall) :
    DaemonCloses (calls ++ more) ingested := by
  obtain ⟨⟨first, rest, rfl, lost⟩, none⟩ | ⟨before, close, after, rfl, kind, reached, some⟩ :=
    closes
  · exact .inl ⟨⟨first, rest ++ more, rfl, lost⟩, none⟩
  · exact .inr ⟨before, close, after ++ more, by simp, kind, reached, some⟩

private theorem DaemonCloses.ingested_begins (closes : DaemonCloses calls ingested) :
    ingested <+: delivered calls := by
  obtain ⟨-, rfl⟩ | ⟨before, close, after, rfl, -, -, rfl⟩ := closes
  · exact List.nil_prefix
  · rw [delivered, delivered, List.filterMap_append]
    exact List.prefix_append _ _

private abbrev payloads (outcome : Reader.Outcome ClientPhase UInt8 AudioHandled) :
    List (List UInt8) :=
  outcome.out.filterMap AudioHandled.payload?

/-- Where the daemon will stand when it has read everything that is on its way. -/
private def AudioLink.whole (s : AudioLink) : Reader.Outcome ClientPhase UInt8 AudioHandled :=
  clientThread.parse .first (s.seen ++ s.buffer)

/-- The daemon will stand between two messages, or has closed its end. -/
private def BetweenMessages (outcome : Reader.Outcome ClientPhase UInt8 AudioHandled)
    (calls : List AudioCall) : Prop :=
  outcome.waiting = none ∨
    outcome = ⟨[], some (.first, []), []⟩ ∧ (calls = [] ∨ OpenRefused calls) ∨
    ∃ stream, outcome.waiting = some (.header stream, []) ∧ calls ≠ []

/-- What holds of a connection at any time. -/
private structure Kept (s : AudioLink) : Prop where
  -- The daemon stands where the bytes it has read take it.
  daemon : s.daemon = clientThread.parse .first s.seen
  -- Unless it closes its end, it will have ingested everything that was sent.
  flows : s.whole.waiting.isSome = true → payloads s.whole = delivered s.calls
  closes : s.whole.waiting = none → DaemonCloses s.calls (payloads s.whole)
  -- Messages are written one after the other.
  between : s.up = true → BetweenMessages s.whole s.calls
  finished : s.up = true → ∀ c ∈ s.calls, c.result = some .sent ∨ c.result = some .dropped
  accounted : ∀ before c after, s.calls = before ++ c :: after →
    c.result = some .sent ∨ c.result = some .dropped ∨ after = []

private theorem kept_start : Kept {} where
  daemon := rfl
  flows _ := rfl
  closes stopped := by cases stopped
  between _ := .inr (.inl ⟨rfl, .inl rfl⟩)
  finished _ c member := by cases member
  accounted before c after split := by simp at split

variable {s : AudioLink}

private theorem Kept.intact (kept : Kept s) : s.Intact := by
  have part : s.seen <+: s.seen ++ s.buffer := List.prefix_append _ _
  have early : s.ingested <+: payloads s.whole := by
    rw [AudioLink.ingested, kept.daemon]
    exact (clientThread.parse_out_prefix .first part).filterMap _
  have closed : s.daemon.waiting = none →
      s.whole.waiting = none ∧ payloads s.whole = s.ingested := by
    intro stopped
    rw [kept.daemon] at stopped
    obtain ⟨ended, same⟩ := clientThread.parse_of_stopped_part .first part stopped
    exact ⟨ended, by rw [AudioLink.ingested, kept.daemon, payloads, AudioLink.whole, same]⟩
  refine ⟨?_, kept.accounted, ?_, ?_⟩
  · cases stands : s.whole.waiting with
    | none => exact early.trans (kept.closes stands).ingested_begins
    | some pending => exact kept.flows (by rw [stands]; rfl) ▸ early
  · intro empty reads
    have all : s.whole = s.daemon := by rw [kept.daemon, AudioLink.whole, empty, List.append_nil]
    have flows := kept.flows
    rw [all] at flows
    exact flows reads
  · intro stopped
    obtain ⟨ended, same⟩ := closed stopped
    exact same ▸ kept.closes ended

private theorem Kept.read (kept : Kept s) (count : Nat) : Kept (s.read count) := by
  have whole : (s.read count).whole = s.whole := by
    simp [AudioLink.whole, AudioLink.read, List.append_assoc]
  refine ⟨?_, ?_, ?_, ?_, kept.finished, kept.accounted⟩
  · show s.daemon.resume clientThread _ = clientThread.parse .first (s.seen ++ _)
    rw [clientThread.parse_append, kept.daemon]
  · rw [whole]
    exact kept.flows
  · rw [whole]
    exact kept.closes
  · rw [whole]
    exact kept.between

private theorem Kept.disconnect (kept : Kept s) : Kept { s with up := false } where
  daemon := kept.daemon
  flows := kept.flows
  closes := kept.closes
  between up := by cases up
  finished up := by cases up
  accounted := kept.accounted

/-- What a message adds to where the daemon will stand. -/
private structure Extends (calls : List AudioCall) (c : AudioCall)
    (outcome : Reader.Outcome ClientPhase UInt8 AudioHandled) : Prop where
  flows : outcome.waiting.isSome = true → payloads outcome = delivered (calls ++ [c])
  closes : outcome.waiting = none → DaemonCloses (calls ++ [c]) (payloads outcome)
  between : c.result = some .sent ∨ c.result = some .dropped →
    BetweenMessages outcome (calls ++ [c])

variable {outcome : Reader.Outcome ClientPhase UInt8 AudioHandled}

private theorem extends_dropped
    (flows : outcome.waiting.isSome = true → payloads outcome = delivered calls)
    (closes : outcome.waiting = none → DaemonCloses calls (payloads outcome))
    (between : BetweenMessages outcome calls) : Extends calls ⟨type, payload, some .dropped⟩ outcome where
  flows waits := by
    rw [flows waits, delivered, delivered, List.filterMap_append]
    simp [AudioCall.delivered?]
  closes stopped := (closes stopped).append _
  between _ := by
    obtain stopped | ⟨start, none | ⟨first, rest, rfl, lost⟩⟩ | ⟨stream, waits, some⟩ := between
    · exact .inl stopped
    · -- The message that should have opened the stream is the one that is dropped.
      exact .inr (.inl ⟨start, .inr ⟨_, [], by rw [none]; rfl, .inl rfl⟩⟩)
    · exact .inr (.inl ⟨start, .inr ⟨first, rest ++ [_], rfl, lost⟩⟩)
    · exact .inr (.inr ⟨stream, waits, by simp⟩)

variable {c : AudioCall} {n : Nat}

private theorem extends_stream (flows : payloads outcome = delivered calls)
    (waits : outcome.waiting = some (.header stream, [])) (fits : c.payload.length ≤ maxPayload)
    (drain : c.type = audioMsgDrain → c.payload = [])
    (kind : c.type = audioMsgData ∨ c.type = audioMsgDrain ∨ c.type = audioMsgClose)
    (sent : c.result = some .sent ↔ (audioMessage c.type c.payload).length ≤ n)
    (dropped : c.result ≠ some .dropped) :
    Extends calls c (outcome.resume clientThread ((audioMessage c.type c.payload).take n)) := by
  have resumed : outcome.resume clientThread ((audioMessage c.type c.payload).take n) =
      (clientThread.parse (.header stream) ((audioMessage c.type c.payload).take n)).prepend
        outcome.out := by
    rw [Reader.Outcome.resume, waits]
    rfl
  rw [resumed]
  have spec := client_message_spec stream fits drain kind n
  generalize clientThread.parse (.header stream) ((audioMessage c.type c.payload).take n) = later
    at spec
  obtain ⟨stopped, close, out⟩ | ⟨part, more, out⟩ | ⟨all, next, out⟩ := spec
  · have ended : payloads (later.prepend outcome.out) = delivered calls := by
      simp [payloads, out, ← flows]
    refine ⟨fun goes => ?_, fun _ => ?_, fun _ => .inl stopped⟩
    · simp [stopped] at goes
    · exact .inr ⟨calls, c, [], rfl, close, dropped, ended⟩
  · -- The sender gives the connection up in the middle of the message.
    have unsent : c.result ≠ some .sent := fun complete => by
      have := sent.mp complete
      omega
    refine ⟨fun _ => ?_, fun stopped => ?_, fun complete => ?_⟩
    · simp [delivered_concat, payloads, out, ← flows, AudioCall.delivered?, unsent]
    · rw [Reader.Outcome.waiting_prepend] at stopped
      simp [stopped] at more
    · exact (complete.elim unsent dropped).elim
  · have complete := sent.mpr all
    refine ⟨fun _ => ?_, fun stopped => ?_, fun _ => .inr (.inr ⟨stream, next, by simp⟩)⟩
    · rw [delivered_concat, ← flows, payloads, Reader.Outcome.out_prepend, List.filterMap_append,
        out]
      by_cases data : c.type = audioMsgData <;> simp [AudioCall.delivered?, data, complete]
    · simp [next] at stopped

private theorem extends_first (before : calls = [] ∨ OpenRefused calls) (flows : delivered calls = [])
    (allowed : if calls = [] then c.type = audioMsgOpen ∧ c.payload.length = audioOpenSize
      else c.type = audioMsgData ∨ c.type = audioMsgDrain ∨ c.type = audioMsgClose)
    (sent : c.result = some .sent ↔ (audioMessage c.type c.payload).length ≤ n)
    (dropped : c.result ≠ some .dropped) :
    Extends calls c (clientThread.parse .first ((audioMessage c.type c.payload).take n)) := by
  obtain rfl | refused := before
  · obtain ⟨opens, size⟩ := allowed
    have other : c.type ≠ audioMsgData := by simp [opens, audioMsgOpen, audioMsgData]
    have nothing : delivered ([] ++ [c]) = [] := by simp [delivered, AudioCall.delivered?, other]
    have spec := client_open_spec size n
    rw [← opens] at spec
    generalize clientThread.parse .first ((audioMessage c.type c.payload).take n) = outcome at spec
    obtain ⟨empty, ⟨stopped, refused⟩ | ⟨part, more⟩ | ⟨stream, next⟩⟩ := spec
    · exact ⟨fun _ => empty.trans nothing.symm,
        fun _ => .inl ⟨⟨c, [], rfl, .inr refused⟩, empty⟩, fun _ => .inl stopped⟩
    · refine ⟨fun _ => empty.trans nothing.symm, fun stopped => ?_, fun complete => ?_⟩
      · simp [stopped] at more
      · have unsent : c.result ≠ some .sent := fun complete => by
          have := sent.mp complete
          omega
        exact (complete.elim unsent dropped).elim
    · refine ⟨fun _ => empty.trans nothing.symm, fun stopped => ?_,
        fun _ => .inr (.inr ⟨stream, next, by simp⟩)⟩
      simp [next] at stopped
  · -- The stream was never opened, so the daemon refuses whatever comes instead.
    have begun : calls ≠ [] := by
      obtain ⟨first, rest, rfl, -⟩ := refused
      simp
    rw [if_neg begun] at allowed
    have other : c.type ≠ audioMsgOpen := by
      obtain kind | kind | kind := allowed <;> rw [kind] <;> decide
    have spec := client_first_other c.payload other n
    generalize clientThread.parse .first ((audioMessage c.type c.payload).take n) = outcome at spec
    obtain ⟨out, stopped | ⟨part, more⟩⟩ := spec
    · refine ⟨fun more => ?_, fun _ => ?_, fun _ => .inl stopped⟩
      · simp [stopped] at more
      · obtain ⟨first, rest, rfl, lost⟩ := refused
        exact .inl ⟨⟨first, rest ++ [c], rfl, lost⟩, by simp [payloads, out]⟩
    · have unsent : c.result ≠ some .sent := fun complete => by
        have := sent.mp complete
        omega
      refine ⟨fun _ => ?_, fun stopped => ?_, fun complete => ?_⟩
      · simp [delivered_concat, payloads, out, flows, AudioCall.delivered?, unsent]
      · simp [stopped] at more
      · exact (complete.elim unsent dropped).elim

/-- A message that drains carries nothing. -/
def EmptyDrain : AudioLinkEvent → Prop
  | .send type payload _ => type = audioMsgDrain → payload = []
  | .read _ | .disconnect => True

instance : (event : AudioLinkEvent) → Decidable (EmptyDrain event)
  | .send _ _ _ => inferInstanceAs (Decidable (_ → _))
  | .read _ | .disconnect => inferInstanceAs (Decidable True)

private theorem Kept.extends (kept : Kept s) (up : s.up = true)
    (allowed : s.Allowed c.type c.payload) (drain : c.type = audioMsgDrain → c.payload = [])
    (sent : c.result = some .sent ↔ (audioMessage c.type c.payload).length ≤ n)
    (dropped : c.result ≠ some .dropped) :
    Extends s.calls c (s.whole.resume clientThread ((audioMessage c.type c.payload).take n)) := by
  obtain ⟨fits, kind⟩ := allowed
  obtain stopped | ⟨start, before⟩ | ⟨stream, waits, begun⟩ := kept.between up
  · -- Behind the end nothing is read.
    obtain ⟨ended, same⟩ := Reader.Outcome.resume_stopped clientThread
      ((audioMessage c.type c.payload).take n) stopped
    refine ⟨fun more => ?_, fun _ => ?_, fun _ => .inl ended⟩
    · simp [ended] at more
    · rw [payloads, same]
      exact (kept.closes stopped).append _
  · have flows : delivered s.calls = [] := by
      rw [← kept.flows (by rw [start]; rfl), start]
      rfl
    have resumed : s.whole.resume clientThread ((audioMessage c.type c.payload).take n) =
        clientThread.parse .first ((audioMessage c.type c.payload).take n) := by
      rw [start]
      rfl
    rw [resumed]
    exact extends_first before flows kind sent dropped
  · rw [if_neg begun] at kind
    exact extends_stream (kept.flows (by rw [waits]; rfl)) waits fits drain kind sent dropped

/-- However far a message gets, the daemon has read what its connection carried. -/
private theorem Kept.send (kept : Kept s) (plan : List AttemptResult) (up : s.up = true)
    (allowed : s.Allowed type payload) (drain : type = audioMsgDrain → payload = []) :
    Kept (s.send type payload plan) := by
  obtain ⟨result, bytes, call⟩ : ∃ result bytes, xiosSend type payload plan = (result, bytes) :=
    ⟨_, _, rfl⟩
  have next : s.send type payload plan =
      { s with
        calls := s.calls ++ [⟨type, payload, result⟩]
        up := result == some .sent || result == some .dropped
        buffer := s.buffer ++ bytes } := by
    rw [AudioLink.send, call]
  have whole : (s.send type payload plan).whole = s.whole.resume clientThread bytes := by
    rw [next, AudioLink.whole, AudioLink.whole, ← clientThread.parse_append, List.append_assoc]
  have more : Extends s.calls ⟨type, payload, result⟩ (s.whole.resume clientThread bytes) := by
    obtain spec | spec | ⟨result', n, spec, part, cut⟩ := xiosSend_spec type payload plan
    · rw [spec] at call
      cases call
      have all : (audioMessage type payload).take (audioMessage type payload).length =
          audioMessage type payload := List.take_length
      have grown := kept.extends (c := ⟨type, payload, some .sent⟩)
        (n := (audioMessage type payload).length) up allowed drain (by simp) (by simp)
      rwa [all] at grown
    · rw [spec] at call
      cases call
      have same : s.whole.resume clientThread [] = s.whole := by
        rw [AudioLink.whole, ← clientThread.parse_append, List.append_nil]
      rw [same]
      exact extends_dropped kept.flows kept.closes (kept.between up)
    · rw [spec] at call
      cases call
      have unsent : ¬(audioMessage type payload).length ≤ n := by omega
      exact kept.extends (c := ⟨type, payload, result⟩) up allowed drain
        (by obtain rfl | rfl := cut <;> simpa using unsent)
        (by obtain rfl | rfl := cut <;> simp)
  refine ⟨?_, ?_, ?_, ?_, ?_, ?_⟩
  · rw [next]
    exact kept.daemon
  · rw [whole, next]
    exact more.flows
  · rw [whole, next]
    exact more.closes
  · rw [whole, next]
    intro idle
    exact more.between (by simpa using idle)
  · rw [next]
    intro idle c member
    rcases List.mem_append.mp member with earlier | last
    · exact kept.finished up c earlier
    · rw [List.mem_singleton.mp last]
      simpa using idle
  · rw [next]
    intro before c after split
    -- Only the message that was just passed can be without an end.
    obtain rfl | ⟨after', last, rfl⟩ := List.eq_nil_or_concat' after
    · exact .inr (.inr rfl)
    · have earlier : s.calls = before ++ c :: after' := by
        have same : s.calls ++ [⟨type, payload, result⟩] = (before ++ c :: after') ++ [last] := by
          simpa using split
        exact (List.append_inj' same rfl).1
      exact (kept.finished up c (by simp [earlier])).imp id .inl

private theorem kept_of_run {trace : List AudioLinkEvent}
    (run : (audioLink.restrict fun _ => EmptyDrain).Run trace s) : Kept s := by
  refine run.invariant (fun _ s => Kept s) ?_ ?_
  · rintro s rfl
    exact kept_start
  · intro _ s event kept allowed
    cases event with
    | send type payload plan =>
      exact kept.send plan allowed.1.1 allowed.1.2 allowed.2
    | read count => exact kept.read count
    | disconnect => exact kept.disconnect

/--
What is ingested was passed to the sender, as long as drains have no payload.

On any stream of bytes, exactly such drains are what the daemon takes for another message.
-/
theorem clientThread_ingests {trace : List AudioLinkEvent} {s : AudioLink}
    (run : (audioLink.restrict fun _ => EmptyDrain).Run trace s) (bytes : List UInt8) :
    (s.ingested.Sublist s.passed ∧ s.Intact) ∧
      (clientHandled bytes = framedHandled bytes ↔ DrainsEmpty bytes) := by
  refine ⟨?_, clientHandled_eq_iff bytes⟩
  have intact := (kept_of_run run).intact
  exact ⟨intact.arrives.sublist.trans (delivered_sublist s), intact⟩

/-- Samples pass in two pieces, others are dropped, and the stream is closed. -/
private def pausedScript : List AudioLinkEvent :=
  [.send audioMsgOpen (List.replicate 16 0) [.took 32],
    .send audioMsgDrain [] [.again .ready, .took 16], .read 40,
    .send audioMsgData [1, 2, 3, 4] [.took 18, .intr, .took 2], .read 100,
    .send audioMsgData [5, 6, 7, 8] [.again .timeout],
    .send audioMsgClose [] [.took 16], .read 16]

theorem clientThread_ingests_samples :
    let s := pausedScript.foldl audioLink.next {}
    (s.ingested.Sublist s.passed ∧ s.Intact) ∧ s.ingested = [[1, 2, 3, 4]] := by
  have run : (audioLink.restrict fun _ => EmptyDrain).Run pausedScript.reverse
      (pausedScript.foldl audioLink.next {}) :=
    Machine.Run.of_script (m := audioLink.restrict fun _ => EmptyDrain) rfl pausedScript (by decide)
  exact ⟨(clientThread_ingests run []).1, by decide⟩

/-- The payload of a drain looks like samples. -/
private def driftScript : List AudioLinkEvent :=
  [.send audioMsgOpen (List.replicate 16 0) [.took 32],
    .send audioMsgDrain (audioMessage audioMsgData [7]) [.took 33], .read 65]

/-- A drain with a payload turns what follows it into other messages. -/
theorem not_clientThread_ingests :
    ¬(∀ trace s, audioLink.Run trace s → s.ingested.Sublist s.passed ∧ s.Intact) ∧
      ¬∀ bytes, clientHandled bytes = framedHandled bytes := by
  constructor
  · intro intact
    have run : audioLink.Run driftScript.reverse (driftScript.foldl audioLink.next {}) :=
      Machine.Run.of_script rfl driftScript (by decide)
    -- Samples are ingested although none were passed to the sender.
    exact absurd (intact _ _ run).1 (by decide)
  · intro same
    exact absurd (same (audioMessage audioMsgOpen (List.replicate 16 0) ++
      audioMessage audioMsgDrain [7])) (by decide)

end Xios
