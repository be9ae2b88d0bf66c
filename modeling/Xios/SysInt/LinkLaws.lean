import Xios.Lib.Framing
import Xios.SysInt.Link

/-! Each connection of a link is framed by its own bytes, unless a write fails at the wrong time. -/

namespace Xios

/-- Where in its stream a link's peer is. -/
inductive LinkPhase where
  -- Before the opening record.
  | hello
  -- Before any other record.
  | records
  deriving DecidableEq

def linkReader (id : LinkId) : Reader LinkPhase UInt8 XiosMsg where
  want _ := msgSize
  positive _ := Nat.succ_pos _
  finish
    | .hello, bytes => if (XiosMsg.decode bytes).isExactHello then .more .records [] else .stop []
    | .records, bytes =>
      if SiLink.accepts id (XiosMsg.decode bytes) then .more .records [XiosMsg.decode bytes]
      else .stop []

/-- A connection returned and rejected exactly what its own stream says. -/
structure LinkStream.Faithful (id : LinkId) (stream : LinkStream) : Prop where
  -- The records returned are those of the stream, from its first byte on.
  returned : ((linkReader id).parse .hello stream.received).out = stream.returned
  -- The connection was rejected exactly if the stream breaks the protocol.
  rejected : stream.rejected = true ↔
    ((linkReader id).parse .hello stream.received).waiting = none

namespace SiLink

def phase (l : SiLink) : LinkPhase :=
  if l.helloReceived then .records else .hello

/-- The buffer of an open link holds the unfinished end of its own stream. -/
def Buffers (id : LinkId) (l : SiLink) (stream : LinkStream) : Prop :=
  (linkReader id).parse .hello stream.received = ⟨stream.returned, some (l.phase, l.rx), []⟩ ∧
    stream.rejected = false

/--
A link is framed by connection.

Every connection it has had is faithful to its own stream, and while one is open, the buffer holds
a partial record of that connection's stream and of no other.
-/
structure Framed (id : LinkId) (l : SiLink) : Prop where
  -- No connection ever returned or rejected anything but records of its own stream.
  faithful : ∀ stream ∈ l.streams, stream.Faithful id
  -- The buffer belongs to the open connection.
  buffer : l.isOpen = true → ∃ stream earlier, l.streams = stream :: earlier ∧ l.Buffers id stream

/-- What a link maintains as long as no write fails at the wrong time. -/
structure Sound (id : LinkId) (l : SiLink) : Prop where
  -- The link is framed by connection.
  framed : l.Framed id
  -- A record in progress is never complete already.
  partly : l.rx.length < msgSize
  -- Nothing is left over from a connection that has ended.
  clear : l.isOpen = false → l.rx = []

variable {id : LinkId} {l : SiLink} {stream : LinkStream}

theorem Buffers.faithful (buffers : l.Buffers id stream) : stream.Faithful id := by
  -- The reader is still waiting, so nothing was rejected.
  obtain ⟨parsed, unrejected⟩ := buffers
  refine ⟨by rw [parsed], ?_⟩
  rw [parsed, unrejected]
  simp

theorem sound_fresh (id : LinkId) (configured : Bool) : Sound id { configured } := by
  refine ⟨⟨?_, ?_⟩, ?_, ?_⟩
  · intro stream member
    cases member
  · intro opened
    cases opened
  · exact Nat.succ_pos _
  · intro _
    rfl

theorem Sound.hangUp (sound : l.Sound id) : l.hangUp.Sound id := by
  refine ⟨⟨sound.framed.faithful, ?_⟩, Nat.succ_pos _, fun _ => rfl⟩
  intro opened
  cases opened

theorem Sound.noteSent (sound : l.Sound id) (m : XiosMsg) :
    (l.onStream fun stream => { stream with sent := stream.sent ++ [m] }).Sound id := by
  -- Neither the received nor the returned part of any connection is touched.
  obtain ⟨⟨faithful, buffer⟩, partly, clear⟩ := sound
  cases split : l.streams with
  | nil =>
    simp only [onStream, split]
    exact ⟨⟨faithful, buffer⟩, partly, clear⟩
  | cons stream earlier =>
    rw [split] at faithful buffer
    have newest := faithful stream List.mem_cons_self
    simp only [onStream, split]
    refine ⟨⟨?_, ?_⟩, partly, clear⟩
    · intro other member
      rcases List.mem_cons.mp member with same | older
      · rw [same]
        exact ⟨newest.returned, newest.rejected⟩
      · exact faithful other (List.mem_cons_of_mem _ older)
    · intro opened
      obtain ⟨stream', earlier', same, buffers⟩ := buffer opened
      injection same with heads tails
      subst heads tails
      exact ⟨_, _, rfl, buffers⟩

theorem Sound.sendRaw (sound : l.Sound id) (m : XiosMsg) (writes : List Bool)
    (safe : l.isOpen = true → l.rx ≠ [] → writes.headD true = true) :
    (l.sendRaw m writes).2.1.Sound id ∧ (l.rx = [] → (l.sendRaw m writes).2.1.rx = []) := by
  unfold SiLink.sendRaw
  split
  · exact ⟨sound, fun empty => empty⟩
  · rename_i opened
    split
    · refine ⟨sound.noteSent m, fun empty => ?_⟩
      unfold onStream
      split <;> exact empty
    · -- The failed write closes the connection, whose record must not have begun.
      rename_i failed
      have empty : l.rx = [] := by
        by_contra begun
        exact failed (safe (by simpa using opened) begun)
      refine ⟨⟨⟨sound.framed.faithful, ?_⟩, sound.partly, fun _ => empty⟩, fun _ => empty⟩
      intro reopened
      cases reopened

theorem sendRaw_failed {m : XiosMsg} {writes : List Bool}
    (failed : (l.sendRaw m writes).1 = false) : (l.sendRaw m writes).2.1.isOpen = false := by
  unfold sendRaw at failed ⊢
  split
  · rename_i closed
    simpa using closed
  · rename_i opened
    rw [if_neg opened] at failed
    split
    · rename_i wrote
      rw [if_pos wrote] at failed
      cases failed
    · rfl

theorem Sound.setLastTry (sound : l.Sound id) (now : Nat) : Sound id { l with lastTry := now } :=
  ⟨⟨sound.framed.faithful, sound.framed.buffer⟩, sound.partly, sound.clear⟩

theorem Sound.replay (sound : l.Sound id) (empty : l.rx = []) (remembered : List XiosMsg)
    (writes : List Bool) :
    (l.replay remembered writes).1.Sound id ∧ (l.replay remembered writes).1.rx = [] := by
  -- The induction is on the records left to replay.
  induction remembered generalizing l writes with
  | nil => exact ⟨sound, empty⟩
  | cons m rest ih =>
    obtain ⟨kept, still⟩ := sound.sendRaw m writes fun _ begun => absurd empty begun
    exact ih kept (still empty) _

theorem Sound.connect (sound : l.Sound id) (empty : l.rx = []) (now : Nat) :
    Sound id { l with
      lastTry := now, isOpen := true, helloReceived := false, streams := {} :: l.streams } := by
  -- The new connection has received nothing, which is what the empty buffer says.
  have buffers : Buffers id { l with
      lastTry := now, isOpen := true, helloReceived := false, streams := {} :: l.streams } {} := by
    refine ⟨?_, rfl⟩
    rw [Reader.parse_nil, phase, empty]
    rfl
  refine ⟨⟨?_, fun _ => ⟨_, _, rfl, buffers⟩⟩, sound.partly, ?_⟩
  · intro stream member
    rcases List.mem_cons.mp member with same | older
    · rw [same]
      exact buffers.faithful
    · exact sound.framed.faithful stream older
  · intro closed
    cases closed

theorem Sound.ensure (sound : l.Sound id) (attempt : Attempt) (remembered : List XiosMsg)
    (writes : List Bool) :
    (l.ensure attempt remembered writes).2.1.Sound id ∧
      (l.isOpen = false → (l.ensure attempt remembered writes).2.1.rx = []) ∧
      (l.isOpen = true → l.ensure attempt remembered writes = (true, l, writes)) := by
  unfold SiLink.ensure
  split
  · rename_i opened
    refine ⟨sound, fun closed => ?_, fun _ => rfl⟩
    rw [opened] at closed
    cases closed
  · rename_i closed
    have empty : l.rx = [] := sound.clear (by simpa using closed)
    refine ⟨?_, ?_, fun opened => absurd opened closed⟩
    · split
      · exact sound
      · split
        · exact sound
        · split
          · exact ((sound.connect empty attempt.now).replay empty remembered writes).1
          · exact sound.setLastTry attempt.now
    · intro _
      split
      · exact empty
      · split
        · exact empty
        · split
          · exact ((sound.connect empty attempt.now).replay empty remembered writes).2
          · exact empty

theorem Sound.send (sound : l.Sound id) (m : XiosMsg) (remembered : List XiosMsg)
    (first second : Attempt) {writes : List Bool}
    (safe : l.isOpen = true → l.rx ≠ [] → writes.headD true = true) :
    (l.send m remembered first second writes).Sound id := by
  obtain ⟨ensured, emptied, kept⟩ := sound.ensure first remembered writes
  unfold SiLink.send
  -- A link that was just connected has no partial record, and an open one is as it was.
  have safeNow : (l.ensure first remembered writes).2.1.isOpen = true →
      (l.ensure first remembered writes).2.1.rx ≠ [] →
        (l.ensure first remembered writes).2.2.headD true = true := by
    intro opened begun
    cases before : l.isOpen with
    | false => exact absurd (emptied before) begun
    | true =>
      rw [kept before] at begun ⊢
      exact safe before begun
  generalize l.ensure first remembered writes = attempted at ensured safeNow
  obtain ⟨connected, l', left⟩ := attempted
  simp only at ensured safeNow ⊢
  split
  · exact ensured
  · obtain ⟨wrote, -⟩ := ensured.sendRaw m left safeNow
    have closed : (l'.sendRaw m left).1 = false → (l'.sendRaw m left).2.1.isOpen = false :=
      sendRaw_failed
    generalize l'.sendRaw m left = written at wrote closed
    obtain ⟨sent, l'', left'⟩ := written
    simp only at wrote closed ⊢
    split
    · exact wrote
    · -- The failed write closed the link, so the second connection starts clear.
      rename_i failed
      obtain ⟨again, clear, -⟩ := (wrote.setLastTry 0).ensure second remembered left'
      split
      · refine (again.sendRaw m _ fun _ begun => absurd ?_ begun).1
        exact clear (closed (by simpa using failed))
      · exact again

theorem Buffers.sound {earlier : List LinkStream} (buffers : l.Buffers id stream)
    (split : l.streams = stream :: earlier) (older : ∀ other ∈ earlier, other.Faithful id)
    (opened : l.isOpen = true) (partly : l.rx.length < msgSize) : l.Sound id := by
  refine ⟨⟨?_, fun _ => ⟨stream, earlier, split, buffers⟩⟩, partly, fun closed => ?_⟩
  · intro other member
    rw [split] at member
    rcases List.mem_cons.mp member with same | before
    · rw [same]
      exact buffers.faithful
    · exact older other before
  · rw [opened] at closed
    cases closed

theorem sound_reject {earlier : List LinkStream} (split : l.streams = stream :: earlier)
    (older : ∀ other ∈ earlier, other.Faithful id)
    (parsed : (linkReader id).parse .hello stream.received = ⟨stream.returned, none, []⟩) :
    l.reject.Sound id := by
  have faithful : LinkStream.Faithful id { stream with rejected := true } :=
    ⟨by rw [parsed], by rw [parsed]; simp⟩
  refine ⟨⟨?_, fun reopened => ?_⟩, Nat.succ_pos _, fun _ => rfl⟩
  · intro other member
    simp only [reject, hangUp, onStream, split] at member
    rcases List.mem_cons.mp member with same | before
    · rw [same]
      exact faithful
    · exact older other before
  · cases reopened

/-- Whatever the reads return, records are dispatched only in whole. -/
theorem Sound.pollReads (sound : l.Sound id) (opened : l.isOpen = true) (reads : List LinkRead) :
    (l.pollReads id reads).2.Sound id := by
  -- The induction is on the reads, each of which extends the newest connection's stream.
  induction reads generalizing l with
  | nil => exact sound
  | cons read rest ih =>
    cases read with
    | again => exact sound
    | intr => exact ih sound opened
    | eof => exact sound.hangUp
    | error => exact sound.hangUp
    | data first more =>
      obtain ⟨⟨faithful, buffer⟩, partly, clear⟩ := sound
      obtain ⟨stream, earlier, split, parsed, unrejected⟩ := buffer opened
      simp only [SiLink.pollReads, onStream, split]
      generalize taken : (first :: more).take (msgSize - l.rx.length) = bytes
      have fits : (l.rx ++ bytes).length ≤ msgSize := by
        have bound : bytes.length ≤ msgSize - l.rx.length := by
          rw [← taken]
          exact List.length_take_le _ _
        rw [List.length_append]
        omega
      have extended := (linkReader id).parse_append_of_waiting parsed bytes
      have older : ∀ other ∈ earlier, other.Faithful id := by
        intro other member
        exact faithful other (by rw [split]; exact List.mem_cons_of_mem _ member)
      by_cases short : (l.rx ++ bytes).length < msgSize
      · -- The record is still incomplete, and so is the protocol's frame.
        rw [if_pos short]
        have parsedMore : Buffers id { l with
            rx := l.rx ++ bytes
            streams := { stream with received := stream.received ++ bytes } :: earlier }
            { stream with received := stream.received ++ bytes } := by
          refine ⟨?_, unrejected⟩
          rw [extended, Reader.parse_short _ short]
          simp [Reader.Outcome.prepend, phase]
        exact ih (parsedMore.sound rfl older opened short) opened
      · have full : (l.rx ++ bytes).length = msgSize := by omega
        rw [← List.append_nil (l.rx ++ bytes)] at extended
        rw [if_neg short]
        cases received : l.helloReceived with
        | false =>
          rw [phase, received] at extended
          by_cases exact : (XiosMsg.decode (l.rx ++ bytes)).isExactHello = true
          · -- The opening record is complete, and the reader waits for the next one.
            have went : (linkReader id).finish .hello (l.rx ++ bytes) = .more .records [] := by
              simp [linkReader, exact]
            rw [show (if false = true then LinkPhase.records else .hello) = .hello from rfl,
              Reader.parse_more _ full went, Reader.parse_nil] at extended
            have parsedMore : Buffers id { l with
                helloReceived := true, rx := []
                streams := { stream with received := stream.received ++ bytes } :: earlier }
                { stream with received := stream.received ++ bytes } := by
              refine ⟨?_, unrejected⟩
              rw [extended]
              simp [Reader.Outcome.prepend, phase]
            simp only [exact, Bool.not_false, ↓reduceIte]
            exact ih (parsedMore.sound rfl older opened (Nat.succ_pos _)) opened
          · have stopped : (linkReader id).finish .hello (l.rx ++ bytes) = .stop [] := by
              simp [linkReader, exact]
            rw [show (if false = true then LinkPhase.records else .hello) = .hello from rfl,
              Reader.parse_stop _ full stopped] at extended
            simp only [exact, Bool.not_false, ↓reduceIte]
            exact sound_reject rfl older (by simpa [Reader.Outcome.prepend] using extended)
        | true =>
          rw [phase, received] at extended
          by_cases accepted : accepts id (XiosMsg.decode (l.rx ++ bytes)) = true
          · -- The record is returned, and the reader has delivered the same one.
            have went : (linkReader id).finish .records (l.rx ++ bytes) =
                .more .records [XiosMsg.decode (l.rx ++ bytes)] := by
              simp [linkReader, accepted]
            rw [show (if true = true then LinkPhase.records else .hello) = .records from rfl,
              Reader.parse_more _ full went, Reader.parse_nil] at extended
            have parsedMore : Buffers id { l with
                rx := []
                streams := { stream with
                  received := stream.received ++ bytes
                  returned := stream.returned ++ [XiosMsg.decode (l.rx ++ bytes)] } :: earlier }
                { stream with
                  received := stream.received ++ bytes
                  returned := stream.returned ++ [XiosMsg.decode (l.rx ++ bytes)] } := by
              refine ⟨?_, unrejected⟩
              rw [extended]
              simp [Reader.Outcome.prepend, phase, received]
            simp only [accepted, Bool.not_true, Bool.false_eq_true, ↓reduceIte]
            rw [← received]
            exact parsedMore.sound rfl older opened (Nat.succ_pos _)
          · have stopped : (linkReader id).finish .records (l.rx ++ bytes) = .stop [] := by
              simp [linkReader, accepted]
            rw [show (if true = true then LinkPhase.records else .hello) = .records from rfl,
              Reader.parse_stop _ full stopped] at extended
            simp only [accepted, Bool.not_true, Bool.false_eq_true, ↓reduceIte]
            exact sound_reject rfl older (by simpa [Reader.Outcome.prepend] using extended)

theorem Sound.pollMsg (sound : l.Sound id) (attempt : Attempt) (remembered : List XiosMsg)
    (writes : List Bool) (reads : List LinkRead) :
    (l.pollMsg id attempt remembered writes reads).2.Sound id := by
  obtain ⟨ensured, -, -⟩ := sound.ensure attempt remembered writes
  simp only [SiLink.pollMsg]
  split
  · exact ensured
  · split
    · exact ensured.hangUp
    · rename_i opened
      exact ensured.pollReads (by simpa using opened) reads

end SiLink

namespace SysIntHandle

/-- No record fails to be written on a link that holds a partial record of its peer. -/
def Calm (h : SysIntHandle) : Event → Prop
  | .send request _ _ writes =>
    (h.link request.id).isOpen = true → (h.link request.id).rx ≠ [] → writes.headD true = true
  | _ => True

theorem sound_setLink {h : SysIntHandle} (sound : ∀ id, (h.link id).Sound id) (id : LinkId)
    {l : SiLink} (replaced : l.Sound id) (other : LinkId) :
    ((h.setLink id l).link other).Sound other := by
  by_cases same : other = id
  · subst same
    simpa [setLink] using replaced
  · simpa [setLink, Function.update_of_ne same] using sound other

theorem remember_link (h : SysIntHandle) (request : SendRequest) :
    (h.remember request).link = h.link := by
  cases request <;> rfl

/--
Every connection is framed by its own bytes while writes fail only between records.

The records a connection returned are those of its own stream, it was rejected exactly if that
stream breaks the protocol, and the buffer of an open link belongs to its open connection.
-/
theorem framed_by_connection {trace : List Event} {h : SysIntHandle}
    (run : (machine.restrict Calm).Run trace h) (id : LinkId) : (h.link id).Framed id := by
  -- Soundness of both links is what every event keeps.
  have sound : ∀ id, (h.link id).Sound id := by
    refine run.invariant (fun _ h => ∀ id, (h.link id).Sound id) ?_ ?_
    · rintro h ⟨configured, rfl⟩ id
      exact SiLink.sound_fresh id (configured id)
    · intro trace h event sound allowed
      cases event with
      | send request first second writes =>
        have kept : ∀ id, ((h.remember request).link id).Sound id := by
          intro id
          rw [remember_link]
          exact sound id
        refine sound_setLink kept request.id ((kept request.id).send _ _ first second ?_)
        rw [remember_link]
        exact allowed.2
      | ensure id attempt writes =>
        exact sound_setLink sound id ((sound id).ensure attempt _ writes).1
      | poll id attempt writes reads =>
        exact sound_setLink sound id ((sound id).pollMsg attempt _ writes reads)
  exact (sound id).framed

def opened : SysIntHandle :=
  { link := fun _ => { configured := true } }

def traitsBytes : List UInt8 :=
  (XiosMsg.input inTraits 0#32 0#32 0#32 0#32 0#32).encode

def quietScript : List Event :=
  [.poll .iosc ⟨1, true⟩ [] [.data 0x31 (XiosMsg.hello.encode.drop 1), .data 0x31 (traitsBytes.drop 1)],
    .send (.output 1#32 800#32 600#32) ⟨1, true⟩ ⟨1, true⟩ [false]]

theorem framed_by_connection_quiet :
    (((quietScript.foldl next opened).link .iosc).streams.map LinkStream.returned =
        [[], [XiosMsg.decode traitsBytes]]) ∧
      ((quietScript.foldl next opened).link .iosc).Framed .iosc := by
  have run : (machine.restrict Calm).Run quietScript.reverse (quietScript.foldl next opened) := by
    refine .of_script (m := machine.restrict Calm) (s := opened) ⟨fun _ => true, rfl⟩ quietScript
      ⟨⟨trivial, trivial⟩, ⟨trivial, ?_⟩, trivial⟩
    intro _ begun
    exact absurd (by decide) begun
  exact ⟨by decide, framed_by_connection run .iosc⟩

def interruptedScript : List Event :=
  [.poll .iosc ⟨1, true⟩ []
      [.data 0x31 (XiosMsg.hello.encode.drop 1), .data 0x31 ((traitsBytes.take 10).drop 1)],
    .send (.output 1#32 800#32 600#32) ⟨1, true⟩ ⟨1, true⟩ [false],
    .poll .iosc ⟨1, true⟩ [] [.data 0x31 (XiosMsg.hello.encode.drop 1)]]

/-- The second connection is rejected although its peer sent nothing but an opening record. -/
theorem not_framed_by_connection :
    ¬∀ (trace : List Event) (h : SysIntHandle), machine.Run trace h →
      ∀ id, (h.link id).Framed id := by
  intro framed
  have run : machine.Run interruptedScript.reverse (interruptedScript.foldl next opened) :=
    .of_script (m := machine) (s := opened) ⟨fun _ => true, rfl⟩ interruptedScript
      ⟨trivial, trivial, trivial, trivial⟩
  have mixed : ∃ stream ∈ ((interruptedScript.foldl next opened).link .iosc).streams,
      stream.rejected = true ∧ stream.received = XiosMsg.hello.encode.take 22 := by decide
  obtain ⟨stream, member, rejected, received⟩ := mixed
  -- Twenty-two bytes are no complete record, so nothing in them can break the protocol.
  have stopped := ((framed _ _ run .iosc).faithful stream member).rejected.mp rejected
  have short : stream.received.length < (linkReader .iosc).want .hello := by
    rw [received]
    decide
  rw [Reader.parse_short _ short] at stopped
  cases stopped

end SysIntHandle

end Xios
