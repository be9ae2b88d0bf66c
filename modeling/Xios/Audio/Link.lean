import Xios.Audio.Unit
import Xios.Lib.Framing
import Xios.Lib.Machine
import Xios.Protocol.Message

/-! Messages from `module-xios-sink.c` to `xios-audiod.c`, and the two ends of the connection. -/

namespace Xios

def audioMagic : BitVec 32 := 0x414f4958#32

def audioVersion : BitVec 32 := 1#32

def maxPayload : Nat := 1024 * 1024

def audioMsgOpen : BitVec 32 := 1#32
def audioMsgData : BitVec 32 := 2#32
def audioMsgDrain : BitVec 32 := 3#32
def audioMsgClose : BitVec 32 := 4#32

/-- The header of a message. -/
structure AudioMsg where
  -- Marks the start of a message.
  magic : BitVec 32
  version : BitVec 32
  -- Kind of the message.
  type : BitVec 32
  -- Size of the payload that follows.
  size : BitVec 32
  deriving DecidableEq, Repr

def audioMsgSize : Nat := 16

def audioOpenSize : Nat := 16

namespace AudioMsg

def decode (bytes : List UInt8) : AudioMsg where
  magic := XiosMsg.wordAt bytes 0
  version := XiosMsg.wordAt bytes 4
  type := XiosMsg.wordAt bytes 8
  size := XiosMsg.wordAt bytes 12

/-- The memory of a header. -/
def encode (m : AudioMsg) : List UInt8 :=
  le32 m.magic ++ le32 m.version ++ le32 m.type ++ le32 m.size

@[simp] theorem length_encode (m : AudioMsg) : m.encode.length = audioMsgSize := rfl

@[simp] theorem decode_encode (m : AudioMsg) : decode m.encode = m := by
  simp [decode, encode, XiosMsg.wordAt, le32, ofLe32_le32]

end AudioMsg

/-- The payload that opens a stream. -/
structure AudioOpen where
  -- Frames of a second.
  sampleRate : BitVec 32
  -- Samples of a frame, and how they are encoded.
  channels : BitVec 32
  format : BitVec 32
  flags : BitVec 32
  deriving DecidableEq, Repr

def AudioOpen.decode (bytes : List UInt8) : AudioOpen where
  sampleRate := XiosMsg.wordAt bytes 0
  channels := XiosMsg.wordAt bytes 4
  format := XiosMsg.wordAt bytes 8
  flags := XiosMsg.wordAt bytes 12

/-- A stream that the daemon has accepted. -/
structure AudioStream where
  -- Frames of a second.
  rate : Nat
  -- Samples of a frame, and how they are encoded.
  channels : Nat
  format : AudioFormat
  -- What is checked or filled in before the stream is accepted.
  rate_pos : 0 < rate
  channels_pos : 0 < channels
  channels_le : channels ≤ 8

def AudioOpen.filled (m : AudioOpen) : Nat × Nat × Nat :=
  (if m.sampleRate = 0#32 then audioDefaultRate else m.sampleRate.toNat,
    if m.channels = 0#32 then 2 else m.channels.toNat,
    if m.format = 0#32 then 1 else m.format.toNat)

theorem AudioOpen.filled_rate_pos (m : AudioOpen) : 0 < m.filled.1 := by
  unfold AudioOpen.filled
  by_cases none : m.sampleRate = 0#32
  · simp [none]
  · have some : m.sampleRate.toNat ≠ 0 := fun zero => none (BitVec.eq_of_toNat_eq zero)
    simp only [none, ↓reduceIte]
    omega

theorem AudioOpen.filled_channels_pos (m : AudioOpen) : 0 < m.filled.2.1 := by
  unfold AudioOpen.filled
  by_cases none : m.channels = 0#32
  · simp [none]
  · have some : m.channels.toNat ≠ 0 := fun zero => none (BitVec.eq_of_toNat_eq zero)
    simp only [none, ↓reduceIte]
    omega

def AudioOpen.stream (m : AudioOpen) : Option AudioStream :=
  if few : m.filled.2.1 ≤ 8 then
    match m.filled.2.2 with
    | 1 => some ⟨m.filled.1, m.filled.2.1, .s16le, m.filled_rate_pos, m.filled_channels_pos, few⟩
    | 2 => some ⟨m.filled.1, m.filled.2.1, .f32le, m.filled_rate_pos, m.filled_channels_pos, few⟩
    | _ => none
  else none

def AudioStream.rejects (stream : AudioStream) : Bool :=
  -- The format is one of the two known ones.
  stream.rate == 0 || stream.channels == 0 || decide (8 < stream.channels)

theorem AudioStream.rejects_eq_false (stream : AudioStream) : stream.rejects = false := by
  have rate := stream.rate_pos
  have channels := stream.channels_pos
  have few := stream.channels_le
  simp only [rejects, Bool.or_eq_false_iff, beq_eq_false_iff_ne, decide_eq_false_iff_not]
  omega

/-- A message that the daemon has acted on, with the payload it took for it. -/
inductive AudioHandled where
  | opened (m : AudioOpen)
  -- Samples are ingested.
  | data (payload : List UInt8)
  -- Nothing is done.
  | drain (payload : List UInt8)
  deriving DecidableEq, Repr

/-- What the daemon is reading from a connection. -/
inductive ClientPhase where
  | first
  -- The payload that opens the stream.
  | opening
  | header (stream : AudioStream)
  -- Samples, one byte more than the number says.
  | payload (stream : AudioStream) (more : Nat)
  -- A payload of unknown meaning, one byte more than the number says.
  | discard (more : Nat)

/-- A header cannot be one of this protocol, or announces too much. -/
def AudioMsg.Malformed (m : AudioMsg) : Prop :=
  m.magic ≠ audioMagic ∨ m.version ≠ audioVersion ∨ maxPayload < m.size.toNat
  deriving Decidable

/-- A header announces the payload that opens a stream. -/
def AudioMsg.Opens (m : AudioMsg) : Prop :=
  m.magic = audioMagic ∧ m.version = audioVersion ∧ m.type = audioMsgOpen ∧
    m.size.toNat = audioOpenSize
  deriving Decidable

def clientPayload (stream : AudioStream) (payload : List UInt8) :
    Verdict ClientPhase AudioHandled :=
  if stream.rejects then .stop [] else .more (.header stream) [.data payload]

def clientHeader (stream : AudioStream) (m : AudioMsg) : Verdict ClientPhase AudioHandled :=
  if m.Malformed then .stop []
  else if m.type = audioMsgClose then .stop []
  -- The announced payload is not read.
  else if m.type = audioMsgDrain then .more (.header stream) [.drain []]
  else if m.type = audioMsgData then
    match m.size.toNat with
    | 0 => clientPayload stream []
    | more + 1 => .more (.payload stream more) []
  else
    match m.size.toNat with
    | 0 => .stop []
    | more + 1 => .more (.discard more) []

def clientThread : Reader ClientPhase UInt8 AudioHandled where
  want
    | .first | .header _ => audioMsgSize
    | .opening => audioOpenSize
    | .payload _ more | .discard more => more + 1
  positive
    | .first | .header _ | .opening => Nat.succ_pos _
    | .payload _ _ | .discard _ => Nat.succ_pos _
  finish
    | .first, bytes => if (AudioMsg.decode bytes).Opens then .more .opening [] else .stop []
    | .opening, bytes =>
      match (AudioOpen.decode bytes).stream with
      | none => .stop []
      | some stream => .more (.header stream) [.opened (AudioOpen.decode bytes)]
    | .header stream, bytes => clientHeader stream (AudioMsg.decode bytes)
    | .payload stream _, bytes => clientPayload stream bytes
    | .discard _, _ => .stop []

def AudioHandled.payload? : AudioHandled → Option (List UInt8)
  | .data payload => some payload
  | _ => none

/-- What the sender finds when it waits for room. -/
inductive PollResult where
  -- The deadline has passed, before or while waiting.
  | timeout
  -- A signal interrupted the call.
  | intr
  -- The call failed otherwise, or the connection is gone.
  | error
  | ready
  deriving DecidableEq, Repr

/-- What one write to the daemon returns. -/
inductive AttemptResult where
  -- The connection took some bytes, though never more than it was given.
  | took (count : Nat)
  -- A signal interrupted the call.
  | intr
  -- There was no room, and the sender waited for some.
  | again (poll : PollResult)
  -- The call failed otherwise.
  | error
  deriving DecidableEq, Repr

/-- How writing a message ends. -/
inductive WriteFullResult where
  -- Every byte is out.
  | ok
  -- There was no room for too long.
  | timeout
  -- The connection is gone.
  | error
  deriving DecidableEq, Repr

def writeFull (length : Nat) : Nat → List AttemptResult → Option WriteFullResult × Nat
  -- Without a further result the call has not returned yet.
  | done, [] => (if done < length then none else some .ok, done)
  | done, attempt :: plan =>
    if done < length then
      match attempt with
      -- The peer closed the connection.
      | .took 0 => (some .error, done)
      | .took (n + 1) => writeFull length (min (done + (n + 1)) length) plan
      | .intr => writeFull length done plan
      | .again .timeout => (some .timeout, done)
      | .again .intr | .again .ready => writeFull length done plan
      | .again .error | .error => (some .error, done)
    else (some .ok, done)

/-- What a call returns to its client. -/
inductive AudioSendResult where
  -- The message is out, which the code reports as zero.
  | sent
  -- Nothing of it is out, which the code reports as one.
  | dropped
  -- The connection has to be torn down.
  | torn
  deriving DecidableEq, Repr

def audioMessage (type : BitVec 32) (payload : List UInt8) : List UInt8 :=
  AudioMsg.encode ⟨audioMagic, audioVersion, type, BitVec.ofNat 32 payload.length⟩ ++ payload

def xiosSend (type : BitVec 32) (payload : List UInt8) (plan : List AttemptResult) :
    Option AudioSendResult × List UInt8 :=
  let bytes := audioMessage type payload
  let (result, done) := writeFull bytes.length 0 plan
  let returned := result.map fun
    | .ok => AudioSendResult.sent
    | .timeout => if done = 0 then .dropped else .torn
    | .error => .torn
  (returned, bytes.take done)

/-- One message that was passed to the sender. -/
structure AudioCall where
  type : BitVec 32
  payload : List UInt8
  -- What the call returned, if it has.
  result : Option AudioSendResult
  deriving DecidableEq

/-- A connection and both of its ends. -/
structure AudioLink where
  -- Messages passed to the sender, oldest first.
  calls : List AudioCall := []
  -- The sender may pass a further message.
  up : Bool := true
  -- Bytes on their way.
  buffer : List UInt8 := []
  -- Bytes the daemon has read, and where it is after them.
  seen : List UInt8 := []
  daemon : Reader.Outcome ClientPhase UInt8 AudioHandled := ⟨[], some (.first, []), []⟩

/-- What happens to the link. -/
inductive AudioLinkEvent where
  -- A message is passed to the sender, which has the given results of its attempts to write.
  | send (type : BitVec 32) (payload : List UInt8) (plan : List AttemptResult)
  -- The daemon reads some bytes.
  | read (count : Nat)
  -- The sender gives the connection up, as it does when opening the stream has no success.
  | disconnect

namespace AudioLink

/-- Pass a message to the sender, and tear the connection down if that is asked for. -/
def send (s : AudioLink) (type : BitVec 32) (payload : List UInt8) (plan : List AttemptResult) :
    AudioLink :=
  let (result, bytes) := xiosSend type payload plan
  { s with
    calls := s.calls ++ [⟨type, payload, result⟩]
    up := result == some .sent || result == some .dropped
    buffer := s.buffer ++ bytes }

def read (s : AudioLink) (count : Nat) : AudioLink :=
  let bytes := s.buffer.take count
  { s with
    buffer := s.buffer.drop count
    seen := s.seen ++ bytes
    daemon := s.daemon.resume clientThread bytes }

def next (s : AudioLink) : AudioLinkEvent → AudioLink
  | .send type payload plan => s.send type payload plan
  | .read count => s.read count
  | .disconnect => { s with up := false }

/-- A stream is opened first, and every other message follows. -/
def Allowed (s : AudioLink) (type : BitVec 32) (payload : List UInt8) : Prop :=
  payload.length ≤ maxPayload ∧
    if s.calls = [] then type = audioMsgOpen ∧ payload.length = audioOpenSize
    else type = audioMsgData ∨ type = audioMsgDrain ∨ type = audioMsgClose
  deriving Decidable

/-- Events that can happen: the sender is idle when it is called, and the daemon still reads. -/
def Enabled (s : AudioLink) : AudioLinkEvent → Prop
  | .send type payload _ => s.up = true ∧ s.Allowed type payload
  | .read _ => s.daemon.waiting.isSome = true
  | .disconnect => s.up = true

instance (s : AudioLink) : (event : AudioLinkEvent) → Decidable (s.Enabled event)
  | .send _ _ _ => inferInstanceAs (Decidable (_ ∧ _))
  | .read _ => inferInstanceAs (Decidable (_ = true))
  | .disconnect => inferInstanceAs (Decidable (_ = true))

def ingested (s : AudioLink) : List (List UInt8) :=
  s.daemon.out.filterMap AudioHandled.payload?

end AudioLink

def audioLink : Machine AudioLink AudioLinkEvent where
  start s := s = {}
  enabled := AudioLink.Enabled
  next := AudioLink.next

instance (s : AudioLink) (event : AudioLinkEvent) : Decidable (audioLink.enabled s event) :=
  inferInstanceAs (Decidable (s.Enabled event))

def clientHandled (bytes : List UInt8) : List AudioHandled :=
  (clientThread.parse .first bytes).out

end Xios
