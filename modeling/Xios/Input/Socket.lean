import Xios.Lib.Machine
import Xios.Protocol.Message

/-! The resumable per-client reader of `xios_input_socket.c`. -/

namespace Xios

def inTextMax : Nat := 4096

/-- A connected input client, as far as reading from it is concerned. -/
structure InClient where
  -- User at the other end of the socket.
  peerUid : BitVec 32
  -- Window the client has bound itself to.
  boundWindow : BitVec 32 := 0#32
  -- The client is registered as input-method proxy.
  improxy : Bool := false
  -- The opening record has been received.
  helloReceived : Bool := false
  -- Bytes of the current record's header so far.
  hdr : List UInt8 := []
  -- The current record, once its header is complete.
  msg : XiosMsg := { magic := 0#32, type := 0#32 }
  -- Payload buffer of a text record with its bytes so far.
  payload : Option (List UInt8) := none
  deriving DecidableEq

/-- One record handed to the callback. -/
structure InputRecord where
  -- The record itself.
  msg : XiosMsg
  -- Its payload, empty for every record but text.
  text : List UInt8
  boundWindow : BitVec 32
  deriving DecidableEq

/-- Record types a client may send after its opening record. -/
def isClientMessage (type : BitVec 32) : Bool :=
  [inMotion, inButton, inKey, inText, inTouch, inTablet, inBind, inAxis, inOutput, inGesture,
    inImproxy, inVolume, inAppearance, inBrightness,
    -- Accepted further on only from a registered proxy.
    inTraits].contains type

/-- Results of a call to `read`, with whether memory for a payload could be had afterwards. -/
inductive ReadResult where
  | data (bytes : List UInt8) (allocated : Bool)
  -- The peer closed its end.
  | eof
  -- Nothing to read at the moment.
  | again
  -- A signal interrupted the call.
  | intr
  -- The call failed otherwise.
  | error
  deriving DecidableEq

/-- Why a client was dropped. -/
inductive DropReason where
  -- It broke the protocol.
  | violation
  -- The connection ended or resources ran out.
  | closed
  deriving DecidableEq, Repr

/-- How one pass through the read loop ends. -/
inductive ReadStep where
  -- The client stays, possibly after a record was handed to the callback.
  | keep (client : InClient) (record : Option InputRecord)
  | drop (reason : DropReason)
  deriving DecidableEq

namespace InClient

def reset (c : InClient) : InClient :=
  { c with payload := none, hdr := [], msg := { magic := 0#32, type := 0#32 } }

/-- Bytes the next call to `read` asks for. -/
def requested (c : InClient) : Nat :=
  if c.hdr.length < msgSize then msgSize - c.hdr.length
  else c.msg.length.toNat - (c.payload.getD []).length

def acceptHeader (c : InClient) (allocated : Bool) : ReadStep :=
  if !c.helloReceived then
    if c.msg.isExactHello then .keep (reset { c with helloReceived := true }) none
    else .drop .violation
  else if c.msg.magic != msgMagic || c.msg.type == msgHello || !isClientMessage c.msg.type then
    .drop .violation
  else if c.msg.type != inText && c.msg.length != 0#32 then .drop .violation
  else if c.msg.type == inBind then
    .keep (reset { c with boundWindow := c.msg.inputCode }) none
  else if c.msg.type == inImproxy then
    -- The proxy receives every keyboard text record, so only a root peer may register.
    if c.msg.inputCode != 0#32 && c.peerUid != 0#32 then .drop .violation
    else .keep (reset { c with improxy := c.msg.inputCode != 0#32 }) none
  else if c.msg.type == inTraits && !c.improxy then .drop .violation
  else if c.msg.type == inText then
    if c.msg.length == 0#32 || inTextMax < c.msg.length.toNat || c.msg.inputCode != c.msg.length then
      .drop .violation
    else if allocated then .keep { c with payload := some [] } none
    else .drop .closed
  else .keep c.reset (some ⟨c.msg, [], c.boundWindow⟩)

def clientRead (c : InClient) : ReadResult → ReadStep
  | .eof | .error => .drop .closed
  | .again | .intr => .keep c none
  | .data bytes allocated =>
    if c.hdr.length < msgSize then
      let c := { c with hdr := c.hdr ++ bytes }
      if c.hdr.length < msgSize then .keep c none
      else acceptHeader { c with msg := XiosMsg.decode c.hdr } allocated
    else
      let payload := c.payload.getD [] ++ bytes
      if payload.length < c.msg.length.toNat then .keep { c with payload := some payload } none
      else .keep c.reset (some ⟨c.msg, payload, c.boundWindow⟩)

end InClient

/-- A client's connection with everything that came in and went out on it. -/
structure InConnection where
  client : InClient
  -- All bytes read from the peer.
  consumed : List UInt8
  -- All records handed to the callback.
  dispatched : List InputRecord
  -- Why the client was dropped, if it was.
  dropped : Option DropReason

namespace InConnection

/-- What happens on the connection of one client. -/
inductive Event where
  -- The read loop calls `read`.
  | read (result : ReadResult)
  -- The dispatcher sees the end-of-stream flag after the read loop has returned.
  | eofFlag
  deriving DecidableEq

def Event.bytes : Event → List UInt8
  | .read (.data bytes _) => bytes
  | _ => []

def next (s : InConnection) (event : Event) : InConnection :=
  let s := { s with consumed := s.consumed ++ event.bytes }
  match event with
  | .eofFlag => { s with dropped := some .closed }
  | .read result =>
    match s.client.clientRead result with
    | .keep client record => { s with client, dispatched := s.dispatched ++ record.toList }
    | .drop reason => { s with dropped := some reason }

/-- Only a client that is still there is read from, and never for more than was asked. -/
def Allowed (s : InConnection) (event : Event) : Prop :=
  s.dropped = none ∧
    match event with
    | .read (.data bytes _) => bytes ≠ [] ∧ bytes.length ≤ s.client.requested
    | _ => True

instance (s : InConnection) (event : Event) : Decidable (s.Allowed event) := by
  unfold Allowed
  cases event with
  | eofFlag => infer_instance
  | read result => cases result <;> infer_instance

def accepted (peerUid : BitVec 32) : InConnection :=
  { client := { peerUid }, consumed := [], dispatched := [], dropped := none }

def machine (peerUid : BitVec 32) : Machine InConnection Event where
  start s := s = accepted peerUid
  enabled := Allowed
  next := next

end InConnection

end Xios
