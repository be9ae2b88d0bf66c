import Xios.Lib.Machine
import Xios.Protocol.Message

/-! The reconnecting system-integration links of `SysIntClient.c`. -/

namespace Xios

/-- The two links of a handle. -/
inductive LinkId where
  -- To the system-integration daemon.
  | sysint
  | iosc
  deriving DecidableEq, Repr

/-- What went over one connection, from its first byte on. -/
structure LinkStream where
  -- Every byte read from the peer.
  received : List UInt8 := []
  -- Every record handed to the caller.
  returned : List XiosMsg := []
  -- The connection was given up because of a record that broke the protocol.
  rejected : Bool := false
  -- Every record written as a whole after the opening one.
  sent : List XiosMsg := []
  deriving DecidableEq

/-- One link, together with the connections it has had, newest first. -/
structure SiLink where
  -- A socket path is configured.
  configured : Bool
  isOpen : Bool := false
  -- The peer's opening record has been received.
  helloReceived : Bool := false
  -- Second of the last connection attempt.
  lastTry : Nat := 0
  -- Received part of the current record.
  rx : List UInt8 := []
  -- The connections themselves, which the code does not keep.
  streams : List LinkStream := []
  deriving DecidableEq

/-- The clock and the peer at one connection attempt. -/
structure Attempt where
  -- Current second.
  now : Nat
  -- Connecting and writing the opening record succeed.
  connects : Bool
  deriving DecidableEq

/-- What one read from the link returns. -/
inductive LinkRead where
  -- At least one byte has arrived, of which no more are taken than fit the record.
  | data (first : UInt8) (more : List UInt8)
  -- The peer closed its end.
  | eof
  -- Nothing to read at the moment.
  | again
  -- A signal interrupted the call.
  | intr
  -- The call failed otherwise.
  | error
  deriving DecidableEq

namespace SiLink

def onStream (l : SiLink) (change : LinkStream → LinkStream) : SiLink :=
  match l.streams with
  | [] => l
  | stream :: earlier => { l with streams := change stream :: earlier }

/-- Write one record, giving up the connection if that fails. -/
def sendRaw (l : SiLink) (m : XiosMsg) (writes : List Bool) : Bool × SiLink × List Bool :=
  if !l.isOpen then (false, l, writes)
  else if writes.headD true then
    (true, l.onStream fun stream => { stream with sent := stream.sent ++ [m] }, writes.tail)
  -- The partial record stays in the buffer.
  else (false, { l with isOpen := false }, writes.tail)

def replay (l : SiLink) : List XiosMsg → List Bool → SiLink × List Bool
  | [], writes => (l, writes)
  | m :: rest, writes =>
    let (_, l, writes) := l.sendRaw m writes
    l.replay rest writes

/-- Connect if necessary, at most once a second, and report whether an attempt succeeded. -/
def ensure (l : SiLink) (attempt : Attempt) (remembered : List XiosMsg) (writes : List Bool) :
    Bool × SiLink × List Bool :=
  if l.isOpen then (true, l, writes)
  else if !l.configured then (false, l, writes)
  else if attempt.now = l.lastTry then (false, l, writes)
  else
    let l := { l with lastTry := attempt.now }
    if attempt.connects then
      let l := { l with isOpen := true, helloReceived := false, streams := {} :: l.streams }
      let (l, writes) := l.replay remembered writes
      -- The attempt counts as successful even if a replayed record could not be written.
      (true, l, writes)
    else (false, l, writes)

/-- Send one record, reconnecting once if the connection turns out to be gone. -/
def send (l : SiLink) (m : XiosMsg) (remembered : List XiosMsg) (first second : Attempt)
    (writes : List Bool) : SiLink :=
  let (ensured, l, writes) := l.ensure first remembered writes
  if !ensured then l
  else
    let (sent, l, writes) := l.sendRaw m writes
    if sent then l
    else
      let l := { l with lastTry := 0 }
      let (ensured, l, writes) := l.ensure second remembered writes
      if ensured then (l.sendRaw m writes).2.1 else l

/-- Give up the connection and everything received in part. -/
def hangUp (l : SiLink) : SiLink :=
  { l with isOpen := false, helloReceived := false, rx := [] }

def accepts (id : LinkId) (m : XiosMsg) : Bool :=
  m.magic == msgMagic && m.type != msgHello && m.length == 0#32 &&
    match id with
    | .iosc => m.type == inHaptic || m.type == inTraits
    | .sysint => m.type == inVolume || m.type == inBrightness

/-- Give up the connection because of a record that breaks the protocol. -/
def reject (l : SiLink) : SiLink :=
  (l.onStream fun stream => { stream with rejected := true }).hangUp

/-- The read loop of a poll on an open connection, until a record is complete. -/
def pollReads (id : LinkId) (l : SiLink) : List LinkRead → Option XiosMsg × SiLink
  | [] | .again :: _ => (none, l)
  | .intr :: rest => l.pollReads id rest
  | .eof :: _ | .error :: _ => (none, l.hangUp)
  | .data first more :: rest =>
    let bytes := (first :: more).take (msgSize - l.rx.length)
    let l := { l with rx := l.rx ++ bytes }.onStream fun stream =>
      { stream with received := stream.received ++ bytes }
    if l.rx.length < msgSize then l.pollReads id rest
    else
      let out := XiosMsg.decode l.rx
      let l := { l with rx := [] }
      if !l.helloReceived then
        if out.isExactHello then { l with helloReceived := true }.pollReads id rest
        else (none, l.reject)
      else if accepts id out then
        (some out, l.onStream fun stream => { stream with returned := stream.returned ++ [out] })
      else (none, l.reject)

def pollMsg (id : LinkId) (l : SiLink) (attempt : Attempt) (remembered : List XiosMsg)
    (writes : List Bool) (reads : List LinkRead) : Option XiosMsg × SiLink :=
  let (ensured, l, _) := l.ensure attempt remembered writes
  if !ensured then (none, l)
  -- A replay that failed has left no descriptor to read from.
  else if !l.isOpen then (none, l.hangUp)
  else l.pollReads id reads

end SiLink

/-- A handle: both links, and the last state records sent on them. -/
structure SysIntHandle where
  link : LinkId → SiLink
  -- Last orientation and size, if any.
  lastOutput : Option XiosMsg := none
  lastVolume : Option XiosMsg := none
  lastAppearance : Option XiosMsg := none

/-- The state records a caller can send. -/
inductive SendRequest where
  | volume (v16 : BitVec 32)
  | appearance (dark : Bool)
  -- Orientation and logical size of the output.
  | output (transform logicalW logicalH : BitVec 32)
  deriving DecidableEq

namespace SendRequest

def id : SendRequest → LinkId
  | .volume _ | .appearance _ => .sysint
  | .output .. => .iosc

def msg : SendRequest → XiosMsg
  | .volume v16 =>
    XiosMsg.input inVolume 0#32 0#32 (if 65535 < v16.toNat then 65535#32 else v16) 0#32 0#32
  | .appearance dark => XiosMsg.input inAppearance 0#32 0#32 (if dark then 1#32 else 0#32) 0#32 0#32
  | .output transform logicalW logicalH =>
    XiosMsg.input inOutput logicalW logicalH (transform &&& 3#32) 0#32 0#32

end SendRequest

namespace SysIntHandle

def setLink (h : SysIntHandle) (id : LinkId) (l : SiLink) : SysIntHandle :=
  { h with link := Function.update h.link id l }

def remember (h : SysIntHandle) : SendRequest → SysIntHandle
  | request@(.volume _) => { h with lastVolume := some request.msg }
  | request@(.appearance _) => { h with lastAppearance := some request.msg }
  | request@(.output ..) => { h with lastOutput := some request.msg }

def remembered (h : SysIntHandle) : LinkId → List XiosMsg
  | .iosc => h.lastOutput.toList
  | .sysint => h.lastAppearance.toList ++ h.lastVolume.toList

/-- What a caller can do with a handle, with what the outside world answers. -/
inductive Event where
  -- Send a state record.
  | send (request : SendRequest) (first second : Attempt) (writes : List Bool)
  | ensure (id : LinkId) (attempt : Attempt) (writes : List Bool)
  | poll (id : LinkId) (attempt : Attempt) (writes : List Bool) (reads : List LinkRead)

def next (h : SysIntHandle) : Event → SysIntHandle
  | .send request first second writes =>
    -- The record is stored first, so that a reconnect replays it.
    let h := h.remember request
    h.setLink request.id
      ((h.link request.id).send request.msg (h.remembered request.id) first second writes)
  | .ensure id attempt writes =>
    h.setLink id ((h.link id).ensure attempt (h.remembered id) writes).2.1
  | .poll id attempt writes reads =>
    h.setLink id ((h.link id).pollMsg id attempt (h.remembered id) writes reads).2

def machine : Machine SysIntHandle Event where
  start h := ∃ configured : LinkId → Bool, h = { link := fun id => { configured := configured id } }
  enabled _ _ := True
  next := next

end SysIntHandle

end Xios
