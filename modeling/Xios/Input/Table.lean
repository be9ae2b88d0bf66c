import Xios.Input.Outbound
import Xios.Input.Socket

/-! All clients of the input socket, and the dispatcher that reads from and writes to them. -/

namespace Xios

def maxInputClients : Nat := 16

/-- A client in the table. -/
structure InputPeer where
  -- What the event queue calls the client.
  id : BitVec 32
  -- Number of connections accepted before this one.
  order : Nat
  client : InClient
  queue : OutQueue := {}

/-- How the system answers while a connection is accepted. -/
structure AcceptAnswer where
  -- User at the other end, or all ones if unknown.
  peerUid : BitVec 32
  -- The opening record could be written.
  helloSent : Bool := true
  memory : Bool := true
  -- The event queue can be told to report.
  registered : Bool := true
  deriving DecidableEq

/-- What the dispatcher is at. -/
inductive DispatchPhase where
  -- Between two events, or not running.
  | idle
  -- Reading from the client in a place, whose event may have carried the end-of-stream flag.
  | reading (i : Fin maxInputClients) (eof : Bool)
  | callback (i : Fin maxInputClients) (eof : Bool)
  -- The socket has been torn down.
  | freed
  deriving DecidableEq

/-- The socket with all its clients. -/
structure InputSocket where
  clients : Fin maxInputClients → Option InputPeer := fun _ => none
  -- The id given out last.
  nextId : BitVec 32 := 0#32
  -- Id of the client whose record is in the callback.
  current : BitVec 32 := 0#32
  -- There is a callback for clients that go away.
  dropCb : Bool
  phase : DispatchPhase := .idle
  -- Number of connections accepted so far.
  acceptedCount : Nat := 0
  -- Ids of the clients that completed their opening record, in that order.
  opened : List (BitVec 32) := []
  -- Ids handed to the callback for clients that go away.
  drops : List (BitVec 32) := []
  -- Ids of the clients that had completed their opening record when the socket was torn down.
  freedIds : List (BitVec 32) := []

namespace InputSocket

def setClient (s : InputSocket) (i : Fin maxInputClients) (p : Option InputPeer) : InputSocket :=
  { s with clients := Function.update s.clients i p }

def clientDrop (s : InputSocket) (i : Fin maxInputClients) (announce : Bool) : InputSocket :=
  match s.clients i with
  | none => s
  | some p =>
    let s := s.setClient i none
    if announce && p.client.helloReceived && s.dropCb then { s with drops := s.drops ++ [p.id] }
    else s

def clientById (s : InputSocket) (id : BitVec 32) : Option (Fin maxInputClients) :=
  (List.finRange maxInputClients).find? fun i => (s.clients i).any fun p => p.id == id

def bumpId (id : BitVec 32) : BitVec 32 :=
  if id + 1#32 = 0#32 then 1#32 else id + 1#32

def acceptClient (s : InputSocket) (answer : AcceptAnswer) : InputSocket :=
  let order := s.acceptedCount
  let s := { s with acceptedCount := s.acceptedCount + 1 }
  if !answer.helloSent then s
  else
    match (List.finRange maxInputClients).find? fun i => (s.clients i).isNone with
    | none => s
    | some i =>
      if !answer.memory then s
      else
        -- The id is used up even if the event queue refuses the client.
        let s := { s with nextId := bumpId s.nextId }
        if !answer.registered then s
        else s.setClient i (some { id := s.nextId, order, client := { peerUid := answer.peerUid } })

def acceptClients (s : InputSocket) (answers : List AcceptAnswer) : InputSocket :=
  answers.foldl acceptClient s

/-- The event queue reports bytes to read or the end of a stream. -/
def readEvent (s : InputSocket) (id : BitVec 32) (eof : Bool) : InputSocket :=
  match s.clientById id with
  | none => s
  | some i => { s with phase := .reading i eof }

/-- The event queue reports that a socket takes bytes again. -/
def writeEvent (s : InputSocket) (id : BitVec 32) (plan : List WriteResult) : InputSocket :=
  match s.clientById id with
  | none => s
  | some i =>
    { s with
      clients := Function.update s.clients i
        ((s.clients i).map fun p => { p with queue := p.queue.clientFlush plan }) }

/-- The read loop is left because nothing more is there. -/
def leaveLoop (s : InputSocket) (i : Fin maxInputClients) (eof : Bool) : InputSocket :=
  let s := { s with phase := .idle }
  if eof then s.clientDrop i true else s

def clientRead (s : InputSocket) (i : Fin maxInputClients) (eof : Bool) (result : ReadResult) :
    InputSocket :=
  match s.clients i with
  | none => s
  | some p =>
    match p.client.clientRead result with
    | .drop _ => clientDrop { s with phase := .idle } i true
    | .keep client record =>
      let opens := !p.client.helloReceived && client.helloReceived
      let s :=
        { s.setClient i (some { p with client }) with
          opened := if opens then s.opened ++ [p.id] else s.opened }
      match record with
      | some _ => { s with current := p.id, phase := .callback i eof }
      | none => if result = .again then s.leaveLoop i eof else s

def callbackReturn (s : InputSocket) : InputSocket :=
  match s.phase with
  | .callback i eof => { s with current := 0#32, phase := .reading i eof }
  | _ => s

def clientMatchesBound (p : InputPeer) (bound : BitVec 32) : Bool :=
  bound == 0#32 || p.client.boundWindow == 0#32 || p.client.boundWindow == bound

def hears (p : InputPeer) (bound : BitVec 32) : Bool :=
  !p.queue.dead && p.client.helloReceived && !p.client.improxy && clientMatchesBound p bound

def isProxy (p : InputPeer) : Bool :=
  !p.queue.dead && p.client.helloReceived && p.client.improxy

def sentTo (s : InputSocket) (chosen : InputPeer → Bool) (record : List UInt8)
    (answers : Fin maxInputClients → SendAnswer) : Nat :=
  (List.finRange maxInputClients).countP fun i =>
    (s.clients i).any fun p => chosen p && (p.queue.clientSend record (answers i)).1

/-- Send a record to all clients concerned, and give up those it cannot be sent to. -/
def broadcastToClients (s : InputSocket) (bound : BitVec 32) (record : List UInt8)
    (answers : Fin maxInputClients → SendAnswer) : Int × InputSocket :=
  if record = [] then (-1, s)
  else
    (s.sentTo (fun p => hears p bound) record answers,
      { s with
        clients := fun i => (s.clients i).map fun p =>
          if hears p bound then { p with queue := p.queue.sendOrShut record (answers i) } else p })

def broadcast (s : InputSocket) (record : List UInt8)
    (answers : Fin maxInputClients → SendAnswer) : Int × InputSocket :=
  s.broadcastToClients 0#32 record answers

def broadcastBound (s : InputSocket) (bound : BitVec 32) (record : List UInt8)
    (answers : Fin maxInputClients → SendAnswer) : Int × InputSocket :=
  if bound = 0#32 then (-1, s) else s.broadcastToClients bound record answers

def proxySend (p : InputPeer) (record : List UInt8) (answer : SendAnswer) : InputPeer :=
  let sent := p.queue.clientSend record answer
  if sent.1 then { p with queue := sent.2 }
  else { p with queue := sent.2.clientShut, client := { p.client with improxy := false } }

def sendImproxy (s : InputSocket) (record : List UInt8)
    (answers : Fin maxInputClients → SendAnswer) : Int × InputSocket :=
  if record = [] then (0, s)
  else
    (s.sentTo isProxy record answers,
      { s with
        clients := fun i => (s.clients i).map fun p =>
          if isProxy p then proxySend p record (answers i) else p })

def hasImproxy (s : InputSocket) : Bool :=
  (List.finRange maxInputClients).any fun i => (s.clients i).any fun p => p.client.improxy

def openId (p : InputPeer) : Option (BitVec 32) :=
  if p.client.helloReceived then some p.id else none

def openIds (clients : Fin maxInputClients → Option InputPeer) : List (BitVec 32) :=
  (List.finRange maxInputClients).filterMap fun i => (clients i).bind openId

/-- Tear the socket down without telling anyone. -/
def free (s : InputSocket) : InputSocket :=
  { s with clients := fun _ => none, phase := .freed, freedIds := openIds s.clients }

/-- What happens to the socket. -/
inductive Event where
  -- Connections wait to be accepted.
  | accept (answers : List AcceptAnswer)
  -- A client's socket can be read from.
  | readEvent (id : BitVec 32) (eof : Bool)
  -- A client's socket takes bytes again.
  | writeEvent (id : BitVec 32) (plan : List WriteResult)
  -- The read loop calls `read`.
  | read (result : ReadResult)
  | callbackReturn
  | broadcast (record : List UInt8) (answers : Fin maxInputClients → SendAnswer)
  -- A record is sent to the clients of one window.
  | broadcastBound (bound : BitVec 32) (record : List UInt8)
      (answers : Fin maxInputClients → SendAnswer)
  -- A record is sent to the proxies.
  | sendImproxy (record : List UInt8) (answers : Fin maxInputClients → SendAnswer)
  -- The socket is torn down.
  | free

def next (s : InputSocket) : Event → InputSocket
  | .accept answers => s.acceptClients answers
  | .readEvent id eof => s.readEvent id eof
  | .writeEvent id plan => s.writeEvent id plan
  | .read result =>
    match s.phase with
    | .reading i eof => s.clientRead i eof result
    | _ => s
  | .callbackReturn => s.callbackReturn
  | .broadcast record answers => (s.broadcast record answers).2
  | .broadcastBound bound record answers => (s.broadcastBound bound record answers).2
  | .sendImproxy record answers => (s.sendImproxy record answers).2
  | .free => s.free

/-- A read returns some bytes, but not more than the client in a place still needs. -/
def Readable (s : InputSocket) (i : Fin maxInputClients) : ReadResult → Prop
  | .data bytes _ => bytes ≠ [] ∧ ∀ p ∈ s.clients i, bytes.length ≤ p.client.requested
  | _ => True

/-- What can happen depends on where the dispatcher is, and callbacks may send. -/
def Allowed (s : InputSocket) : Event → Prop
  | .accept _ | .readEvent _ _ | .writeEvent _ _ | .free => s.phase = .idle
  | .read result =>
    match s.phase with
    | .reading i _ => s.Readable i result
    | _ => False
  | .callbackReturn =>
    match s.phase with
    | .callback _ _ => True
    | _ => False
  | .broadcast _ _ | .broadcastBound _ _ _ | .sendImproxy _ _ =>
    match s.phase with
    | .idle | .callback _ _ => True
    | _ => False

instance (s : InputSocket) (i : Fin maxInputClients) (result : ReadResult) :
    Decidable (s.Readable i result) :=
  match result with
  | .data _ _ => by unfold Readable; infer_instance
  | .eof | .again | .intr | .error => .isTrue trivial

instance (s : InputSocket) (event : Event) : Decidable (s.Allowed event) := by
  unfold Allowed
  cases event <;> dsimp only <;> first | infer_instance | (split <;> infer_instance)

def machine : Machine InputSocket Event where
  start s := ∃ dropCb, s = { dropCb }
  enabled := Allowed
  next := next

instance (s : InputSocket) (event : Event) : Decidable (machine.enabled s event) :=
  inferInstanceAs (Decidable (s.Allowed event))

end InputSocket

end Xios
