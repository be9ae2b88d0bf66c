import Xios.Lib.Writing
import Xios.SysInt.Link

/-! The same links byte by byte, with every call to `write` and what it puts on the socket. -/

namespace Xios

def atOnce : List WriteResult :=
  [.took msgSize]

def whole (plan : List WriteResult) : Bool :=
  (writeLoop XiosMsg.hello.encode plan).ended = .done

/-- The clock and the peer at one connection attempt. -/
structure WireAttempt where
  -- Current second.
  now : Nat
  -- There is a socket, and connecting succeeds.
  connects : Bool
  -- Results of writing the opening record.
  hello : List WriteResult := atOnce

def WireAttempt.outcome (attempt : WireAttempt) : Attempt :=
  ⟨attempt.now, attempt.connects && whole attempt.hello⟩

/-- What went out on one connection. -/
structure Wire where
  bytes : List UInt8
  -- The record whose write failed and ended the connection.
  torn : Option XiosMsg := none

/-- One link with the bytes that went out on its connections. -/
structure WireLink where
  link : SiLink
  -- The connections it has had, newest first.
  wires : List Wire := []
  -- Bytes put on connections that were given up before their opening record was out.
  unopened : List (List UInt8) := []

namespace WireLink

/-- Put bytes on the current connection. -/
def onWire (w : WireLink) (bytes : List UInt8) (torn : Option XiosMsg) : WireLink :=
  match w.wires with
  | [] => w
  | wire :: earlier => { w with wires := ⟨wire.bytes ++ bytes, torn⟩ :: earlier }

/-- Write one record, giving up the connection if that fails. -/
def sendRaw (w : WireLink) (m : XiosMsg) (plans : List (List WriteResult)) :
    Bool × WireLink × List (List WriteResult) :=
  if !w.link.isOpen then (false, w, plans)
  else
    let out := writeLoop m.encode (plans.headD atOnce)
    let w := w.onWire out.put (if out.ended = .done then none else some m)
    -- A socket that takes nothing at the moment counts as failed here.
    if out.ended = .done then
      (true,
        { w with link := w.link.onStream fun stream => { stream with sent := stream.sent ++ [m] } },
        plans.tail)
    else (false, { w with link := { w.link with isOpen := false } }, plans.tail)

def replay (w : WireLink) : List XiosMsg → List (List WriteResult) →
    WireLink × List (List WriteResult)
  | [], plans => (w, plans)
  | m :: rest, plans =>
    let sent := w.sendRaw m plans
    sent.2.1.replay rest sent.2.2

/-- Connect if necessary, at most once a second, and report whether an attempt succeeded. -/
def ensure (w : WireLink) (attempt : WireAttempt) (remembered : List XiosMsg)
    (plans : List (List WriteResult)) : Bool × WireLink × List (List WriteResult) :=
  if w.link.isOpen then (true, w, plans)
  else if !w.link.configured then (false, w, plans)
  else if attempt.now = w.link.lastTry then (false, w, plans)
  else
    let link := { w.link with lastTry := attempt.now }
    if !attempt.connects then (false, { w with link }, plans)
    else
      let out := writeLoop XiosMsg.hello.encode attempt.hello
      if out.ended = .done then
        let link := { link with isOpen := true, helloReceived := false, streams := {} :: link.streams }
        let replayed := replay { w with link, wires := ⟨out.put, none⟩ :: w.wires } remembered plans
        (true, replayed.1, replayed.2)
      else (false, { w with link, unopened := out.put :: w.unopened }, plans)

/-- Send one record, reconnecting once if the connection turns out to be gone. -/
def send (w : WireLink) (m : XiosMsg) (remembered : List XiosMsg) (first second : WireAttempt)
    (plans : List (List WriteResult)) : WireLink :=
  let ensured := w.ensure first remembered plans
  if !ensured.1 then ensured.2.1
  else
    let sent := ensured.2.1.sendRaw m ensured.2.2
    if sent.1 then sent.2.1
    else
      let w := { sent.2.1 with link := { sent.2.1.link with lastTry := 0 } }
      let again := w.ensure second remembered sent.2.2
      if again.1 then (again.2.1.sendRaw m again.2.2).2.1 else again.2.1

def pollMsg (id : LinkId) (w : WireLink) (attempt : WireAttempt) (remembered : List XiosMsg)
    (plans : List (List WriteResult)) (reads : List LinkRead) : Option XiosMsg × WireLink :=
  let ensured := w.ensure attempt remembered plans
  let w := ensured.2.1
  if !ensured.1 then (none, w)
  else if !w.link.isOpen then (none, { w with link := w.link.hangUp })
  else
    let polled := w.link.pollReads id reads
    (polled.1, { w with link := polled.2 })

end WireLink

/-- A handle with the bytes that went out on its links. -/
structure WireHandle where
  link : LinkId → WireLink
  -- Last orientation and size, if any.
  lastOutput : Option XiosMsg := none
  lastVolume : Option XiosMsg := none
  lastAppearance : Option XiosMsg := none

namespace WireHandle

def handle (h : WireHandle) : SysIntHandle where
  link id := (h.link id).link
  lastOutput := h.lastOutput
  lastVolume := h.lastVolume
  lastAppearance := h.lastAppearance

def setLink (h : WireHandle) (id : LinkId) (w : WireLink) : WireHandle :=
  { h with link := Function.update h.link id w }

def remember (h : WireHandle) : SendRequest → WireHandle
  | request@(.volume _) => { h with lastVolume := some request.msg }
  | request@(.appearance _) => { h with lastAppearance := some request.msg }
  | request@(.output ..) => { h with lastOutput := some request.msg }

/-- What a caller can do with a handle, with what the outside world answers. -/
inductive Event where
  -- Send a state record.
  | send (request : SendRequest) (first second : WireAttempt) (plans : List (List WriteResult))
  | ensure (id : LinkId) (attempt : WireAttempt) (plans : List (List WriteResult))
  | poll (id : LinkId) (attempt : WireAttempt) (plans : List (List WriteResult))
      (reads : List LinkRead)

def next (h : WireHandle) : Event → WireHandle
  | .send request first second plans =>
    let h := h.remember request
    h.setLink request.id
      ((h.link request.id).send request.msg (h.handle.remembered request.id) first second plans)
  | .ensure id attempt plans =>
    h.setLink id ((h.link id).ensure attempt (h.handle.remembered id) plans).2.1
  | .poll id attempt plans reads =>
    h.setLink id ((h.link id).pollMsg id attempt (h.handle.remembered id) plans reads).2

def machine : Machine WireHandle Event where
  start h := ∃ configured : LinkId → Bool,
    h = { link := fun id => { link := { configured := configured id } } }
  enabled _ _ := True
  next := next

end WireHandle

end Xios
