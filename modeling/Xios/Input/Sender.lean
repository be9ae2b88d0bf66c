import Xios.Lib.Memory
import Xios.Lib.Writing
import Xios.Protocol.Message

/-! The app's end of an input connection, as in `IoscInput.c`. -/

namespace Xios

def outqMax : Nat := 64 * 1024

def textChunk : Nat := 4096

/-- A record as it is handed over to be sent. -/
structure SenderRecord where
  msg : XiosMsg
  -- What follows the header.
  payload : List UInt8 := []
  deriving DecidableEq

def SenderRecord.bytes (r : SenderRecord) : List UInt8 :=
  r.msg.encode ++ r.payload

def senderStream (records : List SenderRecord) : List UInt8 :=
  (records.map SenderRecord.bytes).flatten

/-- Why a connection was dropped. -/
inductive SenderLoss where
  -- A write failed.
  | error
  -- More would have had to wait than is kept.
  | overflow
  -- There was no memory to let anything wait.
  | memory
  -- The compositor closed the connection or sent something unexpected.
  | peer
  deriving DecidableEq, Repr

/-- How the system answers while one record is sent. -/
structure SenderAnswer where
  plan : List WriteResult := []
  memory : Bool := true

/-- A connection to the compositor. -/
structure IoscInput where
  isOpen : Bool := true
  -- Memory for the bytes that wait.
  outq : Memory UInt8 := fun _ => 0
  allocated : Bool := false
  -- Where in it the bytes begin.
  outqHead : Nat := 0
  -- Number of bytes that wait.
  outqLen : Nat := 0
  -- All bytes put on the socket so far.
  written : List UInt8 := []
  -- All records that were to be sent while the connection was there.
  sent : List SenderRecord := []
  -- Why the connection was dropped, if it was.
  loss : Option SenderLoss := none

namespace IoscInput

def queued (h : IoscInput) : List UInt8 :=
  h.outq.read h.outqHead h.outqLen

def drop (h : IoscInput) (loss : SenderLoss) : IoscInput :=
  { h with isOpen := false, outqHead := 0, outqLen := 0, loss := some loss }

def flushOut (h : IoscInput) (plan : List WriteResult) : IoscInput × List WriteResult :=
  let flushed := writeLoop h.queued plan
  let h :=
    { h with
      written := h.written ++ flushed.put
      outqHead := h.outqHead + flushed.put.length
      outqLen := h.outqLen - flushed.put.length }
  if flushed.ended = .failed then (h.drop .error, flushed.plan)
  else ({ h with outqHead := if h.outqLen = 0 then 0 else h.outqHead }, flushed.plan)

/-- What became of the two parts of a record. -/
structure SentParts where
  -- Bytes the socket took.
  put : List UInt8
  -- Bytes of the header it did not take.
  header : List UInt8
  -- Bytes of the payload it did not take.
  payload : List UInt8
  ended : WriteEnd

def writeParts (r : SenderRecord) (plan : List WriteResult) : SentParts :=
  let first := writeLoop r.msg.encode plan
  match first.ended with
  | .done =>
    let second := writeLoop r.payload first.plan
    ⟨first.put ++ second.put, [], second.rest, second.ended⟩
  | ended => ⟨first.put, first.rest, r.payload, ended⟩

def direct (h : IoscInput) (r : SenderRecord) (plan : List WriteResult) : SentParts :=
  if h.outqLen = 0 then writeParts r plan else ⟨[], r.msg.encode, r.payload, .blocked⟩

/-- Move what waits to the front of the memory if the end has no room. -/
def compact (h : IoscInput) (rest : Nat) : IoscInput :=
  if outqMax < h.outqHead + h.outqLen + rest then
    { h with outq := h.outq.move 0 h.outqHead h.outqLen, outqHead := 0 }
  else h

def enqueue (h : IoscInput) (parts : SentParts) (memory : Bool) : IoscInput :=
  let rest := parts.header.length + parts.payload.length
  if outqMax < h.outqLen + rest then h.drop .overflow
  else if h.allocated = false ∧ memory = false then h.drop .memory
  else
    let h := { h with allocated := true }.compact rest
    let tail := h.outqHead + h.outqLen
    { h with
      outq := (h.outq.write tail parts.header).write (tail + parts.header.length) parts.payload
      outqLen := h.outqLen + rest }

def sendFlushed (h : IoscInput) (r : SenderRecord) (plan : List WriteResult) (memory : Bool) :
    IoscInput :=
  let parts := h.direct r plan
  let h := { h with written := h.written ++ parts.put }
  match parts.ended with
  | .failed => h.drop .error
  | .done => h
  | .blocked => h.enqueue parts memory

/-- Send one record, header and payload, and let wait what the socket does not take. -/
def sendRecord (h : IoscInput) (r : SenderRecord) (answer : SenderAnswer) : IoscInput :=
  if h.isOpen = false then h
  else
    let flushed := flushOut { h with sent := h.sent ++ [r] } answer.plan
    if flushed.1.isOpen = false then flushed.1
    else flushed.1.sendFlushed r flushed.2 answer.memory

def sendMsg (h : IoscInput) (m : XiosMsg) (answer : SenderAnswer) : IoscInput :=
  h.sendRecord { msg := m } answer

def bindMsg (window : BitVec 32) : XiosMsg :=
  .input inBind 0#32 0#32 window 0#32 0#32

/-- Introduce the app on a new connection, and bind it to a window unless that is zero. -/
def inputOpen (window : BitVec 32) (hello bind : SenderAnswer) : IoscInput :=
  let h := sendMsg {} .hello hello
  if window = 0#32 then h else h.sendMsg (bindMsg window) bind

def motionMsg (x y : BitVec 32) : XiosMsg :=
  .input inMotion x y 0#32 0#32 0#32

def buttonMsg (button : BitVec 32) (down : Bool) (x y : BitVec 32) : XiosMsg :=
  .input inButton x y button (if down then 1#32 else 0#32) 0#32

def keyMsg (keysym : BitVec 32) (down : Bool) (mods : BitVec 32) : XiosMsg :=
  .input inKey 0#32 0#32 keysym (if down then 1#32 else 0#32) mods

def touchMsg (slot phase x y : BitVec 32) : XiosMsg :=
  .input inTouch x y slot phase 0#32

/-- An angle within a right angle either way, counted from its lower end. -/
def tiltDegrees (tilt : BitVec 32) : BitVec 32 :=
  BitVec.ofInt 32 (min 90 (max (-90) tilt.toInt) + 90)

def tabletMsg (phase x y pressure16 tiltX tiltY : BitVec 32) : XiosMsg :=
  .input inTablet x y (if 65535#32 < pressure16 then 65535#32 else pressure16) phase
    (tiltDegrees tiltX ||| tiltDegrees tiltY <<< 8)

def axisMsg (dx256 dy256 source mods : BitVec 32) (stop : Bool) : XiosMsg :=
  .input inAxis dx256 dy256 source (if stop then 1#32 else 0#32) mods

def gestureMsg (kind phase fingers dx256 dy256 scale256 rot256 : BitVec 32) : XiosMsg :=
  .input inGesture dx256 dy256
    ((kind &&& 0xff#32) ||| ((phase &&& 0xff#32) <<< 8) ||| ((fingers &&& 0xff#32) <<< 16))
    scale256 rot256

def textMsg (len : Nat) : XiosMsg :=
  { XiosMsg.input inText 0#32 0#32 (BitVec.ofNat 32 len) 0#32 0#32 with
    length := BitVec.ofNat 32 len }

/-- Go back from a length until no code point is cut. -/
def backOff (utf8 : List UInt8) : Nat → Nat
  | 0 => 0
  | len + 1 => if utf8.getD (len + 1) 0 &&& 0xc0 = 0x80 then backOff utf8 len else len + 1

/-- Number of bytes of a text that go into its next record. -/
def chunkLength (utf8 : List UInt8) : Nat :=
  if textChunk < utf8.length then backOff utf8 textChunk else utf8.length

/-- Send a text in records of bounded size, until it is out or no more can wait. -/
def textLoop : Nat → IoscInput → List UInt8 → List SenderAnswer → IoscInput
  | 0, h, _, _ => h
  | fuel + 1, h, utf8, answers =>
    if utf8 = [] ∨ h.isOpen = false then h
    else
      let len := chunkLength utf8
      if len = 0 then h
      else if outqMax < h.outqLen + msgSize + len then h
      else
        let h := h.sendRecord ⟨textMsg len, utf8.take len⟩ (answers.headD {})
        textLoop fuel h (utf8.drop len) answers.tail

def inputText (h : IoscInput) (utf8 : List UInt8) (answers : List SenderAnswer) : IoscInput :=
  let text := utf8.takeWhile (· ≠ 0)
  textLoop text.length h text answers

/-- Write what waits, and look for records from the compositor. -/
def pollTraits (h : IoscInput) (gone : Bool) (answer : SenderAnswer) : IoscInput :=
  if h.isOpen = false then h
  else
    let h := (h.flushOut answer.plan).1
    if h.isOpen = false then h else if gone then h.drop .peer else h

/-- What the app can ask of a connection. -/
inductive Call where
  -- A record that is only a header.
  | motion (x y : BitVec 32)
  | button (button : BitVec 32) (down : Bool) (x y : BitVec 32)
  | key (keysym : BitVec 32) (down : Bool) (mods : BitVec 32)
  | touch (slot phase x y : BitVec 32)
  | tablet (phase x y pressure16 tiltX tiltY : BitVec 32)
  | axis (dx256 dy256 source mods : BitVec 32) (stop : Bool)
  | gesture (kind phase fingers dx256 dy256 scale256 rot256 : BitVec 32)
  | text (utf8 : List UInt8)
  -- A look at what came back.
  | pollTraits (gone : Bool)

def call (h : IoscInput) (answers : List SenderAnswer) : Call → IoscInput
  | .motion x y => h.sendMsg (motionMsg x y) (answers.headD {})
  | .button button down x y => h.sendMsg (buttonMsg button down x y) (answers.headD {})
  | .key keysym down mods => h.sendMsg (keyMsg keysym down mods) (answers.headD {})
  | .touch slot phase x y => h.sendMsg (touchMsg slot phase x y) (answers.headD {})
  | .tablet phase x y pressure16 tiltX tiltY =>
    h.sendMsg (tabletMsg phase x y pressure16 tiltX tiltY) (answers.headD {})
  | .axis dx256 dy256 source mods stop =>
    h.sendMsg (axisMsg dx256 dy256 source mods stop) (answers.headD {})
  | .gesture kind phase fingers dx256 dy256 scale256 rot256 =>
    h.sendMsg (gestureMsg kind phase fingers dx256 dy256 scale256 rot256) (answers.headD {})
  | .text utf8 => h.inputText utf8 answers
  | .pollTraits gone => h.pollTraits gone (answers.headD {})

end IoscInput

end Xios
