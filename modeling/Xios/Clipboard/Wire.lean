import Xios.Clipboard.Hosts
import Xios.Input.Outbound
import Xios.Lib.Draining

/-! Clipboard records on the wire, in `iosc-clipboard-bridge.c` and `IoscClipboard.c`. -/

namespace Xios

def clipTxBacklogMax : Nat := 64 * 1024 * 1024

namespace ClipRecord

def header (r : ClipRecord) : XiosMsg where
  magic := msgMagic
  type := msgClipboard
  length := BitVec.ofNat 32 r.data.length
  a := BitVec.ofNat 32 r.kind
  b := r.gen

/-- The bytes of a record. -/
def encode (r : ClipRecord) : List UInt8 :=
  r.header.encode ++ r.data

def ofWire (m : XiosMsg) (payload : List UInt8) : Option ClipRecord :=
  if known : m.a.toNat < 5 then some ⟨⟨m.a.toNat, known⟩, m.b, payload⟩ else none

/-- A record within the limits. -/
structure Valid (r : ClipRecord) : Prop where
  gen : r.gen ≠ 0#32
  small : r.data.length ≤ clipItemMax
  cleared : r.kind = 0 → r.data = []

end ClipRecord

/-- What goes out to one host. -/
structure ClipTx where
  -- The bytes in the buffer, and the number of them that are sent already.
  tx : List UInt8 := []
  txOff : Nat := 0
  -- The bytes the buffer has room for.
  txCap : Nat := 0
  -- The event loop reports when the socket takes bytes.
  writable : Bool := false
  -- All bytes put on the socket so far, which the code does not keep.
  sent : List UInt8 := []

/-- How the system answers while one record is sent. -/
structure TxAnswer where
  -- Memory can be had for the fixed part, and for the payload.
  header : Bool := true
  payload : Bool := true
  plan : List WriteResult
  deriving DecidableEq

namespace ClipTx

def pending (c : ClipTx) : List UInt8 :=
  c.tx.drop c.txOff

def compact (c : ClipTx) : ClipTx :=
  if 0 < c.txOff ∧ (c.tx.length ≤ c.txOff ∨ c.txCap / 2 < c.txOff) then
    { c with tx := c.pending, txOff := 0 }
  else c

/-- Append bytes, unless too many wait. -/
def txQueue (c : ClipTx) (buf : List UInt8) (memory : Bool) : Option ClipTx :=
  if clipTxBacklogMax < c.tx.length - c.txOff + buf.length then none
  else
    let c := c.compact
    let need := c.tx.length + buf.length
    if c.txCap < need ∧ memory = false then none
    else
      some { c with
        tx := c.tx ++ buf
        txCap :=
          if c.txCap < need then growCap need (if c.txCap = 0 then 4096 else c.txCap) need
          else c.txCap
        writable := true }

def txFlush (c : ClipTx) (plan : List WriteResult) : Option ClipTx :=
  let flushed := writeLoop c.pending plan
  let c := { c with sent := c.sent ++ flushed.put }
  match flushed.ended with
  | .done => some { c with tx := [], txOff := 0, writable := false }
  | .blocked => some { c with txOff := c.txOff + flushed.put.length }
  | .failed => none

/-- Send a record in two pieces, the second one only if there is a payload. -/
def txRecord (c : ClipTx) (r : ClipRecord) (answer : TxAnswer) : Option ClipTx := do
  let c ← c.txQueue r.header.encode answer.header
  let c ← if r.data = [] then some c else c.txQueue r.data answer.payload
  c.txFlush answer.plan

def txHello (c : ClipTx) (answer : TxAnswer) : Option ClipTx := do
  let c ← c.txQueue XiosMsg.hello.encode answer.header
  c.txFlush answer.plan

/-- What happens to a host that has shaken hands. -/
inductive Event where
  -- It is sent a record, of a snapshot or a broadcast.
  | record (r : ClipRecord) (answer : TxAnswer)
  -- Its socket takes bytes again.
  | writable (plan : List WriteResult)

/-- One event, after which a host that could not be served is dropped. -/
def next (c : ClipTx) : Event → Option ClipTx
  | .record r answer => c.txRecord r answer
  | .writable plan => c.txFlush plan

def connected (hello : TxAnswer) (events : List Event) : Option ClipTx := do
  let c ← txHello {} hello
  events.foldlM next c

def records (events : List Event) : List ClipRecord :=
  events.filterMap fun
    | .record r _ => some r
    | .writable _ => none

end ClipTx

/-- What comes next on a clipboard connection. -/
inductive ClipPhase where
  -- The opening record.
  | hello
  -- The fixed part of a record.
  | header
  | payload (m : XiosMsg) (nonempty : 0 < m.length.toNat)

def deliver (check : XiosMsg → Bool) (m : XiosMsg) (payload : List UInt8) :
    Verdict ClipPhase ClipRecord :=
  match ClipRecord.ofWire m payload with
  | some r => if check m then .more .header [r] else .stop []
  | none => .stop []

end Xios
