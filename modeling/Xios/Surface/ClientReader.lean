import Xios.Lib.Framing
import Xios.Lib.Machine
import Xios.Protocol.Message

/-! The thread that reads what an app sends on its presentation connection, and how it should. -/

namespace Xios

/-- What is read next from an app. -/
inductive AppPhase where
  -- The fixed part of a record.
  | header
  -- So many bytes and one more, which are not looked at.
  | skip (more : Nat)
  deriving DecidableEq, Repr

def clientReader (count : BitVec 32 → Nat) : Reader AppPhase UInt8 XiosMsg where
  want
    | .header => msgSize
    | .skip more => more + 1
  positive phase := by
    cases phase with
    | header => decide
    | skip more => exact Nat.succ_pos more
  finish
    | .header, frame =>
      let m := XiosMsg.decode frame
      if m.magic ≠ msgMagic then .stop []
      else
        match count m.length with
        | 0 => .more .header [m]
        | more + 1 => .more (.skip more) [m]
    | .skip _, _ => .more .header []

abbrev plainReader : Reader AppPhase UInt8 XiosMsg :=
  clientReader BitVec.toNat

/-- The reader that takes a length for a signed number, and skips nothing if it is negative. -/
abbrev signedReader : Reader AppPhase UInt8 XiosMsg :=
  clientReader fun length => length.toInt.toNat

/-- What the reader is doing. -/
inductive ReaderMode where
  -- It waits until there is something to read.
  | polling
  -- It reads as long as there is something.
  | reading
  | out
  deriving DecidableEq, Repr

/-- The variables of the loop, and what it has done. -/
structure ClientReader where
  mode : ReaderMode := .polling
  -- The received part of a record.
  rxbuf : List UInt8 := []
  -- Bytes to be skipped, which is a signed number.
  skip : Int := 0
  handed : List XiosMsg := []
  -- The loop has ended because of a record with a wrong magic number.
  stopped : Bool := false
  -- Everything received, which the code does not keep.
  received : List UInt8 := []

namespace ClientReader

def scratchSize : Nat := 128

def want (s : ClientReader) : Nat :=
  if 0 < s.skip then min s.skip.toNat scratchSize else msgSize - s.rxbuf.length

def finish (s : ClientReader) : ClientReader :=
  let m := XiosMsg.decode s.rxbuf
  let s := { s with rxbuf := [] }
  if m.magic ≠ msgMagic then { s with mode := .out, stopped := true }
  else
    let s := { s with handed := s.handed ++ [m] }
    -- The unsigned length is cast to a signed number.
    if 0 < m.length.toNat then { s with skip := m.length.toInt } else s

def take (s : ClientReader) (got : List UInt8) : ClientReader :=
  let s := { s with received := s.received ++ got }
  if 0 < s.skip then { s with skip := s.skip - got.length }
  else
    let s := { s with rxbuf := s.rxbuf ++ got }
    if s.rxbuf.length < msgSize then s else s.finish

/-- What the calls of the reader return. -/
inductive Event where
  | ready
  -- The app has hung up, or waiting failed.
  | hangUp
  -- At least one byte arrives.
  | data (first : UInt8) (more : List UInt8)
  -- There is nothing more to read at the moment.
  | again
  -- A signal interrupts a call.
  | intr
  -- The app has closed its end, or reading fails.
  | gone
  deriving DecidableEq

/-- The answers to the call that the loop makes. -/
def Answers (s : ClientReader) : Event → Prop
  | .ready | .hangUp => s.mode = .polling
  | .data .. | .again | .gone => s.mode = .reading
  | .intr => s.mode ≠ .out

instance (s : ClientReader) (event : Event) : Decidable (s.Answers event) := by
  cases event <;> unfold Answers <;> infer_instance

def next (s : ClientReader) : Event → ClientReader
  | .ready => { s with mode := .reading }
  | .data first more => s.take ((first :: more).take s.want)
  | .again => { s with mode := .polling }
  | .intr => s
  | .hangUp | .gone => { s with mode := .out }

def machine : Machine ClientReader Event where
  start s := s = {}
  enabled := Answers
  next := next

/-- The loop has handed on, and stopped at, what it should have. -/
def Agrees (s : ClientReader) : Prop :=
  s.handed = (plainReader.parse .header s.received).out ∧
    (s.stopped = true ↔ (plainReader.parse .header s.received).waiting = none)

end ClientReader

end Xios
