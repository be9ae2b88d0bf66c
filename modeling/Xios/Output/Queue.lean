import Mathlib.Data.Fintype.Basic
import Xios.Lib.Mask

/-! The output-buffer ownership scheduler of `xios_output_queue.h`. -/

namespace Xios

abbrev outputQueueMaxBuffers : Nat := 3

theorem one_le_maxBuffers : 1 ≤ outputQueueMaxBuffers := by decide

/-- The largest value of the C type `unsigned`. -/
def uintMax : Nat := 4294967295

/-- Ownership, release and age bookkeeping of one output allocation. -/
structure OutputQueueSlot where
  -- The producer holds the slot.
  acquired : Bool := false
  -- A consumer vanished while it still owned the slot.
  abandoned : Bool := false
  -- Consumers that have been shown the slot and not yet released it.
  pendingClients : BitVec 32 := 0#32
  -- Largest release accepted since the last acquisition.
  releaseWaitValue : Nat := 0
  -- Frame number of the last publication, zero when there was none.
  lastFrame : Nat := 0
  -- Sequence number of the last publication.
  lastSeq : Nat := 0
  deriving DecidableEq, Repr

/--
The scheduler's whole state.

The bound on the count is checked by the only function that sets it.
The 64-bit frame counter is a natural number, since one frame advances it by one.
-/
structure OutputQueue where
  -- Every allocation, including those past the count.
  slots : Fin outputQueueMaxBuffers → OutputQueueSlot
  -- Allocations in use.
  count : Nat
  -- No more allocations are in use than exist.
  bounded : count ≤ outputQueueMaxBuffers
  -- Position at which the next rotating acquisition starts looking.
  cursor : Nat
  -- Number of publications so far.
  frame : Nat
  deriving DecidableEq

namespace OutputQueue

/-- An empty queue of the requested size, refused when the size is too large. -/
def reset (count : Nat) : Option OutputQueue :=
  -- Zeroed memory is a queue of free, never published slots.
  if bounded : count ≤ outputQueueMaxBuffers then
    some { slots := fun _ => {}, count, bounded, cursor := 0, frame := 0 }
  else none

/-- What a successful acquisition reports. -/
structure Grant where
  -- The slot now held by the producer.
  index : Fin outputQueueMaxBuffers
  -- Frames since the slot's contents were current, zero when they are undefined.
  age : Nat
  -- Release the producer's drawing has to wait for.
  releaseWaitValue : Nat
  deriving DecidableEq, Repr

def busy (slot : OutputQueueSlot) : Bool :=
  slot.acquired || slot.abandoned || slot.pendingClients != 0#32

/-- The buffer age of a slot, saturated at the width of the out-parameter. -/
def slotAge (q : OutputQueue) (slot : OutputQueueSlot) : Nat :=
  if slot.lastFrame ≠ 0 ∧ slot.lastFrame ≤ q.frame then
    min (q.frame - slot.lastFrame + 1) uintMax
  else 0

/-- Hand one free slot to the producer, in a scan over `count` slots. -/
def take (q : OutputQueue) (count : Nat) (i : Fin outputQueueMaxBuffers) : Grant × OutputQueue :=
  let slot := q.slots i
  ({ index := i, age := q.slotAge slot, releaseWaitValue := slot.releaseWaitValue },
   { q with
     -- The wait value is handed over once, with this grant.
     slots := Function.update q.slots i { slot with acquired := true, releaseWaitValue := 0 }
     cursor := (i + 1) % count })

/-- The slot examined at one position of the acquisition loop. -/
def candidate (q : OutputQueue) (nonempty : 0 < q.count) (rotate : Bool) (n : Nat) :
    Fin outputQueueMaxBuffers :=
  -- Consumers without stream-v2 only know the primary slot.
  if rotate then ⟨(q.cursor + n) % q.count, lt_of_lt_of_le (Nat.mod_lt _ nonempty) q.bounded⟩
  else 0

/-- The acquisition loop from position `n`, with the number of positions left to examine. -/
def acquireFrom (q : OutputQueue) (nonempty : 0 < q.count) (rotate : Bool) (count : Nat) :
    Nat → Nat → Option (Grant × OutputQueue)
  | _, 0 => none
  | n, left + 1 =>
    let i := q.candidate nonempty rotate n
    if busy (q.slots i) then acquireFrom q nonempty rotate count (n + 1) left
    else some (q.take count i)

/-- Acquire a free slot for the next frame, rotating only for stream-v2 consumers. -/
def acquire (q : OutputQueue) (rotate : Bool) : Option (Grant × OutputQueue) :=
  if nonempty : 0 < q.count then
    let count := if rotate then q.count else 1
    acquireFrom q nonempty rotate count 0 count
  else none

/-- Give an acquired slot back without a new frame in it. -/
def cancel (q : OutputQueue) (index : Nat) : OutputQueue :=
  if inUse : index < q.count then
    let i : Fin outputQueueMaxBuffers := ⟨index, lt_of_lt_of_le inUse q.bounded⟩
    { q with slots := Function.update q.slots i { q.slots i with acquired := false } }
  else q

/-- Transfer a slot to the consumers that were shown its new frame. -/
def publish (q : OutputQueue) (index : Nat) (pendingClients : BitVec 32) (seq : Nat) :
    OutputQueue :=
  if inUse : index < q.count then
    let i : Fin outputQueueMaxBuffers := ⟨index, lt_of_lt_of_le inUse q.bounded⟩
    { q with
      slots := Function.update q.slots i
        { q.slots i with
          acquired := false, abandoned := false, pendingClients, lastSeq := seq
          lastFrame := q.frame + 1 }
      frame := q.frame + 1 }
  else q

/-- Accept a release of exactly the generation the consumer still owns. -/
def release (q : OutputQueue) (index : Nat) (clientBit : BitVec 32) (seq : Nat) :
    Bool × OutputQueue :=
  if inUse : index < q.count then
    let i : Fin outputQueueMaxBuffers := ⟨index, lt_of_lt_of_le inUse q.bounded⟩
    let slot := q.slots i
    if clientBit = 0#32 ∨ seq = 0 then (false, q)
    else if slot.pendingClients &&& clientBit = 0#32 ∨ slot.lastSeq ≠ seq then (false, q)
    else
      (true, { q with
        slots := Function.update q.slots i
          { slot with
            pendingClients := slot.pendingClients &&& ~~~clientBit
            releaseWaitValue := max slot.releaseWaitValue seq } })
  else (false, q)

/-- Quarantine every slot that a vanished consumer still owned. -/
def dropClient (q : OutputQueue) (clientBit : BitVec 32) : OutputQueue :=
  if clientBit = 0#32 then q
  else
    { q with
      slots := fun i =>
        let slot := q.slots i
        if (i : Nat) < q.count then
          { slot with
            abandoned := slot.abandoned || slot.pendingClients &&& clientBit != 0#32
            pendingClients := slot.pendingClients &&& ~~~clientBit }
        else slot }

/-- Lift the quarantine once a new consumer has completed its handshake. -/
def recoverAbandoned (q : OutputQueue) : OutputQueue :=
  { q with
    slots := fun i =>
      if (i : Nat) < q.count then { q.slots i with abandoned := false } else q.slots i }

variable {q after : OutputQueue} {rotate : Bool} {grant : Grant}

theorem acquireFrom_some {nonempty : 0 < q.count} {count n left : Nat}
    (acquired : acquireFrom q nonempty rotate count n left = some (grant, after)) :
    busy (q.slots grant.index) = false ∧ (grant.index : Nat) < q.count ∧
      (grant, after) = q.take count grant.index := by
  -- The induction is on the positions left, and every busy slot is passed over unchanged.
  induction left generalizing n with
  | zero => simp [acquireFrom] at acquired
  | succ left ih =>
    simp only [acquireFrom] at acquired
    split at acquired
    · exact ih acquired
    · rename_i free
      simp only [Option.some.injEq] at acquired
      have index : grant.index = q.candidate nonempty rotate n := by
        exact (congrArg (fun result => result.1.index) acquired).symm
      refine ⟨by simpa [index] using free, ?_, by rw [index]; exact acquired.symm⟩
      rw [index]
      cases rotate with
      | false => simpa [candidate] using nonempty
      | true => simpa [candidate] using Nat.mod_lt _ nonempty

theorem acquire_some (acquired : q.acquire rotate = some (grant, after)) :
    busy (q.slots grant.index) = false ∧ (grant.index : Nat) < q.count ∧
      (grant, after) = q.take (if rotate then q.count else 1) grant.index := by
  unfold acquire at acquired
  split at acquired
  · exact acquireFrom_some acquired
  · simp at acquired

end OutputQueue

end Xios
