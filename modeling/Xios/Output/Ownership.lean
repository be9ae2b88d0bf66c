import Xios.Lib.Machine
import Xios.Output.Queue

/-! A slot is handed out again only after every consumer of its last frame has let go of it. -/

namespace Xios

/-- The operations a producer and the consumers of its frames perform on one queue. -/
inductive QueueOp where
  -- The producer asks for a slot.
  | acquire (rotate : Bool)
  -- The producer gives a slot back unpublished.
  | cancel (index : Nat)
  -- The producer shows a slot to the listed consumers.
  | publish (index : Nat) (pendingClients : BitVec 32) (seq : Nat)
  -- A consumer claims to be done with a slot.
  | release (index : Nat) (client : Fin 32) (seq : Nat)
  -- A consumer disappears.
  | dropClient (client : Fin 32)
  -- A new consumer has completed its handshake.
  | recoverAbandoned
  deriving DecidableEq, Repr

/-- A call publishes a slot. -/
def QueueOp.publishes (index : Nat) : QueueOp → Prop
  | .publish target _ _ => target = index
  | _ => False

/-- A queue together with the slots its producer has been granted and not given up. -/
structure Producer where
  queue : OutputQueue
  -- Slots granted by an acquisition and not cancelled or published since.
  held : Nat → Bool

namespace Producer

def setHeld (s : Producer) (index : Nat) (holding : Bool) : Producer :=
  { s with held := Function.update s.held index holding }

/-- Execute one operation, keeping track of what the producer holds. -/
def next (s : Producer) : QueueOp → Producer
  | .acquire rotate =>
    match s.queue.acquire rotate with
    | some (grant, queue) => setHeld { s with queue } grant.index true
    | none => s
  | .cancel index => setHeld { s with queue := s.queue.cancel index } index false
  | .publish index pendingClients seq =>
    setHeld { s with queue := s.queue.publish index pendingClients seq } index false
  | .release index client seq =>
    { s with queue := (s.queue.release index (Mask.bit 32 client) seq).2 }
  | .dropClient client => { s with queue := s.queue.dropClient (Mask.bit 32 client) }
  | .recoverAbandoned => { s with queue := s.queue.recoverAbandoned }

/-- The producer gives up only slots that it holds, and everyone else acts freely. -/
def Allowed (s : Producer) : QueueOp → Prop
  | .cancel index | .publish index _ _ => s.held index = true
  | _ => True

instance (s : Producer) (op : QueueOp) : Decidable (s.Allowed op) := by
  cases op <;> unfold Allowed <;> infer_instance

/-- All uses of a queue of the given size, beginning with its reset. -/
def machine (count : Nat) : Machine Producer QueueOp where
  start s := OutputQueue.reset count = some s.queue ∧ s.held = fun _ => false
  enabled := Allowed
  next := next

end Producer

/-- The trace since the most recent publication of a slot. -/
structure LastPublish (trace : List QueueOp) (index : Nat) (mask : BitVec 32) (seq : Nat)
    (since : List QueueOp) : Prop where
  happened : ∃ before, trace = since ++ .publish index mask seq :: before
  -- Nothing after it publishes the slot again.
  latest : ∀ op ∈ since, ¬op.publishes index

/--
A consumer's use of a published slot is over.

It released exactly that publication, or it disappeared and a later handshake lifted the quarantine.
-/
def Settled (index : Nat) (client : Fin 32) (seq : Nat) (since : List QueueOp) : Prop :=
  .release index client seq ∈ since ∨
    ∃ later earlier, since = later ++ .dropClient client :: earlier ∧ .recoverAbandoned ∈ later

variable {index seq : Nat} {since : List QueueOp}

theorem Settled.cons {client : Fin 32} (settled : Settled index client seq since) (op : QueueOp) :
    Settled index client seq (op :: since) := by
  rcases settled with released | ⟨later, earlier, rfl, recovered⟩
  · exact Or.inl (List.mem_cons_of_mem _ released)
  · exact Or.inr ⟨op :: later, earlier, rfl, List.mem_cons_of_mem _ recovered⟩

theorem settled_of_recovered {client : Fin 32} (dropped : .dropClient client ∈ since) :
    Settled index client seq (.recoverAbandoned :: since) := by
  obtain ⟨later, earlier, rfl⟩ := List.append_of_mem dropped
  exact Or.inr ⟨.recoverAbandoned :: later, earlier, rfl, List.mem_cons_self⟩

theorem LastPublish.cons_cases {trace : List QueueOp} {op : QueueOp} {mask : BitVec 32}
    (last : LastPublish (op :: trace) index mask seq since) :
    (since = [] ∧ op = .publish index mask seq) ∨
      ∃ older, since = op :: older ∧ ¬op.publishes index ∧
        LastPublish trace index mask seq older := by
  obtain ⟨⟨before, split⟩, latest⟩ := last
  cases since with
  | nil => exact Or.inl ⟨rfl, by simpa using congrArg List.head? split⟩
  | cons newest older =>
    simp only [List.cons_append, List.cons.injEq] at split
    obtain ⟨rfl, split⟩ := split
    exact Or.inr ⟨older, rfl, latest _ List.mem_cons_self,
      ⟨before, split⟩, fun other member => latest other (List.mem_cons_of_mem _ member)⟩

theorem LastPublish.cons {trace : List QueueOp} {mask : BitVec 32}
    (last : LastPublish trace index mask seq since) {op : QueueOp} (other : ¬op.publishes index) :
    LastPublish (op :: trace) index mask seq (op :: since) := by
  obtain ⟨⟨before, rfl⟩, latest⟩ := last
  refine ⟨⟨before, rfl⟩, ?_⟩
  intro entry member
  rcases List.mem_cons.mp member with rfl | member
  · exact other
  · exact latest entry member

/-- The fields of a slot that say who still owns it. -/
structure SlotOwners where
  -- Consumers that have not released the slot.
  pendingClients : BitVec 32
  -- A consumer vanished while owning the slot.
  abandoned : Bool
  -- The publication the consumers were shown.
  lastSeq : Nat

def OutputQueueSlot.owners (slot : OutputQueueSlot) : SlotOwners :=
  ⟨slot.pendingClients, slot.abandoned, slot.lastSeq⟩

def SlotOwners.next (owners : SlotOwners) (index : Nat) : QueueOp → SlotOwners
  | .publish target mask seq => if target = index then ⟨mask, false, seq⟩ else owners
  | .release target client seq =>
    -- Only the exact outstanding generation of this slot is taken back.
    if target = index ∧ seq ≠ 0 ∧ Mask.has owners.pendingClients client ∧ owners.lastSeq = seq then
      { owners with pendingClients := owners.pendingClients &&& ~~~Mask.bit 32 client }
    else owners
  | .dropClient client =>
    { owners with
      abandoned := owners.abandoned || Mask.has owners.pendingClients client
      pendingClients := owners.pendingClients &&& ~~~Mask.bit 32 client }
  | .recoverAbandoned => { owners with abandoned := false }
  | .acquire _ | .cancel _ => owners

namespace OutputQueue

theorem clientBit_ne_zero (client : Fin 32) : Mask.bit 32 client ≠ 0#32 := by
  intro empty
  have member := Mask.eq_zero_iff.mp empty client client.isLt
  simp at member

theorem and_clientBit_eq_zero (mask : BitVec 32) (client : Fin 32) :
    mask &&& Mask.bit 32 client = 0#32 ↔ Mask.has mask client = false :=
  Mask.and_bit_eq_zero_iff client.isLt

theorem release_eq (q : OutputQueue) (index : Nat) (client : Fin 32) (seq : Nat) :
    q.release index (Mask.bit 32 client) seq =
      if inUse : index < q.count then
        let i : Fin outputQueueMaxBuffers := ⟨index, lt_of_lt_of_le inUse q.bounded⟩
        if seq ≠ 0 ∧ Mask.has (q.slots i).pendingClients client ∧ (q.slots i).lastSeq = seq then
          (true, { q with
            slots := Function.update q.slots i
              { q.slots i with
                pendingClients := (q.slots i).pendingClients &&& ~~~Mask.bit 32 client
                releaseWaitValue := max (q.slots i).releaseWaitValue seq } })
        else (false, q)
      else (false, q) := by
  unfold release
  split
  · rename_i inUse
    simp only [clientBit_ne_zero, false_or, and_clientBit_eq_zero]
    generalize q.slots ⟨index, lt_of_lt_of_le inUse q.bounded⟩ = slot
    by_cases zero : seq = 0
    · simp [zero]
    · by_cases pending : Mask.has slot.pendingClients client = true
      · by_cases same : slot.lastSeq = seq <;> simp [zero, pending, same]
      · simp [zero, pending]
  · rfl

theorem acquire_owners {q after : OutputQueue} {rotate : Bool} {grant : Grant}
    (acquired : q.acquire rotate = some (grant, after)) (i : Fin outputQueueMaxBuffers) :
    (after.slots i).owners = (q.slots i).owners := by
  -- Only the producer's own fields of the granted slot change.
  obtain ⟨-, -, taken⟩ := acquire_some acquired
  obtain rfl : after = (q.take _ grant.index).2 := congrArg Prod.snd taken
  by_cases same : i = grant.index
  · subst same; simp [take, OutputQueueSlot.owners]
  · simp [take, Function.update_of_ne same]

end OutputQueue

theorem Producer.next_count (s : Producer) (op : QueueOp) :
    (s.next op).queue.count = s.queue.count := by
  cases op with
  | acquire rotate =>
    simp only [next]
    split
    · rename_i grant queue acquired
      obtain ⟨-, -, taken⟩ := OutputQueue.acquire_some acquired
      obtain rfl : queue = _ := congrArg Prod.snd taken
      rfl
    · rfl
  | cancel index => simp only [next, setHeld, OutputQueue.cancel]; split <;> rfl
  | publish index mask seq => simp only [next, setHeld, OutputQueue.publish]; split <;> rfl
  | release index client seq =>
    simp only [next, OutputQueue.release_eq]
    split
    · split <;> rfl
    · rfl
  | dropClient client => simp only [next, OutputQueue.dropClient]; split <;> rfl
  | recoverAbandoned => rfl

/-- Each call changes the owners of a slot as the owners' own step says. -/
theorem Producer.next_owners (s : Producer) (op : QueueOp) (i : Fin outputQueueMaxBuffers)
    (inUse : (i : Nat) < s.queue.count) :
    ((s.next op).queue.slots i).owners = (s.queue.slots i).owners.next i op := by
  cases op with
  | acquire rotate =>
    simp only [next, SlotOwners.next]
    split
    · rename_i acquired
      exact OutputQueue.acquire_owners acquired i
    · rfl
  | cancel index =>
    simp only [next, setHeld, OutputQueue.cancel, SlotOwners.next]
    split
    · rename_i given
      by_cases same : i = ⟨index, lt_of_lt_of_le given s.queue.bounded⟩
      · subst same; simp [OutputQueueSlot.owners]
      · simp [Function.update_of_ne same]
    · rfl
  | publish index mask seq =>
    simp only [next, setHeld, OutputQueue.publish, SlotOwners.next]
    by_cases same : index = i
    · subst same; simp [inUse, OutputQueueSlot.owners]
    · have apart (given : index < s.queue.count) :
          i ≠ ⟨index, lt_of_lt_of_le given s.queue.bounded⟩ := by
        rintro rfl
        exact same rfl
      split
      · rename_i given
        simp [Function.update_of_ne (apart given)]
      · simp
  | release index client seq =>
    simp only [next, OutputQueue.release_eq, SlotOwners.next]
    by_cases same : index = i
    · subst same
      simp only [inUse, ↓reduceDIte, Fin.eta, true_and]
      by_cases outstanding : seq ≠ 0 ∧
          Mask.has (s.queue.slots i).pendingClients client ∧ (s.queue.slots i).lastSeq = seq
      · simp [outstanding, OutputQueueSlot.owners]
      · rw [if_neg outstanding, if_neg (by simpa [OutputQueueSlot.owners] using outstanding)]
    · simp only [same, false_and, ↓reduceIte]
      split
      · rename_i given
        have apart : i ≠ ⟨index, lt_of_lt_of_le given s.queue.bounded⟩ := by
          rintro rfl
          exact same rfl
        split
        · simp [Function.update_of_ne apart]
        · rfl
      · rfl
  | dropClient client =>
    simp only [next, OutputQueue.dropClient, OutputQueue.clientBit_ne_zero, ↓reduceIte, inUse,
      SlotOwners.next, OutputQueueSlot.owners]
    cases member : Mask.has (s.queue.slots i).pendingClients client with
    | false => simp [(OutputQueue.and_clientBit_eq_zero _ _).mpr member]
    | true =>
      have pending : (s.queue.slots i).pendingClients &&& Mask.bit 32 client ≠ 0#32 := by
        simp [OutputQueue.and_clientBit_eq_zero, member]
      simp [pending]
  | recoverAbandoned => simp [next, OutputQueue.recoverAbandoned, inUse, SlotOwners.next,
      OutputQueueSlot.owners]

/--
A consumer still owns the given publication of a slot.

It is the most recent one, it was shown to the consumer, and neither a disconnect nor an exact
release has ended the use.
-/
def Outstanding (trace : List QueueOp) (index : Nat) (client : Fin 32) (seq : Nat) : Prop :=
  ∃ mask since, LastPublish trace index mask seq since ∧ Mask.has mask client = true ∧
    .dropClient client ∉ since ∧ (seq ≠ 0 → .release index client seq ∉ since)

/-- The owners recorded for a slot are accounted for by the operations so far. -/
structure Accounted (trace : List QueueOp) (index : Nat) (owners : SlotOwners) : Prop where
  -- The recorded sequence number is that of the most recent publication.
  current : ∀ mask seq since, LastPublish trace index mask seq since → owners.lastSeq = seq
  -- Every consumer of the most recent publication still owns it, or is done, or vanished.
  explained : ∀ mask seq since, LastPublish trace index mask seq since →
    ∀ client : Fin 32, Mask.has mask client = true →
      Mask.has owners.pendingClients client = true ∨ Settled index client seq since ∨
        (owners.abandoned = true ∧ .dropClient client ∈ since)
  -- Every recorded owner was shown the most recent publication and has not let go of it.
  owned : ∀ client : Fin 32, Mask.has owners.pendingClients client = true →
    Outstanding trace index client owners.lastSeq

variable {trace : List QueueOp} {index : Nat} {op : QueueOp}

theorem Outstanding.cons {seq : Nat} {client : Fin 32}
    (outstanding : Outstanding trace index client seq) (other : ¬op.publishes index)
    (kept : op ≠ .dropClient client) (unreleased : seq ≠ 0 → op ≠ .release index client seq) :
    Outstanding (op :: trace) index client seq := by
  obtain ⟨mask, since, last, shown, present, open'⟩ := outstanding
  refine ⟨mask, op :: since, last.cons other, shown, ?_, ?_⟩
  · intro member
    rcases List.mem_cons.mp member with rfl | member
    · exact kept rfl
    · exact present member
  · intro nonzero member
    rcases List.mem_cons.mp member with rfl | member
    · exact unreleased nonzero rfl
    · exact open' nonzero member

theorem Accounted.publish (trace : List QueueOp) (index : Nat) (mask : BitVec 32) (seq : Nat) :
    Accounted (.publish index mask seq :: trace) index ⟨mask, false, seq⟩ := by
  have newest (mask' : BitVec 32) (seq' : Nat) (since : List QueueOp)
      (last : LastPublish (.publish index mask seq :: trace) index mask' seq' since) :
      mask = mask' ∧ seq = seq' := by
    rcases last.cons_cases with ⟨-, same⟩ | ⟨-, -, other, -⟩
    · injection same with _ masks seqs
      exact ⟨masks, seqs⟩
    · exact absurd rfl other
  refine ⟨fun mask' seq' since last => (newest mask' seq' since last).2, ?_, ?_⟩
  · intro mask' seq' since last client shown
    obtain ⟨rfl, rfl⟩ := newest mask' seq' since last
    exact Or.inl shown
  · intro client shown
    exact ⟨mask, [], ⟨⟨trace, rfl⟩, by simp⟩, shown, by simp, by simp⟩

variable {owners : SlotOwners}

theorem Accounted.cons {after : SlotOwners}
    (account : Accounted trace index owners) (other : ¬op.publishes index)
    (sameSeq : after.lastSeq = owners.lastSeq)
    (ended : ∀ (client : Fin 32) (seq : Nat) (since : List QueueOp), owners.lastSeq = seq →
      (Mask.has owners.pendingClients client = true ∨
        (owners.abandoned = true ∧ .dropClient client ∈ since)) →
      Mask.has after.pendingClients client = true ∨ Settled index client seq (op :: since) ∨
        (after.abandoned = true ∧ .dropClient client ∈ op :: since))
    (kept : ∀ client : Fin 32, Mask.has after.pendingClients client = true →
      Mask.has owners.pendingClients client = true ∧ op ≠ .dropClient client ∧
        (owners.lastSeq ≠ 0 → op ≠ .release index client owners.lastSeq)) :
    Accounted (op :: trace) index after := by
  have older (mask : BitVec 32) (seq : Nat) (since : List QueueOp)
      (last : LastPublish (op :: trace) index mask seq since) :
      ∃ before, since = op :: before ∧ LastPublish trace index mask seq before := by
    rcases last.cons_cases with ⟨-, rfl⟩ | ⟨before, split, -, last⟩
    · exact absurd rfl other
    · exact ⟨before, split, last⟩
  refine ⟨?_, ?_, ?_⟩
  · intro mask seq since last
    obtain ⟨before, -, last⟩ := older mask seq since last
    exact sameSeq.trans (account.current mask seq before last)
  · intro mask seq since last client shown
    obtain ⟨before, rfl, earlier⟩ := older mask seq since last
    have same := account.current mask seq before earlier
    rcases account.explained mask seq before earlier client shown with owned | settled | vanished
    · exact ended client seq before same (Or.inl owned)
    · exact Or.inr (Or.inl (settled.cons op))
    · exact ended client seq before same (Or.inr vanished)
  · intro client owned
    obtain ⟨before, present, unreleased⟩ := kept client owned
    rw [sameSeq]
    exact (account.owned client before).cons other present unreleased

theorem Accounted.keep (account : Accounted trace index owners) (other : ¬op.publishes index)
    (kept : ∀ client : Fin 32, Mask.has owners.pendingClients client = true →
      op ≠ .dropClient client ∧
        (owners.lastSeq ≠ 0 → op ≠ .release index client owners.lastSeq)) :
    Accounted (op :: trace) index owners := by
  refine account.cons other rfl ?_ fun client owned => ⟨owned, kept client owned⟩
  rintro client seq since - (owned | ⟨gone, member⟩)
  · exact Or.inl owned
  · exact Or.inr (Or.inr ⟨gone, List.mem_cons_of_mem _ member⟩)

/-- Every operation keeps the owners of a slot accounted for. -/
theorem Accounted.next (account : Accounted trace index owners) (op : QueueOp) :
    Accounted (op :: trace) index (owners.next index op) := by
  cases op with
  | acquire rotate => exact account.keep (by simp [QueueOp.publishes]) (by simp)
  | cancel target => exact account.keep (by simp [QueueOp.publishes]) (by simp)
  | publish target mask seq =>
    by_cases same : target = index
    · subst same
      simpa [SlotOwners.next] using Accounted.publish trace target mask seq
    · simp only [SlotOwners.next, same, ↓reduceIte]
      exact account.keep (by simpa [QueueOp.publishes] using same) (by simp)
  | release target who claimed =>
    by_cases accepted : target = index ∧ claimed ≠ 0 ∧ Mask.has owners.pendingClients who ∧
        owners.lastSeq = claimed
    · -- The releasing consumer is done, and every other owner keeps its claim.
      rw [show owners.next index (.release target who claimed) = _ from if_pos accepted]
      obtain ⟨rfl, -, -, rfl⟩ := accepted
      refine account.cons (by simp [QueueOp.publishes]) rfl ?_ ?_
      · rintro client seq since rfl (owned | ⟨gone, member⟩)
        · by_cases same : client = who
          · subst same
            exact Or.inr (Or.inl (Or.inl List.mem_cons_self))
          · exact Or.inl (by simp [owned, Fin.val_inj, same])
        · exact Or.inr (Or.inr ⟨gone, List.mem_cons_of_mem _ member⟩)
      · intro client owned
        simp only [Mask.has_erase, Bool.and_eq_true, Bool.not_eq_true', decide_eq_false_iff_not,
          Fin.val_inj] at owned
        exact ⟨owned.1, by simp, fun _ => by simpa using Ne.symm owned.2⟩
    · -- A release of anything but an outstanding generation changes nothing.
      rw [show owners.next index (.release target who claimed) = _ from if_neg accepted]
      refine account.keep (by simp [QueueOp.publishes]) fun client owned => ⟨by simp, ?_⟩
      rintro nonzero same
      injection same with targets clients seqs
      subst targets clients seqs
      exact accepted ⟨rfl, nonzero, owned, rfl⟩
  | dropClient who =>
    -- A vanished owner leaves the slot quarantined, so its use is not over yet.
    refine account.cons (by simp [QueueOp.publishes]) rfl ?_ ?_
    · rintro client seq since - (owned | ⟨gone, member⟩)
      · by_cases same : client = who
        · subst same
          exact Or.inr (Or.inr ⟨by simp [SlotOwners.next, owned], List.mem_cons_self⟩)
        · exact Or.inl (by simp [SlotOwners.next, owned, Fin.val_inj, same])
      · exact Or.inr (Or.inr ⟨by simp [SlotOwners.next, gone], List.mem_cons_of_mem _ member⟩)
    · intro client owned
      simp only [SlotOwners.next, Mask.has_erase, Bool.and_eq_true, Bool.not_eq_true',
        decide_eq_false_iff_not, Fin.val_inj] at owned
      exact ⟨owned.1, by simpa using Ne.symm owned.2, by simp⟩
  | recoverAbandoned =>
    -- Lifting the quarantine settles what every vanished owner still owed.
    refine account.cons (by simp [QueueOp.publishes]) rfl ?_ fun _ owned => ⟨owned, by simp⟩
    rintro client seq since - (owned | ⟨-, member⟩)
    · exact Or.inl owned
    · exact Or.inr (Or.inl (settled_of_recovered member))

theorem OutputQueue.release_rejected (q : OutputQueue) (index : Nat) (clientBit : BitVec 32)
    (seq : Nat)
    (unowned : ∀ i : Fin outputQueueMaxBuffers, (i : Nat) = index → index < q.count → seq ≠ 0 →
      (q.slots i).lastSeq = seq → ∀ client : Fin 32, Mask.has clientBit client = true →
        Mask.has (q.slots i).pendingClients client = false) :
    q.release index clientBit seq = (false, q) := by
  unfold release
  split
  · rename_i inUse
    simp only
    split
    · rfl
    · rename_i named
      rw [not_or] at named
      rw [if_pos]
      by_cases same : (q.slots ⟨index, lt_of_lt_of_le inUse q.bounded⟩).lastSeq = seq
      · left
        rw [Mask.eq_zero_iff]
        intro i inside
        have absent := unowned _ rfl inUse named.2 same ⟨i, inside⟩
        cases member : Mask.has clientBit i with
        | false => simp [member]
        | true => simp [absent member]
      · exact Or.inr same
  · rfl

/-- What every use of the queue maintains. -/
structure Producer.Sound (count : Nat) (trace : List QueueOp) (s : Producer) : Prop where
  -- The number of slots is the one the queue was reset with.
  count : s.queue.count = count
  -- A slot is marked as acquired exactly while the producer holds it.
  held : ∀ i : Fin outputQueueMaxBuffers, (i : Nat) < s.queue.count →
    (s.queue.slots i).acquired = s.held i
  -- The owners of every slot in use are accounted for.
  account : ∀ i : Fin outputQueueMaxBuffers, (i : Nat) < s.queue.count →
    Accounted trace i (s.queue.slots i).owners

/-- The producer holds exactly the slots that the queue has acquired. -/
theorem Producer.next_held {s : Producer}
    (held : ∀ i : Fin outputQueueMaxBuffers, (i : Nat) < s.queue.count →
      (s.queue.slots i).acquired = s.held i) (op : QueueOp)
    (i : Fin outputQueueMaxBuffers) (inUse : (i : Nat) < s.queue.count) :
    ((s.next op).queue.slots i).acquired = (s.next op).held i := by
  -- Acquiring, cancelling and publishing act on one slot, and nothing else touches the mark.
  cases op with
  | acquire rotate =>
    simp only [next]
    split
    · rename_i grant queue acquired
      obtain ⟨-, -, taken⟩ := OutputQueue.acquire_some acquired
      obtain rfl : queue = _ := congrArg Prod.snd taken
      by_cases same : i = grant.index
      · subst same; simp [OutputQueue.take, setHeld]
      · have apart : (i : Nat) ≠ grant.index := fun equal => same (Fin.ext equal)
        simpa [OutputQueue.take, setHeld, Function.update_of_ne same,
          Function.update_of_ne apart] using held i inUse
    · exact held i inUse
  | cancel index =>
    simp only [next, setHeld, OutputQueue.cancel]
    by_cases same : (i : Nat) = index
    · subst same; simp [inUse]
    · have apart (given : index < s.queue.count) :
          i ≠ ⟨index, lt_of_lt_of_le given s.queue.bounded⟩ := by
        rintro rfl
        exact same rfl
      rw [Function.update_of_ne same]
      split
      · rename_i given
        simpa [Function.update_of_ne (apart given)] using held i inUse
      · exact held i inUse
  | publish index mask seq =>
    simp only [next, setHeld, OutputQueue.publish]
    by_cases same : (i : Nat) = index
    · subst same; simp [inUse]
    · have apart (given : index < s.queue.count) :
          i ≠ ⟨index, lt_of_lt_of_le given s.queue.bounded⟩ := by
        rintro rfl
        exact same rfl
      rw [Function.update_of_ne same]
      split
      · rename_i given
        simpa [Function.update_of_ne (apart given)] using held i inUse
      · exact held i inUse
  | release index client seq =>
    simp only [next, OutputQueue.release_eq]
    split
    · rename_i given
      split
      · by_cases same : i = ⟨index, lt_of_lt_of_le given s.queue.bounded⟩
        · subst same; simpa using held _ inUse
        · simpa [Function.update_of_ne same] using held i inUse
      · exact held i inUse
    · exact held i inUse
  | dropClient client =>
    simpa [next, OutputQueue.dropClient, OutputQueue.clientBit_ne_zero, inUse] using held i inUse
  | recoverAbandoned => simpa [next, OutputQueue.recoverAbandoned, inUse] using held i inUse

theorem Producer.run_sound {count : Nat} {s : Producer} (run : (machine count).Run trace s) :
    Sound count trace s := by
  refine run.invariant (Sound count) ?_ ?_
  · rintro ⟨queue, held⟩ ⟨created, rfl⟩
    simp only [OutputQueue.reset] at created
    split at created
    · obtain rfl := Option.some.inj created
      refine ⟨rfl, fun _ _ => rfl, fun i _ => ⟨?_, ?_, ?_⟩⟩
      · rintro mask seq since ⟨⟨before, split⟩, -⟩
        simp at split
      · rintro mask seq since ⟨⟨before, split⟩, -⟩
        simp at split
      · simp [OutputQueueSlot.owners]
    · cases created
  · intro trace s op sound _
    have kept := s.next_count op
    refine ⟨kept.trans sound.count, ?_, ?_⟩
    · intro i inUse
      exact Producer.next_held sound.held op i (by rw [← kept]; exact inUse)
    · intro i inUse
      have before : (i : Nat) < s.queue.count := by rw [← kept]; exact inUse
      change Accounted (op :: trace) i ((s.next op).queue.slots i).owners
      rw [s.next_owners op i before]
      exact (sound.account i before).next op

theorem Accounted.settled {slot : OutputQueueSlot} (account : Accounted trace index slot.owners)
    (free : OutputQueue.busy slot = false) {mask : BitVec 32} {seq : Nat} {since : List QueueOp}
    (last : LastPublish trace index mask seq since) (client : Fin 32)
    (shown : Mask.has mask client = true) : Settled index client seq since := by
  simp only [OutputQueue.busy, Bool.or_eq_false_iff, bne_eq_false_iff_eq] at free
  rcases account.explained mask seq since last client shown with owned | settled | ⟨gone, -⟩
  · simp [OutputQueueSlot.owners, free.2] at owned
  · exact settled
  · simp [OutputQueueSlot.owners, free.1.2] at gone

/--
Slots change hands only when their previous owners are done with them.

An acquired slot was not held, and every consumer of its last publication has settled.
A release that names no outstanding generation is refused and changes nothing.
-/
theorem Producer.slot_ownership {count : Nat} {trace : List QueueOp} {s : Producer}
    (run : (machine count).Run trace s) :
    (∀ rotate grant after, s.queue.acquire rotate = some (grant, after) →
      s.held grant.index = false ∧
        ∀ mask seq since, LastPublish trace grant.index mask seq since →
          ∀ client : Fin 32, Mask.has mask client = true →
            Settled grant.index client seq since) ∧
    (∀ index clientBit seq,
      (∀ client : Fin 32, Mask.has clientBit client = true →
        ¬Outstanding trace index client seq) →
      s.queue.release index clientBit seq = (false, s.queue)) := by
  have sound := Producer.run_sound run
  refine ⟨?_, ?_⟩
  · intro rotate grant after acquired
    obtain ⟨free, inUse, -⟩ := OutputQueue.acquire_some acquired
    refine ⟨?_, fun mask seq since last client shown =>
      (sound.account grant.index inUse).settled free last client shown⟩
    simp only [OutputQueue.busy, Bool.or_eq_false_iff] at free
    rw [← sound.held grant.index inUse]
    exact free.1.1
  · intro index clientBit seq none
    refine s.queue.release_rejected index clientBit seq ?_
    rintro i rfl inUse nonzero rfl client named
    by_contra owned
    exact none client named ((sound.account i inUse).owned client (by simpa [OutputQueueSlot.owners] using owned))

def sharedFrame : List QueueOp :=
  [.acquire true, .publish 0 3#32 5, .release 0 0 5, .dropClient 1, .recoverAbandoned]

def freshPair : Producer :=
  ⟨⟨fun _ => {}, 2, by decide, 0, 0⟩, fun _ => false⟩

def afterSharedFrame : Producer :=
  sharedFrame.foldl Producer.next freshPair

theorem slot_ownership_sharedFrame :
    ∃ grant after, afterSharedFrame.queue.acquire false = some (grant, after) ∧
      afterSharedFrame.held grant.index = false ∧
      Settled 0 0 5 [.recoverAbandoned, .dropClient 1, .release 0 0 5] ∧
      Settled 0 1 5 [.recoverAbandoned, .dropClient 1, .release 0 0 5] ∧
      afterSharedFrame.queue.release 1 (Mask.bit 32 0) 5 = (false, afterSharedFrame.queue) := by
  have run : (Producer.machine 2).Run sharedFrame.reverse afterSharedFrame :=
    .of_script (m := Producer.machine 2) (s := freshPair) ⟨rfl, rfl⟩ sharedFrame
      (by simp only [Machine.Admits, sharedFrame, Producer.machine]; decide)
  obtain ⟨reacquired, refused⟩ := Producer.slot_ownership run
  have granted : (afterSharedFrame.queue.acquire false).map (fun result => result.1.index) =
      some 0 := by decide
  obtain ⟨⟨grant, after⟩, acquired, index⟩ := Option.map_eq_some_iff.mp granted
  obtain ⟨unheld, settled⟩ := reacquired false grant after acquired
  simp only at index
  have last : LastPublish sharedFrame.reverse grant.index 3#32 5
      [.recoverAbandoned, .dropClient 1, .release 0 0 5] := by
    rw [index]
    exact ⟨⟨[.acquire true], rfl⟩, by simp [QueueOp.publishes]⟩
  have both := settled _ _ _ last
  rw [index] at both
  refine ⟨grant, after, acquired, unheld, both 0 (by decide), both 1 (by decide), ?_⟩
  -- The second slot was never published, so nobody can release it.
  refine refused 1 _ 5 fun client _ => ?_
  rintro ⟨mask, since, ⟨⟨before, split⟩, -⟩, -⟩
  have published : QueueOp.publish 1 mask 5 ∈ sharedFrame.reverse := by simp [split]
  simp [sharedFrame] at published

end Xios
