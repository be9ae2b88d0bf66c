import Xios.Lib.Machine
import Xios.Output.Queue

/-! Every accepted release is handed to the next acquisition of its slot, and to no other. -/

namespace Xios

/-- The functions of the queue with the arguments they are called with. -/
inductive QueueCall where
  -- Ask for a slot.
  | acquire (rotate : Bool)
  -- Give a slot back unpublished.
  | cancel (index : Nat)
  -- Show a slot to the consumers of a mask.
  | publish (index : Nat) (pendingClients : BitVec 32) (seq : Nat)
  -- Claim to be done with a slot.
  | release (index : Nat) (clientBit : BitVec 32) (seq : Nat)
  -- The consumers of a mask disappear.
  | dropClient (clientBit : BitVec 32)
  -- A new consumer has completed its handshake.
  | recoverAbandoned
  deriving DecidableEq, Repr

/-- What the consumers and the producer tell each other about one slot. -/
inductive HandOver where
  -- The producer got the slot, with a release to wait for.
  | granted (slot : Fin outputQueueMaxBuffers) (waitValue : Nat)
  | accepted (slot : Fin outputQueueMaxBuffers) (seq : Nat)
  deriving DecidableEq, Repr

namespace HandOver

def slot : HandOver → Fin outputQueueMaxBuffers
  | .granted i _ | .accepted i _ => i

/-- The producer got the given slot. -/
def Grants (i : Fin outputQueueMaxBuffers) : HandOver → Prop
  | .granted j _ => j = i
  | .accepted .. => False

end HandOver

/-- The releases accepted for a slot since the producer last got it. -/
def acceptedSince (i : Fin outputQueueMaxBuffers) : List HandOver → List Nat
  | [] => []
  | .granted j _ :: earlier => if j = i then [] else acceptedSince i earlier
  | .accepted j seq :: earlier =>
    if j = i then seq :: acceptedSince i earlier else acceptedSince i earlier

def largest (seqs : List Nat) : Nat :=
  seqs.max?.getD 0

/-- A queue with everything that was handed over through it. -/
structure FencedQueue where
  queue : OutputQueue
  -- Grants and accepted releases, newest first.
  log : List HandOver := []
  -- Sequence numbers published so far.
  published : List Nat := []

namespace FencedQueue

def next (s : FencedQueue) : QueueCall → FencedQueue
  | .acquire rotate =>
    match s.queue.acquire rotate with
    | some (grant, queue) =>
      { s with queue, log := .granted grant.index grant.releaseWaitValue :: s.log }
    | none => s
  | .cancel index => { s with queue := s.queue.cancel index }
  | .publish index pendingClients seq =>
    { s with queue := s.queue.publish index pendingClients seq, published := seq :: s.published }
  | .release index clientBit seq =>
    let (handled, queue) := s.queue.release index clientBit seq
    if inUse : handled = true ∧ index < outputQueueMaxBuffers then
      { s with queue, log := .accepted ⟨index, inUse.2⟩ seq :: s.log }
    else { s with queue }
  | .dropClient clientBit => { s with queue := s.queue.dropClient clientBit }
  | .recoverAbandoned => { s with queue := s.queue.recoverAbandoned }

/-- Sequence numbers are published in increasing order, and nothing else is asked of the caller. -/
def Allowed (s : FencedQueue) : QueueCall → Prop
  | .publish _ _ seq => ∀ earlier ∈ s.published, earlier < seq
  | _ => True

instance (s : FencedQueue) : ∀ call, Decidable (s.Allowed call)
  | .publish _ _ _ => inferInstanceAs (Decidable (∀ _ ∈ _, _))
  | .acquire _ | .cancel _ | .release .. | .dropClient _ | .recoverAbandoned => .isTrue trivial

/-- All uses of a queue of the given size, beginning with its reset. -/
def machine (count : Nat) : Machine FencedQueue QueueCall where
  start s := ∃ queue, OutputQueue.reset count = some queue ∧ s = { queue }
  enabled := Allowed
  next := next

/-- What one call can do to one slot. -/
inductive Step (i : Fin outputQueueMaxBuffers) (s s' : FencedQueue) : Prop where
  -- Neither the release to wait for nor the publication changes.
  | quiet (wait : (s'.queue.slots i).releaseWaitValue = (s.queue.slots i).releaseWaitValue)
      (seq : (s'.queue.slots i).lastSeq = (s.queue.slots i).lastSeq)
      (pending : (s.queue.slots i).pendingClients = 0#32 →
        (s'.queue.slots i).pendingClients = 0#32)
      (log : s'.log = s.log ∨ ∃ entry, entry.slot ≠ i ∧ s'.log = entry :: s.log)
      (published : s.published ⊆ s'.published)
  -- The producer gets the slot, which nobody owns.
  | granted (wait : (s'.queue.slots i).releaseWaitValue = 0)
      (seq : (s'.queue.slots i).lastSeq = (s.queue.slots i).lastSeq)
      (free : (s.queue.slots i).pendingClients = 0#32)
      (pending : (s'.queue.slots i).pendingClients = 0#32)
      (log : s'.log = .granted i (s.queue.slots i).releaseWaitValue :: s.log)
      (published : s'.published = s.published)
  | accepted (wait : (s'.queue.slots i).releaseWaitValue =
        max (s.queue.slots i).releaseWaitValue (s.queue.slots i).lastSeq)
      (seq : (s'.queue.slots i).lastSeq = (s.queue.slots i).lastSeq)
      (positive : (s.queue.slots i).lastSeq ≠ 0)
      (owned : (s.queue.slots i).pendingClients ≠ 0#32)
      (log : s'.log = .accepted i (s.queue.slots i).lastSeq :: s.log)
      (published : s'.published = s.published)
  | published (seq : Nat) (later : ∀ earlier ∈ s.published, earlier < seq)
      (wait : (s'.queue.slots i).releaseWaitValue = (s.queue.slots i).releaseWaitValue)
      (last : (s'.queue.slots i).lastSeq = seq) (log : s'.log = s.log)
      (published : s'.published = seq :: s.published)

theorem Step.of_eq {i : Fin outputQueueMaxBuffers} {s s' : FencedQueue}
    (slot : s'.queue.slots i = s.queue.slots i)
    (log : s'.log = s.log ∨ ∃ entry, entry.slot ≠ i ∧ s'.log = entry :: s.log)
    (published : s.published ⊆ s'.published) : Step i s s' :=
  .quiet (by rw [slot]) (by rw [slot]) (fun free => by rw [slot]; exact free) log published

/-- What any call of the queue can do to one of its slots. -/
theorem step_next (s : FencedQueue) (call : QueueCall) (allowed : s.Allowed call)
    (i : Fin outputQueueMaxBuffers) : Step i s (s.next call) := by
  cases call with
  | acquire rotate =>
    simp only [next]
    split
    · rename_i grant queue acquired
      obtain ⟨free, -, taken⟩ := OutputQueue.acquire_some acquired
      obtain rfl : queue = _ := congrArg Prod.snd taken
      have wait : grant.releaseWaitValue = (s.queue.slots grant.index).releaseWaitValue :=
        congrArg (fun result => result.1.releaseWaitValue) taken
      by_cases same : grant.index = i
      · subst same
        simp only [OutputQueue.busy, Bool.or_eq_false_iff, bne_eq_false_iff_eq] at free
        exact .granted (by simp [OutputQueue.take]) (by simp [OutputQueue.take]) free.2
          (by simpa [OutputQueue.take] using free.2) (by rw [wait]) rfl
      · exact .of_eq (by simp [OutputQueue.take, Function.update_of_ne (Ne.symm same)])
          (Or.inr ⟨.granted grant.index grant.releaseWaitValue, same, rfl⟩) (List.Subset.refl _)
    · exact .of_eq rfl (Or.inl rfl) (List.Subset.refl _)
  | cancel index =>
    simp only [next, OutputQueue.cancel]
    split
    · rename_i inUse
      by_cases same : i = ⟨index, lt_of_lt_of_le inUse s.queue.bounded⟩
      · subst same
        exact .quiet (by simp) (by simp) (by simp) (Or.inl rfl) (List.Subset.refl _)
      · exact .of_eq (by simp [Function.update_of_ne same]) (Or.inl rfl) (List.Subset.refl _)
    · exact .of_eq rfl (Or.inl rfl) (List.Subset.refl _)
  | publish index mask seq =>
    simp only [next, OutputQueue.publish]
    split
    · rename_i inUse
      by_cases same : i = ⟨index, lt_of_lt_of_le inUse s.queue.bounded⟩
      · subst same
        exact .published seq allowed (by simp) (by simp) rfl rfl
      · exact .of_eq (by simp [Function.update_of_ne same]) (Or.inl rfl)
          (List.subset_cons_self _ _)
    · exact .of_eq rfl (Or.inl rfl) (List.subset_cons_self _ _)
  | release index clientBit seq =>
    simp only [next, OutputQueue.release]
    by_cases inUse : index < s.queue.count
    · simp only [inUse, ↓reduceDIte]
      split
      · exact .of_eq (by simp) (Or.inl (by simp)) (by simp)
      · rename_i named
        split
        · exact .of_eq (by simp) (Or.inl (by simp)) (by simp)
        · rename_i owned
          rw [not_or] at named owned
          have inside := lt_of_lt_of_le inUse s.queue.bounded
          simp only [true_and, inside, ↓reduceDIte]
          by_cases same : i = ⟨index, inside⟩
          · subst same
            obtain rfl : (s.queue.slots ⟨index, inside⟩).lastSeq = seq := not_not.mp owned.2
            have pending : (s.queue.slots ⟨index, inside⟩).pendingClients ≠ 0#32 := by
              intro free
              exact owned.1 (by rw [free, BitVec.zero_and])
            exact .accepted (by simp) (by simp) named.2 pending rfl rfl
          · exact .of_eq (by simp [Function.update_of_ne same])
              (Or.inr ⟨.accepted ⟨index, inside⟩ seq, Ne.symm same, rfl⟩) (List.Subset.refl _)
    · exact .of_eq (by simp [inUse]) (Or.inl (by simp [inUse])) (by simp [inUse])
  | dropClient clientBit =>
    simp only [next, OutputQueue.dropClient]
    split
    · exact .of_eq rfl (Or.inl rfl) (List.Subset.refl _)
    · refine .quiet ?_ ?_ ?_ (Or.inl rfl) (List.Subset.refl _)
      · simp only
        split <;> rfl
      · simp only
        split <;> rfl
      · intro free
        simp only
        split
        · simp [free]
        · exact free
  | recoverAbandoned =>
    refine .quiet ?_ ?_ ?_ (Or.inl rfl) (List.Subset.refl _)
    · simp only [next, OutputQueue.recoverAbandoned]
      split <;> rfl
    · simp only [next, OutputQueue.recoverAbandoned]
      split <;> rfl
    · intro free
      simp only [next, OutputQueue.recoverAbandoned]
      split <;> exact free

end FencedQueue

theorem le_largest {seqs : List Nat} {seq : Nat} (member : seq ∈ seqs) : seq ≤ largest seqs :=
  List.le_max?_getD_of_mem member

theorem largest_mem {seqs : List Nat} (positive : largest seqs ≠ 0) : largest seqs ∈ seqs := by
  unfold largest at positive ⊢
  cases found : seqs.max? with
  | none => simp [found] at positive
  | some seq => exact List.max?_mem found

theorem largest_cons (seq : Nat) (seqs : List Nat) :
    largest (seq :: seqs) = max (largest seqs) seq := by
  unfold largest
  rw [List.max?_cons]
  cases seqs.max? with
  | none => simp
  | some other => simp [Nat.max_comm]

/--
The grants of a slot pass on what was accepted for it.

Each one carries the largest release accepted since the one before, and each accepted release is
newer than everything that was passed on before it.
-/
def HandedOver (i : Fin outputQueueMaxBuffers) : List HandOver → Prop
  | [] => True
  | .granted j w :: earlier =>
    (j = i → w = largest (acceptedSince i earlier)) ∧ HandedOver i earlier
  | .accepted j seq :: earlier =>
    (j = i → seq ≠ 0 ∧ ∀ w, .granted i w ∈ earlier → w < seq) ∧ HandedOver i earlier

namespace HandedOver

variable {i : Fin outputQueueMaxBuffers} {log : List HandOver}

theorem other (handed : HandedOver i log) {entry : HandOver} (apart : entry.slot ≠ i) :
    HandedOver i (entry :: log) := by
  cases entry with
  | granted j w => exact ⟨fun same => absurd same apart, handed⟩
  | accepted j seq => exact ⟨fun same => absurd same apart, handed⟩

theorem of_append {later earlier : List HandOver} (handed : HandedOver i (later ++ earlier)) :
    HandedOver i earlier := by
  induction later with
  | nil => exact handed
  | cons entry rest ih =>
    cases entry with
    | granted j w => exact ih handed.2
    | accepted j seq => exact ih handed.2

theorem newer (handed : HandedOver i log) {seq : Nat} (since : seq ∈ acceptedSince i log) :
    seq ≠ 0 ∧ ∀ w, .granted i w ∈ log → w < seq := by
  induction log with
  | nil => cases since
  | cons entry earlier ih =>
    cases entry with
    | granted j w =>
      by_cases same : j = i
      · simp [acceptedSince, same] at since
      · simp only [acceptedSince, same, ↓reduceIte] at since
        obtain ⟨positive, above⟩ := ih handed.2 since
        refine ⟨positive, fun w' member => ?_⟩
        rcases List.mem_cons.mp member with equal | member
        · cases equal
          exact absurd rfl same
        · exact above w' member
    | accepted j seq' =>
      have inside : ∀ w, HandOver.granted i w ∈ .accepted j seq' :: earlier →
          .granted i w ∈ earlier := by
        intro w member
        rcases List.mem_cons.mp member with equal | member
        · cases equal
        · exact member
      by_cases same : j = i
      · simp only [acceptedSince, same, ↓reduceIte, List.mem_cons] at since
        rcases since with equal | since
        · subst equal
          obtain ⟨positive, above⟩ := handed.1 same
          exact ⟨positive, fun w member => above w (inside w member)⟩
        · obtain ⟨positive, above⟩ := ih handed.2 since
          exact ⟨positive, fun w member => above w (inside w member)⟩
      · simp only [acceptedSince, same, ↓reduceIte] at since
        obtain ⟨positive, above⟩ := ih handed.2 since
        exact ⟨positive, fun w member => above w (inside w member)⟩

theorem increasing {w : Nat} {earlier : List HandOver}
    (handed : HandedOver i (.granted i w :: earlier)) (positive : w ≠ 0) :
    ∀ w', .granted i w' ∈ earlier → w' < w := by
  have value := handed.1 rfl
  rw [value] at positive ⊢
  exact (handed.2.newer (largest_mem positive)).2

end HandedOver

theorem mem_acceptedSince {i : Fin outputQueueMaxBuffers} {seq : Nat}
    {later earlier : List HandOver} (ungranted : ∀ entry ∈ later, ¬entry.Grants i) :
    seq ∈ acceptedSince i (later ++ .accepted i seq :: earlier) := by
  induction later with
  | nil => simp [acceptedSince]
  | cons entry rest ih =>
    have inside := ih fun entry member => ungranted entry (List.mem_cons_of_mem _ member)
    cases entry with
    | granted j w =>
      have apart : j ≠ i := ungranted _ List.mem_cons_self
      simpa [acceptedSince, apart] using inside
    | accepted j seq' =>
      by_cases same : j = i
      · simp [acceptedSince, same, inside]
      · simpa [acceptedSince, same] using inside

theorem exists_first_grant (i : Fin outputQueueMaxBuffers) (entries : List HandOver) :
    (∀ entry ∈ entries, ¬entry.Grants i) ∨
      ∃ newer w older, entries = newer ++ .granted i w :: older ∧
        ∀ entry ∈ older, ¬entry.Grants i := by
  induction entries with
  | nil => exact Or.inl (by simp)
  | cons entry rest ih =>
    rcases ih with none | ⟨newer, w, older, split, first⟩
    · by_cases grants : entry.Grants i
      · cases entry with
        | granted j w =>
          obtain rfl : j = i := grants
          exact Or.inr ⟨[], w, rest, rfl, none⟩
        | accepted j seq => cases grants
      · refine Or.inl fun other member => ?_
        rcases List.mem_cons.mp member with equal | member
        · rw [equal]
          exact grants
        · exact none other member
    · exact Or.inr ⟨entry :: newer, w, older, by rw [split, List.cons_append], first⟩

namespace FencedQueue

/-- What the calls maintain for one slot. -/
structure Fenced (i : Fin outputQueueMaxBuffers) (s : FencedQueue) : Prop where
  -- The slot keeps the largest release accepted since it was granted.
  wait : (s.queue.slots i).releaseWaitValue = largest (acceptedSince i s.log)
  -- The publication a consumer owns is one of those made.
  current : (s.queue.slots i).pendingClients ≠ 0#32 → (s.queue.slots i).lastSeq ∈ s.published
  -- So is every publication that was released.
  accepted : ∀ seq, .accepted i seq ∈ s.log → seq ∈ s.published
  -- And every release that was passed on.
  granted : ∀ w, .granted i w ∈ s.log → w ≠ 0 → w ∈ s.published
  -- A publication that is owned is newer than all releases passed on.
  past : ∀ w, .granted i w ∈ s.log → (s.queue.slots i).pendingClients ≠ 0#32 →
    (s.queue.slots i).lastSeq ≠ 0 → w < (s.queue.slots i).lastSeq
  -- Everything accepted is passed on once.
  handed : HandedOver i s.log

theorem mem_of_acceptedSince {i : Fin outputQueueMaxBuffers} {log : List HandOver} {seq : Nat}
    (since : seq ∈ acceptedSince i log) : .accepted i seq ∈ log := by
  induction log with
  | nil => cases since
  | cons entry earlier ih =>
    cases entry with
    | granted j w =>
      by_cases same : j = i
      · simp [acceptedSince, same] at since
      · simp only [acceptedSince, same, ↓reduceIte] at since
        exact List.mem_cons_of_mem _ (ih since)
    | accepted j seq' =>
      by_cases same : j = i
      · subst same
        simp only [acceptedSince, ↓reduceIte, List.mem_cons] at since
        rcases since with equal | since
        · rw [equal]
          exact List.mem_cons_self
        · exact List.mem_cons_of_mem _ (ih since)
      · simp only [acceptedSince, same, ↓reduceIte] at since
        exact List.mem_cons_of_mem _ (ih since)

theorem Fenced.step {i : Fin outputQueueMaxBuffers} {s s' : FencedQueue} (fenced : Fenced i s)
    (step : Step i s s') : Fenced i s' := by
  cases step with
  | quiet wait seq pending log published =>
    -- A consumer that owns the slot afterwards owned it before.
    have owned : (s'.queue.slots i).pendingClients ≠ 0#32 →
        (s.queue.slots i).pendingClients ≠ 0#32 := fun after free => after (pending free)
    have entries : (∀ seq, .accepted i seq ∈ s'.log → .accepted i seq ∈ s.log) ∧
        (∀ w, .granted i w ∈ s'.log → .granted i w ∈ s.log) ∧
        acceptedSince i s'.log = acceptedSince i s.log ∧ HandedOver i s'.log := by
      rcases log with same | ⟨entry, apart, grown⟩
      · rw [same]
        exact ⟨fun _ member => member, fun _ member => member, rfl, fenced.handed⟩
      · rw [grown]
        refine ⟨fun seq member => ?_, fun w member => ?_, ?_, fenced.handed.other apart⟩
        · rcases List.mem_cons.mp member with equal | member
          · rw [← equal] at apart
            exact absurd rfl apart
          · exact member
        · rcases List.mem_cons.mp member with equal | member
          · rw [← equal] at apart
            exact absurd rfl apart
          · exact member
        · cases entry with
          | granted j w => exact if_neg apart
          | accepted j seq => exact if_neg apart
    obtain ⟨accepted, granted, since, handed⟩ := entries
    refine ⟨?_, ?_, ?_, ?_, ?_, handed⟩
    · rw [wait, since]
      exact fenced.wait
    · intro after
      rw [seq]
      exact published (fenced.current (owned after))
    · intro seq member
      exact published (fenced.accepted seq (accepted seq member))
    · intro w member positive
      exact published (fenced.granted w (granted w member) positive)
    · intro w member after positive
      rw [seq] at positive ⊢
      exact fenced.past w (granted w member) (owned after) positive
  | granted wait seq free pending log published =>
    refine ⟨?_, fun owned => absurd pending owned, ?_, ?_, fun w _ owned => absurd pending owned, ?_⟩
    · rw [wait, log]
      simp [acceptedSince, largest]
    · intro seq member
      rw [log, List.mem_cons] at member
      rw [published]
      exact fenced.accepted seq (member.resolve_left (by simp))
    · intro w member positive
      rw [log, List.mem_cons, HandOver.granted.injEq] at member
      rw [published]
      rcases member with ⟨-, equal⟩ | member
      · -- The release passed on now was accepted before.
        rw [fenced.wait] at equal
        rw [equal] at positive ⊢
        exact fenced.accepted _ (mem_of_acceptedSince (largest_mem positive))
      · exact fenced.granted w member positive
    · rw [log]
      exact ⟨fun _ => fenced.wait, fenced.handed⟩
  | accepted wait seq positive owned log published =>
    have above : ∀ w, .granted i w ∈ s.log → w < (s.queue.slots i).lastSeq :=
      fun w member => fenced.past w member owned positive
    refine ⟨?_, ?_, ?_, ?_, ?_, ?_⟩
    · rw [wait, log, fenced.wait]
      simp [acceptedSince, largest_cons]
    · intro _
      rw [seq, published]
      exact fenced.current owned
    · intro other member
      rw [log, List.mem_cons, HandOver.accepted.injEq] at member
      rw [published]
      rcases member with ⟨-, equal⟩ | member
      · rw [equal]
        exact fenced.current owned
      · exact fenced.accepted other member
    · intro w member nonzero
      rw [log, List.mem_cons] at member
      rw [published]
      exact fenced.granted w (member.resolve_left (by simp)) nonzero
    · intro w member _ _
      rw [log, List.mem_cons] at member
      rw [seq]
      exact above w (member.resolve_left (by simp))
    · rw [log]
      exact ⟨fun _ => ⟨positive, above⟩, fenced.handed⟩
  | published seq later wait last log published =>
    refine ⟨?_, ?_, ?_, ?_, ?_, ?_⟩
    · rw [wait, log]
      exact fenced.wait
    · intro _
      rw [last, published]
      exact List.mem_cons_self
    · intro other member
      rw [log] at member
      rw [published]
      exact List.mem_cons_of_mem _ (fenced.accepted other member)
    · intro w member positive
      rw [log] at member
      rw [published]
      exact List.mem_cons_of_mem _ (fenced.granted w member positive)
    · -- The new publication is newer than everything released before.
      intro w member _ positive
      rw [log] at member
      rw [last] at positive ⊢
      by_cases zero : w = 0
      · omega
      · exact later w (fenced.granted w member zero)
    · rw [log]
      exact fenced.handed

theorem fenced_of_run {count : Nat} {trace : List QueueCall} {s : FencedQueue}
    (run : (machine count).Run trace s) (i : Fin outputQueueMaxBuffers) : Fenced i s := by
  refine run.invariant (fun _ s => Fenced i s) ?_ ?_
  · rintro s ⟨queue, created, rfl⟩
    unfold OutputQueue.reset at created
    split at created
    · obtain rfl := Option.some.inj created
      exact ⟨rfl, by simp, by simp, by simp, by simp, trivial⟩
    · cases created
  · intro _ s call fenced allowed
    exact fenced.step (step_next s call allowed i)

/--
Releases are handed over exactly once.

An acquisition reports the largest release accepted for its slot since the slot was last acquired,
zero if there was none, and so did all acquisitions before.
A release that was accepted either still waits in its slot, or was passed on by the next
acquisition of the slot, which reported this release or a larger one; no other acquisition of the
slot ever reports it.
-/
theorem release_handed_over {count : Nat} {trace : List QueueCall} {s : FencedQueue}
    (run : (machine count).Run trace s) :
    (∀ rotate grant after, s.queue.acquire rotate = some (grant, after) →
      grant.releaseWaitValue = largest (acceptedSince grant.index s.log)) ∧
    (∀ later i w earlier, s.log = later ++ .granted i w :: earlier →
      w = largest (acceptedSince i earlier)) ∧
    ∀ later i seq earlier, s.log = later ++ .accepted i seq :: earlier →
      ((∀ entry ∈ later, ¬entry.Grants i) ∧ seq ≤ (s.queue.slots i).releaseWaitValue ∧
        .granted i seq ∉ earlier) ∨
      ∃ newer w older, later = newer ++ .granted i w :: older ∧
        (∀ entry ∈ older, ¬entry.Grants i) ∧ seq ≤ w ∧
        .granted i seq ∉ newer ∧ .granted i seq ∉ earlier := by
  refine ⟨?_, ?_, ?_⟩
  · intro rotate grant after acquired
    obtain ⟨-, -, taken⟩ := OutputQueue.acquire_some acquired
    have wait : grant.releaseWaitValue = (s.queue.slots grant.index).releaseWaitValue :=
      congrArg (fun result => result.1.releaseWaitValue) taken
    rw [wait]
    exact (fenced_of_run run grant.index).wait
  · intro later i w earlier split
    have handed := (fenced_of_run run i).handed
    rw [split] at handed
    exact handed.of_append.1 rfl
  · intro later i seq earlier split
    have fenced := fenced_of_run run i
    have handed := fenced.handed
    rw [split] at handed
    obtain ⟨positive, above⟩ := handed.of_append.1 rfl
    have unseen : .granted i seq ∉ earlier := fun member => lt_irrefl _ (above seq member)
    rcases exists_first_grant i later with none | ⟨newer, w, older, rfl, first⟩
    · refine Or.inl ⟨none, ?_, unseen⟩
      rw [fenced.wait, split]
      exact le_largest (mem_acceptedSince none)
    · rw [List.append_assoc, List.cons_append] at handed
      have passed := handed.of_append
      have covered : seq ≤ w := by
        rw [passed.1 rfl]
        exact le_largest (mem_acceptedSince first)
      refine Or.inr ⟨newer, w, older, rfl, first, covered, ?_, unseen⟩
      -- Whatever is passed on later is newer still.
      intro member
      obtain ⟨newest, rest, rfl⟩ := List.append_of_mem member
      rw [List.append_assoc, List.cons_append] at handed
      have later := handed.of_append.increasing positive w
        (List.mem_append_right _ List.mem_cons_self)
      omega

def twiceReleased : List QueueCall :=
  [.acquire false, .publish 0 3#32 5, .release 0 1#32 5, .release 0 2#32 5, .acquire false,
    .cancel 0]

def freshSingle : FencedQueue :=
  { queue := ⟨fun _ => {}, 1, by decide, 0, 0⟩ }

theorem release_handed_over_twice :
    (twiceReleased.foldl next freshSingle).log =
        [.granted 0 5, .accepted 0 5, .accepted 0 5, .granted 0 0] ∧
      ∀ grant after, (twiceReleased.foldl next freshSingle).queue.acquire false =
        some (grant, after) → grant.index = 0 → grant.releaseWaitValue = 0 := by
  have run : (machine 1).Run twiceReleased.reverse (twiceReleased.foldl next freshSingle) :=
    .of_script (m := machine 1) (s := freshSingle) ⟨_, rfl, rfl⟩ twiceReleased
      (by simp only [Machine.Admits, twiceReleased, machine]; decide)
  have log : (twiceReleased.foldl next freshSingle).log =
      [.granted 0 5, .accepted 0 5, .accepted 0 5, .granted 0 0] := by decide
  refine ⟨log, ?_⟩
  intro grant after acquired index
  rw [(release_handed_over run).1 false grant after acquired, index, log]
  rfl

end FencedQueue

end Xios
