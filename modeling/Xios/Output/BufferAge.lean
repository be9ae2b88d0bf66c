import Xios.Output.Fence

/-! The age of a buffer counts the frames shown since its own, however its queue is used. -/

/-! Counting what happened to a key since it was last seen, in a log with the newest entry first. -/

namespace List

variable {α : Type*} [DecidableEq α]

/-- The length of the log just after its latest entry for a key, zero when there is none. -/
def stamp (log : List α) (a : α) : Nat :=
  if a ∈ log then log.length - log.idxOf a else 0

theorem stamp_nil (a : α) : stamp [] a = 0 := by
  simp [stamp]

theorem stamp_cons_self (log : List α) (a : α) : stamp (a :: log) a = log.length + 1 := by
  simp [stamp]

theorem stamp_cons_of_ne {log : List α} {a b : α} (other : b ≠ a) :
    stamp (b :: log) a = stamp log a := by
  simp only [stamp, mem_cons, other.symm, false_or, length_cons, idxOf_cons_ne log other]
  split
  · omega
  · rfl

theorem stamp_ne_zero_iff {log : List α} {a : α} : stamp log a ≠ 0 ↔ a ∈ log := by
  unfold stamp
  split
  · rename_i seen
    have before := idxOf_lt_length_iff.mpr seen
    simp only [seen, iff_true]
    omega
  · rename_i unseen
    simp [unseen]

theorem length_sub_stamp {log : List α} {a : α} (seen : a ∈ log) :
    stamp log a ≤ log.length ∧ log.length - stamp log a = log.idxOf a := by
  have before := idxOf_lt_length_iff.mpr seen
  rw [stamp, if_pos seen]
  omega

end List

namespace Xios

def QueueCall.publishes (count : Nat) : QueueCall → Option Nat
  | .publish index _ _ => if index < count then some index else none
  | _ => none

namespace OutputQueue

/-- The queue after one call. -/
def call (q : OutputQueue) : QueueCall → OutputQueue
  | .acquire rotate => ((q.acquire rotate).map Prod.snd).getD q
  | .cancel index => q.cancel index
  | .publish index pendingClients seq => q.publish index pendingClients seq
  | .release index clientBit seq => (q.release index clientBit seq).2
  | .dropClient clientBit => q.dropClient clientBit
  | .recoverAbandoned => q.recoverAbandoned

def calls (count : Nat) : Machine OutputQueue QueueCall where
  start q := reset count = some q
  enabled _ _ := True
  next := call

def published (count : Nat) (trace : List QueueCall) : List Nat :=
  trace.filterMap (QueueCall.publishes count)

/-- One more than the number of publications since the slot's own, or zero when there was none. -/
def bufferAge (published : List Nat) (index : Nat) : Nat :=
  if index ∈ published then min (1 + published.idxOf index) uintMax else 0

theorem slotAge_eq_word (q : OutputQueue) (slot : OutputQueueSlot) (fits : q.frame < 2 ^ 64)
    (past : slot.lastFrame ≤ q.frame) :
    q.slotAge slot =
      let frame := BitVec.ofNat 64 q.frame
      let lastFrame := BitVec.ofNat 64 slot.lastFrame
      let delta := frame - lastFrame + 1#64
      if lastFrame ≠ 0#64 ∧ lastFrame ≤ frame then
        if delta.toNat > uintMax then uintMax else delta.toNat
      else 0 := by
  have frame : (BitVec.ofNat 64 q.frame).toNat = q.frame := by
    rw [BitVec.toNat_ofNat, Nat.mod_eq_of_lt fits]
  have lastFrame : (BitVec.ofNat 64 slot.lastFrame).toNat = slot.lastFrame := by
    rw [BitVec.toNat_ofNat, Nat.mod_eq_of_lt (by omega)]
  have published : BitVec.ofNat 64 slot.lastFrame ≠ 0#64 ↔ slot.lastFrame ≠ 0 := by
    rw [ne_eq, BitVec.toNat_eq, lastFrame]
    simp
  simp only [slotAge, published, BitVec.le_def, frame, lastFrame]
  split
  · -- A published slot has a positive stamp, so that the sum stays within the counter too.
    have delta : (BitVec.ofNat 64 q.frame - BitVec.ofNat 64 slot.lastFrame + 1#64).toNat =
        q.frame - slot.lastFrame + 1 := by
      rw [BitVec.toNat_add, BitVec.toNat_sub, frame, lastFrame]
      simp only [BitVec.toNat_ofNat]
      omega
    rw [delta]
    split <;> omega
  · rfl

/-- Two states of a queue between which nothing was published. -/
structure Undated (q after : OutputQueue) : Prop where
  count : after.count = q.count
  frame : after.frame = q.frame
  stamps : ∀ i, (after.slots i).lastFrame = (q.slots i).lastFrame
  cursor : q.cursor < max q.count 1 → after.cursor < max q.count 1

variable {q : OutputQueue} {count : Nat}

theorem Undated.refl (q : OutputQueue) : Undated q q :=
  ⟨rfl, rfl, fun _ => rfl, id⟩

variable {i : Fin outputQueueMaxBuffers}

theorem undated_update (slot : OutputQueueSlot) (same : slot.lastFrame = (q.slots i).lastFrame) :
    Undated q { q with slots := Function.update q.slots i slot } := by
  refine ⟨rfl, rfl, ?_, id⟩
  intro j
  show (Function.update q.slots i slot j).lastFrame = _
  by_cases here : j = i
  · subst here
    rw [Function.update_self]
    exact same
  · rw [Function.update_of_ne here]

theorem acquire_undated (q : OutputQueue) (rotate : Bool) :
    Undated q (((q.acquire rotate).map Prod.snd).getD q) := by
  cases acquired : q.acquire rotate with
  | none => exact Undated.refl q
  | some result =>
    obtain ⟨-, inUse, taken⟩ := acquire_some
      (show q.acquire rotate = some (result.1, result.2) from acquired)
    have after : result.2 = (q.take (if rotate then q.count else 1) result.1.index).2 :=
      congrArg Prod.snd taken
    show Undated q result.2
    rw [after]
    have kept := undated_update (q := q) (i := result.1.index)
      { q.slots result.1.index with acquired := true, releaseWaitValue := 0 } rfl
    refine ⟨rfl, rfl, kept.stamps, ?_⟩
    -- The new position is a remainder of the count, or of one.
    intro _
    show (result.1.index + 1) % (if rotate then q.count else 1) < max q.count 1
    cases rotate with
    | false =>
      have zero : (result.1.index + 1 : Nat) % 1 = 0 := Nat.mod_one _
      show (result.1.index + 1 : Nat) % 1 < max q.count 1
      omega
    | true =>
      have bound := Nat.mod_lt (result.1.index + 1) (show 0 < q.count by omega)
      simp only [if_true]
      omega

theorem cancel_undated (q : OutputQueue) (index : Nat) : Undated q (q.cancel index) := by
  unfold cancel
  split
  · exact undated_update _ rfl
  · exact Undated.refl q

theorem release_undated (q : OutputQueue) (index : Nat) (clientBit : BitVec 32) (seq : Nat) :
    Undated q (q.release index clientBit seq).2 := by
  unfold release
  split
  · simp only
    split
    · exact Undated.refl q
    · split
      · exact Undated.refl q
      · exact undated_update _ rfl
  · exact Undated.refl q

theorem dropClient_undated (q : OutputQueue) (clientBit : BitVec 32) :
    Undated q (q.dropClient clientBit) := by
  unfold dropClient
  split
  · exact Undated.refl q
  · refine ⟨rfl, rfl, ?_, id⟩
    intro i
    simp only
    split <;> rfl

theorem recoverAbandoned_undated (q : OutputQueue) : Undated q q.recoverAbandoned := by
  refine ⟨rfl, rfl, ?_, id⟩
  intro i
  simp only [recoverAbandoned]
  split <;> rfl

theorem call_undated {c : QueueCall} (quiet : c.publishes q.count = none) :
    Undated q (q.call c) := by
  cases c with
  | acquire rotate => exact acquire_undated q rotate
  | cancel index => exact cancel_undated q index
  | publish index pendingClients seq =>
    have outside : ¬index < q.count := by
      intro inUse
      simp [QueueCall.publishes, inUse] at quiet
    show Undated q (q.publish index pendingClients seq)
    rw [publish, dif_neg outside]
    exact Undated.refl q
  | release index clientBit seq => exact release_undated q index clientBit seq
  | dropClient clientBit => exact dropClient_undated q clientBit
  | recoverAbandoned => exact recoverAbandoned_undated q

/-- The queue's frame counter and stamps are those of the log of what was published. -/
structure Dated (count : Nat) (log : List Nat) (q : OutputQueue) : Prop where
  cursor : q.cursor < max count 1
  count : q.count = count
  frame : q.frame = log.length
  stamps : ∀ i : Fin outputQueueMaxBuffers, (q.slots i).lastFrame = log.stamp i

variable {log : List Nat} {after : OutputQueue}

theorem Dated.undated (dated : Dated count log q) (undated : Undated q after) :
    Dated count log after := by
  refine ⟨?_, undated.count.trans dated.count, undated.frame.trans dated.frame, ?_⟩
  · have kept := undated.cursor (dated.count ▸ dated.cursor)
    rwa [dated.count] at kept
  · intro i
    rw [undated.stamps i, dated.stamps i]

theorem Dated.publish (dated : Dated count log q) {index : Nat} (inUse : index < count)
    (pendingClients : BitVec 32) (seq : Nat) :
    Dated count (index :: log) (q.publish index pendingClients seq) := by
  have within : index < q.count := by
    rw [dated.count]
    exact inUse
  rw [OutputQueue.publish, dif_pos within]
  refine ⟨dated.cursor, dated.count, ?_, ?_⟩
  · show q.frame + 1 = log.length + 1
    rw [dated.frame]
  · intro i
    simp only
    by_cases here : (i : Nat) = index
    · -- The published slot bears the number of the new frame.
      subst here
      rw [Function.update_self, List.stamp_cons_self, dated.frame]
    · -- Every other slot keeps its own.
      have other : i ≠ ⟨index, lt_of_lt_of_le within q.bounded⟩ := by
        intro same
        exact here (congrArg Fin.val same)
      rw [Function.update_of_ne other, List.stamp_cons_of_ne (Ne.symm here)]
      exact dated.stamps i

/-- In every run the slots are dated by the frames that were published. -/
theorem dated_of_run {trace : List QueueCall} (run : (calls count).Run trace q) :
    Dated count (published count trace) q := by
  refine run.invariant (fun trace q => Dated count (published count trace) q) ?_ ?_
  · intro q begun
    simp only [calls, reset] at begun
    split at begun
    · obtain rfl := Option.some.inj begun
      refine ⟨?_, rfl, rfl, fun i => (List.stamp_nil _).symm⟩
      show 0 < max count 1
      omega
    · cases begun
  · intro trace q c dated _
    show Dated count (published count (c :: trace)) (q.call c)
    cases known : c.publishes count with
    | none =>
      have log : published count (c :: trace) = published count trace :=
        List.filterMap_cons_none known
      rw [log]
      exact dated.undated (call_undated (dated.count ▸ known))
    | some index =>
      have log : published count (c :: trace) = index :: published count trace :=
        List.filterMap_cons_some known
      rw [log]
      -- Only one kind of call publishes, and only a slot in use.
      cases c with
      | publish target pendingClients seq =>
        simp only [QueueCall.publishes] at known
        split at known
        · rename_i inUse
          obtain rfl := Option.some.inj known
          exact dated.publish inUse pendingClients seq
        · cases known
      | _ => cases known

theorem Dated.slotAge_eq (dated : Dated count log q) (i : Fin outputQueueMaxBuffers) :
    q.slotAge (q.slots i) = bufferAge log i := by
  rw [slotAge, bufferAge, dated.stamps i, dated.frame]
  by_cases seen : (i : Nat) ∈ log
  · have later := List.length_sub_stamp seen
    rw [if_pos ⟨List.stamp_ne_zero_iff.mpr seen, later.1⟩, if_pos seen, later.2, Nat.add_comm]
  · rw [if_neg fun both => seen (List.stamp_ne_zero_iff.mp both.1), if_neg seen]

/--
The counters of `xios_output_queue.h` are 64 bits wide, and no age is computed wrongly for that.

In every run of fewer than `2 ^ 64` calls the words hold the numbers, and what the code computes
with them is the number of frames since the slot was published.
-/
theorem slotAge_words {trace : List QueueCall} (run : (calls count).Run trace q)
    (few : trace.length < 2 ^ 64) (i : Fin outputQueueMaxBuffers) :
    let frame := BitVec.ofNat 64 q.frame
    let lastFrame := BitVec.ofNat 64 (q.slots i).lastFrame
    let delta := frame - lastFrame + 1#64
    frame.toNat = q.frame ∧ lastFrame.toNat = (q.slots i).lastFrame ∧
      bufferAge (published count trace) i =
        if lastFrame ≠ 0#64 ∧ lastFrame ≤ frame then
          if delta.toNat > uintMax then uintMax else delta.toNat
        else 0 := by
  have dated := dated_of_run run
  have frame : q.frame < 2 ^ 64 := by
    have logged := List.length_filterMap_le (QueueCall.publishes count) trace
    have counted := dated.frame
    unfold published at counted
    omega
  have past : (q.slots i).lastFrame ≤ q.frame := by
    rw [dated.stamps, dated.frame]
    by_cases seen : (i : Nat) ∈ published count trace
    · exact (List.length_sub_stamp seen).1
    · rw [not_not.mp fun nonzero => seen (List.stamp_ne_zero_iff.mp nonzero)]
      exact Nat.zero_le _
  refine ⟨?_, ?_, ?_⟩
  · rw [BitVec.toNat_ofNat, Nat.mod_eq_of_lt frame]
  · rw [BitVec.toNat_ofNat, Nat.mod_eq_of_lt (by omega)]
  · rw [← dated.slotAge_eq]
    exact slotAge_eq_word q _ frame past

theorem slotAge_words_published : bufferAge (published 2 [.publish 1 0 2, .publish 0 0 1]) 0 = 2 := by
  have run : (calls 2).Run [.publish 1 0 2, .publish 0 0 1] _ :=
    .step _ (.step _ (.start rfl) trivial) trivial
  exact (slotAge_words run (by decide) ⟨0, by decide⟩).2.2.trans (by decide)

variable {nonempty : 0 < q.count} {n left : Nat}

theorem acquireFrom_none {rotate : Bool}
    (failed : acquireFrom q nonempty rotate count n left = none) :
    ∀ k < left, busy (q.slots (q.candidate nonempty rotate (n + k))) = true := by
  induction left generalizing n with
  | zero =>
    intro k before
    omega
  | succ left ih =>
    simp only [acquireFrom] at failed
    split at failed
    · rename_i occupied
      intro k before
      cases k with
      | zero => exact occupied
      | succ k =>
        have later := ih failed k (by omega)
        rwa [show n + 1 + k = n + (k + 1) by omega] at later
    · cases failed

theorem exists_candidate (nonempty : 0 < q.count) (cursor : q.cursor < q.count)
    (inUse : (i : Nat) < q.count) : ∃ n < q.count, q.candidate nonempty true n = i := by
  by_cases ahead : q.cursor ≤ i
  · refine ⟨i - q.cursor, by omega, ?_⟩
    apply Fin.ext
    show (q.cursor + (i - q.cursor)) % q.count = i
    rw [Nat.add_sub_cancel' ahead, Nat.mod_eq_of_lt inUse]
  · -- A slot behind the cursor comes after the scan has wrapped around.
    refine ⟨i + q.count - q.cursor, by omega, ?_⟩
    apply Fin.ext
    show (q.cursor + (i + q.count - q.cursor)) % q.count = i
    rw [show q.cursor + (i + q.count - q.cursor) = i + q.count by omega, Nat.add_mod_right,
      Nat.mod_eq_of_lt inUse]

theorem acquireFrom_primary {slots : Nat} {grant : Grant}
    (acquired : acquireFrom q nonempty false slots n left = some (grant, after)) :
    grant.index = 0 := by
  induction left generalizing n with
  | zero => cases acquired
  | succ left ih =>
    simp only [acquireFrom] at acquired
    split at acquired
    · exact ih acquired
    · have result := Option.some.inj acquired
      exact (congrArg (fun result => result.1.index) result).symm

theorem acquire_none (cursor : q.cursor < max q.count 1) (failed : q.acquire true = none)
    (i : Fin outputQueueMaxBuffers) (inUse : (i : Nat) < q.count) : busy (q.slots i) = true := by
  have nonempty : 0 < q.count := by omega
  rw [acquire, dif_pos nonempty] at failed
  obtain ⟨n, before, here⟩ := exists_candidate nonempty (by omega) inUse
  have occupied := acquireFrom_none failed n before
  rwa [Nat.zero_add, here] at occupied

/--
The age of every acquired slot is right, along every run of a queue from its reset.

It is one more than the number of frames published since the slot's own last publication, as far as
the out-parameter can hold it, and zero for a slot that was never published.
The cursor stays in range, an acquisition without rotation returns the primary slot only, and a
rotating one fails only when every slot in use is busy.
-/
theorem acquire_age {trace : List QueueCall} (run : (calls count).Run trace q) :
    q.count = count ∧ q.cursor < max count 1 ∧
      (∀ rotate grant after, q.acquire rotate = some (grant, after) →
        grant.age = bufferAge (published count trace) grant.index ∧
          (rotate = false → grant.index = 0)) ∧
      (q.acquire true = none → ∀ i : Fin outputQueueMaxBuffers, (i : Nat) < count →
        busy (q.slots i) = true) := by
  have dated := dated_of_run run
  refine ⟨dated.count, dated.cursor, ?_, ?_⟩
  · intro rotate grant after acquired
    constructor
    · obtain ⟨-, -, taken⟩ := acquire_some acquired
      rw [← dated.slotAge_eq]
      exact congrArg (fun result => result.1.age) taken
    · intro still
      subst still
      unfold acquire at acquired
      split at acquired
      · exact acquireFrom_primary acquired
      · cases acquired
  · intro failed i inUse
    rw [← dated.count] at inUse
    exact acquire_none (dated.count ▸ dated.cursor) failed i inUse

def turns : List QueueCall :=
  [.cancel 0, .acquire true, .release 0 1#32 7, .publish 1 0#32 8, .acquire true,
    .publish 0 1#32 7, .acquire true]

theorem acquire_age_turns : ∃ q grant after, (calls 2).Run turns q ∧
    q.acquire false = some (grant, after) ∧ grant.age = 2 := by
  have run : (calls 2).Run turns
      (turns.reverse.foldl call ⟨fun _ => {}, 2, by decide, 0, 0⟩) :=
    Machine.Run.of_script (m := calls 2) rfl turns.reverse
      (Machine.admits_of_enabled (fun _ _ => trivial) _ _)
  refine ⟨_, _, _, run, rfl, ?_⟩
  exact ((acquire_age run).2.2.1 false _ _ rfl).1.trans (by decide)

end OutputQueue

end Xios
