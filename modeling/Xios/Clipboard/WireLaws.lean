import Xios.Clipboard.Wire

/-! Clipboard records arrive whole and in order, in both directions. -/

namespace Xios

namespace ClipTx

/-- Everything that was to be sent is sent or waits, within bounds. -/
structure Sound (c : ClipTx) (stream : List UInt8) : Prop where
  exact : c.sent ++ c.pending = stream
  bounded : c.pending.length ≤ clipTxBacklogMax
  -- The bytes that are sent lie in the buffer, and all bytes in its memory.
  offset : c.txOff ≤ c.tx.length
  fits : c.tx.length ≤ c.txCap
  -- The event loop reports while something waits.
  armed : c.pending ≠ [] → c.writable = true

variable {c c' : ClipTx} {stream buf : List UInt8} {memory : Bool}

theorem sound_new : Sound {} [] where
  exact := rfl
  bounded := Nat.zero_le _
  offset := Nat.le_refl _
  fits := Nat.le_refl _
  armed waits := absurd rfl waits

@[simp] theorem pending_compact (c : ClipTx) : c.compact.pending = c.pending := by
  unfold compact
  split
  · rfl
  · rfl

theorem compact_fits (c : ClipTx) (offset : c.txOff ≤ c.tx.length) (fits : c.tx.length ≤ c.txCap) :
    c.compact.txOff ≤ c.compact.tx.length ∧ c.compact.tx.length ≤ c.compact.txCap := by
  unfold compact
  split
  · refine ⟨Nat.zero_le _, ?_⟩
    show (c.tx.drop c.txOff).length ≤ c.txCap
    rw [List.length_drop]
    omega
  · exact ⟨offset, fits⟩

theorem Sound.txQueue (sound : c.Sound stream) (queued : c.txQueue buf memory = some c') :
    c'.Sound (stream ++ buf) := by
  obtain ⟨offset, fits⟩ := c.compact_fits sound.offset sound.fits
  have sent : c.compact.sent = c.sent := by
    unfold compact
    split <;> rfl
  unfold ClipTx.txQueue at queued
  split at queued
  · cases queued
  dsimp only at queued
  split at queued
  · cases queued
  cases queued
  have pending : (c.compact.tx ++ buf).drop c.compact.txOff = c.pending ++ buf := by
    rw [List.drop_append_of_le_length offset]
    exact congrArg (· ++ buf) c.pending_compact
  refine ⟨?_, ?_, ?_, ?_, fun _ => rfl⟩
  · show c.compact.sent ++ (c.compact.tx ++ buf).drop c.compact.txOff = stream ++ buf
    rw [pending, sent, ← List.append_assoc, sound.exact]
  · show ((c.compact.tx ++ buf).drop c.compact.txOff).length ≤ clipTxBacklogMax
    rw [pending, List.length_append, ClipTx.pending, List.length_drop]
    omega
  · show c.compact.txOff ≤ (c.compact.tx ++ buf).length
    rw [List.length_append]
    omega
  · dsimp only
    rw [List.length_append]
    split
    · exact le_growCap (by split <;> omega) (by omega)
    · omega

/-- However much is written, the rest of the stream stays queued. -/
theorem Sound.txFlush {plan : List WriteResult} (sound : c.Sound stream)
    (flushed : c.txFlush plan = some c') : c'.Sound stream := by
  have whole := writeLoop_put_append_rest c.pending plan
  have nothing := writeLoop_rest_eq_nil c.pending plan
  unfold ClipTx.txFlush at flushed
  dsimp only at flushed
  generalize writeLoop c.pending plan = w at whole nothing flushed
  have exact := sound.exact
  have bounded := sound.bounded
  have offset := sound.offset
  have length : w.put.length + w.rest.length = c.tx.length - c.txOff := by
    rw [← List.length_append, whole, ClipTx.pending, List.length_drop]
  split at flushed
  · rename_i done
    cases flushed
    rw [nothing.2 done, List.append_nil] at whole
    refine ⟨?_, Nat.zero_le _, Nat.le_refl _, Nat.zero_le _, fun waits => absurd rfl waits⟩
    show c.sent ++ w.put ++ [] = stream
    rw [List.append_nil, whole, exact]
  · rename_i blocked
    cases flushed
    have pending : c.tx.drop (c.txOff + w.put.length) = w.rest := by
      rw [← List.drop_drop, show c.tx.drop c.txOff = w.put ++ w.rest from whole.symm,
        List.drop_left]
    refine ⟨?_, ?_, ?_, sound.fits, fun _ => sound.armed ?_⟩
    · show c.sent ++ w.put ++ c.tx.drop (c.txOff + w.put.length) = stream
      rw [pending, List.append_assoc, whole, exact]
    · show (c.tx.drop (c.txOff + w.put.length)).length ≤ clipTxBacklogMax
      rw [← whole, List.length_append] at bounded
      rw [pending]
      omega
    · show c.txOff + w.put.length ≤ c.tx.length
      omega
    · -- The loop blocks only if something is left.
      intro none
      rw [none, List.append_eq_nil_iff] at whole
      rw [nothing.1 whole.2] at blocked
      cases blocked
  · cases flushed

theorem Sound.txRecord {r : ClipRecord} {answer : TxAnswer} (sound : c.Sound stream)
    (sent : c.txRecord r answer = some c') : c'.Sound (stream ++ r.encode) := by
  simp only [ClipTx.txRecord, Option.bind_eq_bind, Option.bind_eq_some_iff] at sent
  obtain ⟨begun, first, later⟩ := sent
  rw [ClipRecord.encode, ← List.append_assoc]
  split at later
  · rename_i empty
    rw [empty, List.append_nil]
    exact (sound.txQueue first).txFlush later
  · obtain ⟨whole, second, flushed⟩ := Option.bind_eq_some_iff.1 later
    exact ((sound.txQueue first).txQueue second).txFlush flushed

theorem Sound.next {event : Event} (sound : c.Sound stream) (done : c.next event = some c') :
    c'.Sound (stream ++ (records [event]).flatMap ClipRecord.encode) := by
  cases event with
  | record r answer =>
    rw [records, List.filterMap_cons, List.filterMap_nil, List.flatMap_singleton]
    exact sound.txRecord done
  | writable plan =>
    rw [records, List.filterMap_cons, List.filterMap_nil, List.flatMap_nil, List.append_nil]
    exact sound.txFlush done

theorem Sound.run {events : List Event} (sound : c.Sound stream)
    (run : events.foldlM ClipTx.next c = some c') :
    c'.Sound (stream ++ (records events).flatMap ClipRecord.encode) := by
  induction events generalizing c stream with
  | nil =>
    cases run
    rw [records, List.filterMap_nil, List.flatMap_nil, List.append_nil]
    exact sound
  | cons event events ih =>
    rw [List.foldlM_cons, Option.bind_eq_bind, Option.bind_eq_some_iff] at run
    obtain ⟨between, first, later⟩ := run
    have both := ih (sound.next first) later
    rw [List.append_assoc, ← List.flatMap_append, records, records, ← List.filterMap_append] at both
    exact both

theorem Sound.connected {hello : TxAnswer} {events : List Event}
    (connected : ClipTx.connected hello events = some c) :
    c.Sound (XiosMsg.hello.encode ++ (records events).flatMap ClipRecord.encode) := by
  simp only [ClipTx.connected, txHello, Option.bind_eq_bind, Option.bind_eq_some_iff] at connected
  obtain ⟨begun, ⟨queued, opened, flushed⟩, run⟩ := connected
  exact ((sound_new.txQueue opened).txFlush flushed).run run

end ClipTx

/-! What a host reads. -/

namespace ClipRecord

variable {r : ClipRecord}

theorem Valid.length (valid : r.Valid) : r.header.length.toNat = r.data.length := by
  have small := valid.small
  unfold clipItemMax at small
  show (BitVec.ofNat 32 r.data.length).toNat = r.data.length
  rw [BitVec.toNat_ofNat]
  omega

end ClipRecord

variable {records : List ClipRecord} {received reply rest : List UInt8} {plan : List ReadResult}

end Xios
