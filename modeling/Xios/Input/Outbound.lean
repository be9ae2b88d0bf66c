import Xios.Lib.Memory
import Xios.Lib.Writing

/-! The queue of bytes that wait for an input client whose socket takes no more. -/

namespace Xios

def outQueueMax : Nat := 64 * 1024

/-- What goes out to one client. -/
structure OutQueue where
  -- Memory for the bytes that wait.
  out : Memory UInt8 := fun _ => 0
  -- Number of bytes that wait.
  outLen : Nat := 0
  -- Number of bytes the memory has room for.
  outCap : Nat := 0
  -- The event queue reports when the socket takes bytes again.
  writeArmed : Bool := false
  -- The socket was shut down after a failed write.
  dead : Bool := false
  -- All bytes put on the socket so far.
  written : List UInt8 := []
  -- All records that were to be sent while the client was not dead.
  attempted : List (List UInt8) := []
  -- The records among them that were taken on.
  accepted : List (List UInt8) := []

/-- How the system answers while one record is sent. -/
structure SendAnswer where
  plan : List WriteResult
  memory : Bool := true
  -- The event queue can be told to report.
  armed : Bool := true

def growCap (need cap : Nat) : Nat → Nat
  | 0 => cap
  | fuel + 1 => if cap < need then growCap need (cap * 2) fuel else cap

theorem le_growCap {need cap fuel : Nat} (positive : 0 < cap) (enough : need ≤ cap + fuel) :
    need ≤ growCap need cap fuel := by
  induction fuel generalizing cap with
  | zero => simpa [growCap] using enough
  | succ fuel ih =>
    unfold growCap
    split
    · exact ih (by omega) (by omega)
    · omega

namespace OutQueue

def queued (q : OutQueue) : List UInt8 :=
  q.out.read 0 q.outLen

/-- Give a client up, and leave it to the read path to free it. -/
def clientShut (q : OutQueue) : OutQueue :=
  { q with dead := true, outLen := 0, writeArmed := false }

def accept (q : OutQueue) (record : List UInt8) : OutQueue :=
  { q with accepted := q.accepted ++ [record] }

/-- Capacity of the memory once it has room for so many bytes. -/
def capFor (q : OutQueue) (need : Nat) : Nat :=
  if q.outCap < need then growCap need (if q.outCap = 0 then 4096 else q.outCap) need else q.outCap

def enqueue (q : OutQueue) (record rest : List UInt8) (answer : SendAnswer) : Bool × OutQueue :=
  if outQueueMax - q.outLen < rest.length then (false, q)
  else if q.outCap < q.outLen + rest.length ∧ answer.memory = false then (false, q)
  else
    let q :=
      { q with
        out := q.out.write q.outLen rest
        outLen := q.outLen + rest.length
        outCap := q.capFor (q.outLen + rest.length) }
    if q.writeArmed then (true, q.accept record)
    else if answer.armed then (true, accept { q with writeArmed := true } record)
    else (false, q)

def direct (q : OutQueue) (record : List UInt8) (answer : SendAnswer) : Written UInt8 :=
  if q.outLen = 0 then writeLoop record answer.plan else ⟨[], record, .blocked, answer.plan⟩

/-- Write one whole record or queue what the socket does not take yet. -/
def clientSend (q : OutQueue) (record : List UInt8) (answer : SendAnswer) : Bool × OutQueue :=
  if q.dead then (false, q)
  else
    let direct := q.direct record answer
    let q :=
      { q with attempted := q.attempted ++ [record], written := q.written ++ direct.put }
    match direct.ended with
    | .done => (true, q.accept record)
    | .failed => (false, q)
    | .blocked => q.enqueue record direct.rest answer

def sendOrShut (q : OutQueue) (record : List UInt8) (answer : SendAnswer) : OutQueue :=
  let sent := q.clientSend record answer
  if sent.1 then sent.2 else sent.2.clientShut

/-- Take the bytes that went out off the front of the queue. -/
def advance (q : OutQueue) (put : Nat) : OutQueue :=
  if 0 < put then
    { q with out := q.out.move 0 put (q.outLen - put), outLen := q.outLen - put }
  else q

/-- Stop the reports once nothing waits. -/
def disarm (q : OutQueue) : OutQueue :=
  if q.outLen = 0 ∧ q.writeArmed = true then { q with writeArmed := false } else q

/-- The socket takes bytes again, so the queue moves on. -/
def clientFlush (q : OutQueue) (plan : List WriteResult) : OutQueue :=
  let flushed := writeLoop q.queued plan
  let q := { q with written := q.written ++ flushed.put }
  if flushed.ended = .failed then q.clientShut else (q.advance flushed.put.length).disarm

/-- Nothing is lost, torn or forgotten in a queue. -/
structure Sound (q : OutQueue) : Prop where
  bounded : q.outLen ≤ outQueueMax
  -- What waits lies in memory the queue owns.
  fits : q.outLen ≤ q.outCap
  -- The event queue reports exactly while something waits.
  armed : q.writeArmed = true ↔ 0 < q.outLen
  -- Nothing waits for a client that was given up.
  shut : q.dead = true → q.outLen = 0
  -- Only a client that was given up has missed a record.
  complete : q.dead = false → q.attempted = q.accepted
  -- What was put out and what waits are the records taken on.
  exact : q.dead = false → q.written ++ q.queued = q.accepted.flatten
  -- What was put out begins the records that were to be sent.
  inOrder : q.written <+: q.attempted.flatten

theorem sound_new : Sound {} where
  bounded := Nat.zero_le _
  fits := Nat.zero_le _
  armed := by simp
  shut _ := rfl
  complete _ := rfl
  exact _ := rfl
  inOrder := ⟨[], rfl⟩

@[simp] theorem length_queued (q : OutQueue) : q.queued.length = q.outLen :=
  Memory.length_read _ _ _

variable {q : OutQueue}

theorem Sound.clientShut (inOrder : q.written <+: q.attempted.flatten) : q.clientShut.Sound where
  bounded := Nat.zero_le _
  fits := Nat.zero_le _
  armed := by simp [OutQueue.clientShut]
  shut _ := rfl
  complete alive := by simp [OutQueue.clientShut] at alive
  exact alive := by simp [OutQueue.clientShut] at alive
  inOrder := inOrder

theorem direct_append (q : OutQueue) (record : List UInt8) (answer : SendAnswer) :
    (q.direct record answer).put ++ (q.direct record answer).rest = record := by
  unfold direct
  split
  · exact writeLoop_put_append_rest record answer.plan
  · rfl

variable {record : List UInt8} {answer : SendAnswer}

theorem direct_done (done : (q.direct record answer).ended = .done) :
    q.outLen = 0 ∧ (q.direct record answer).put = record := by
  have whole := q.direct_append record answer
  unfold direct at done whole ⊢
  split at done
  · rename_i empty
    rw [if_pos empty, (writeLoop_rest_eq_nil _ _).2 done, List.append_nil] at whole
    rw [if_pos empty]
    exact ⟨empty, whole⟩
  · cases done

theorem direct_put (record : List UInt8) (answer : SendAnswer) (waits : q.outLen ≠ 0) :
    (q.direct record answer).put = [] := by
  simp [direct, waits]

theorem Sound.direct_inOrder (sound : q.Sound) (alive : q.dead = false) (record : List UInt8)
    (answer : SendAnswer) :
    q.written ++ (q.direct record answer).put <+: (q.attempted ++ [record]).flatten := by
  rw [List.flatten_concat, sound.complete alive, ← sound.exact alive]
  by_cases empty : q.outLen = 0
  · -- Nothing waits, so the record continues what was put out.
    have none : q.queued = [] := by simp [queued, empty, Memory.read]
    rw [none, List.append_nil]
    exact (List.prefix_append_right_inj _).2 ⟨_, q.direct_append record answer⟩
  · rw [direct_put record answer empty, List.append_nil, List.append_assoc]
    exact List.prefix_append _ _

theorem le_capFor (q : OutQueue) (need : Nat) : need ≤ q.capFor need := by
  unfold capFor
  split
  · exact le_growCap (by split <;> omega) (by omega)
  · omega

theorem queued_write (q : OutQueue) (rest : List UInt8) :
    (q.out.write q.outLen rest).read 0 (q.outLen + rest.length) = q.queued ++ rest := by
  have appended := q.out.read_write_append 0 q.outLen rest
  rw [Nat.zero_add] at appended
  exact appended

theorem enqueue_taken {rest : List UInt8} (bounded : q.outLen ≤ outQueueMax)
    (taken : (q.enqueue record rest answer).1 = true) :
    ∃ out outCap, (q.enqueue record rest answer).2 =
        { q with
          out, outCap, outLen := q.outLen + rest.length, writeArmed := true
          accepted := q.accepted ++ [record] } ∧
      q.outLen + rest.length ≤ outQueueMax ∧ q.outLen + rest.length ≤ outCap ∧
      out.read 0 (q.outLen + rest.length) = q.queued ++ rest := by
  unfold enqueue at taken ⊢
  split at taken
  · cases taken
  rename_i room
  rw [if_neg room]
  split at taken
  · cases taken
  rename_i memory
  rw [if_neg memory]
  refine ⟨q.out.write q.outLen rest, q.capFor (q.outLen + rest.length), ?_, by omega,
    q.le_capFor _, q.queued_write rest⟩
  -- The event queue is told to report unless it does so already.
  cases on : q.writeArmed with
  | true => simp [accept]
  | false =>
    cases able : answer.armed with
    | true => simp [accept]
    | false => simp [on, able] at taken

theorem enqueue_frame (q : OutQueue) (record rest : List UInt8) (answer : SendAnswer) :
    (q.enqueue record rest answer).2.attempted = q.attempted ∧
      (q.enqueue record rest answer).2.written = q.written ∧
      (q.enqueue record rest answer).2.dead = q.dead := by
  unfold enqueue
  split
  · exact ⟨rfl, rfl, rfl⟩
  split
  · exact ⟨rfl, rfl, rfl⟩
  dsimp only
  split
  · exact ⟨rfl, rfl, rfl⟩
  split <;> exact ⟨rfl, rfl, rfl⟩

/-- The queue with a record noted as to be sent, after the direct writes. -/
def begun (q : OutQueue) (record : List UInt8) (answer : SendAnswer) : OutQueue :=
  { q with
    attempted := q.attempted ++ [record]
    written := q.written ++ (q.direct record answer).put }

theorem clientSend_alive (alive : q.dead = false) (record : List UInt8) (answer : SendAnswer) :
    q.clientSend record answer =
      match (q.direct record answer).ended with
      | .done => (true, (q.begun record answer).accept record)
      | .failed => (false, q.begun record answer)
      | .blocked => (q.begun record answer).enqueue record (q.direct record answer).rest answer := by
  rw [clientSend, if_neg (by simp [alive])]
  rfl

theorem clientSend_attempted (alive : q.dead = false) (record : List UInt8) (answer : SendAnswer) :
    (q.clientSend record answer).2.attempted = q.attempted ++ [record] ∧
      (q.clientSend record answer).2.written = q.written ++ (q.direct record answer).put := by
  rw [clientSend_alive alive]
  split
  · exact ⟨rfl, rfl⟩
  · exact ⟨rfl, rfl⟩
  · obtain ⟨attempted, written, -⟩ := (q.begun record answer).enqueue_frame record
      (q.direct record answer).rest answer
    exact ⟨attempted, written⟩

theorem direct_blocked (blocked : (q.direct record answer).ended = .blocked) :
    0 < q.outLen + (q.direct record answer).rest.length := by
  by_cases empty : q.outLen = 0
  · have left : (q.direct record answer).rest ≠ [] := by
      intro none
      unfold direct at none blocked
      rw [if_pos empty] at none blocked
      rw [(writeLoop_rest_eq_nil _ _).1 none] at blocked
      cases blocked
    have := List.length_pos_iff.2 left
    omega
  · omega

/-- A record that is taken is queued in whole or written in part with its rest queued. -/
theorem Sound.clientSend (sound : q.Sound) (alive : q.dead = false)
    (taken : (q.clientSend record answer).1 = true) : (q.clientSend record answer).2.Sound := by
  have inOrder := sound.direct_inOrder alive record answer
  have whole := q.direct_append record answer
  have exact := sound.exact alive
  have complete := sound.complete alive
  rw [clientSend_alive alive] at taken ⊢
  cases ended : (q.direct record answer).ended with
  | failed =>
    rw [ended] at taken
    cases taken
  | done =>
    obtain ⟨empty, all⟩ := direct_done ended
    refine ⟨sound.bounded, sound.fits, sound.armed, sound.shut, ?_, ?_, inOrder⟩
    · intro _
      simp [begun, accept, complete]
    · intro _
      have none : q.queued = [] := by simp [queued, empty, Memory.read]
      show q.written ++ (q.direct record answer).put ++ q.queued =
        (q.accepted ++ [record]).flatten
      rw [all, none, List.append_nil, List.flatten_concat, ← exact, none, List.append_nil]
  | blocked =>
    rw [ended] at taken
    replace taken :
        ((q.begun record answer).enqueue record (q.direct record answer).rest answer).1 = true :=
      taken
    obtain ⟨out, outCap, here, bounded, fits, queue⟩ :=
      enqueue_taken (q := q.begun record answer) sound.bounded taken
    show ((q.begun record answer).enqueue record (q.direct record answer).rest answer).2.Sound
    rw [here]
    refine ⟨bounded, fits, ?_, ?_, ?_, ?_, inOrder⟩
    · exact ⟨fun _ => direct_blocked ended, fun _ => rfl⟩
    · intro dead
      rw [show q.dead = true from dead] at alive
      cases alive
    · intro _
      simp [begun, complete]
    · intro _
      replace queue : out.read 0 (q.outLen + (q.direct record answer).rest.length) =
        q.queued ++ (q.direct record answer).rest := queue
      show q.written ++ (q.direct record answer).put ++
        out.read 0 (q.outLen + (q.direct record answer).rest.length) =
          (q.accepted ++ [record]).flatten
      rw [queue, List.flatten_concat, ← exact]
      -- Either nothing was put out just now or nothing waited.
      by_cases empty : q.outLen = 0
      · have none : q.queued = [] := by simp [queued, empty, Memory.read]
        rw [none, List.nil_append, List.append_nil, List.append_assoc, whole]
      · rw [direct_put record answer empty, List.nil_append] at whole
        rw [direct_put record answer empty, List.append_nil, whole, List.append_assoc]

theorem Sound.sendOrShut (sound : q.Sound) (alive : q.dead = false) (record : List UInt8)
    (answer : SendAnswer) : (q.sendOrShut record answer).Sound := by
  unfold OutQueue.sendOrShut
  dsimp only
  split
  · rename_i taken
    exact sound.clientSend alive taken
  · obtain ⟨attempted, written⟩ := clientSend_attempted alive record answer
    apply Sound.clientShut
    rw [attempted, written]
    exact sound.direct_inOrder alive record answer

theorem advance_spec (q : OutQueue) (put : Nat) (fits : put ≤ q.outLen) :
    ∃ out, q.advance put = { q with out, outLen := q.outLen - put } ∧
      out.read 0 (q.outLen - put) = q.queued.drop put := by
  unfold advance
  split
  · refine ⟨_, rfl, ?_⟩
    rw [Memory.read_move]
    have later := q.out.read_drop 0 q.outLen put fits
    rw [Nat.zero_add] at later
    exact later
  · rename_i nothing
    have none : put = 0 := by omega
    subst none
    exact ⟨q.out, rfl, rfl⟩

theorem disarm_spec (armed : q.writeArmed = false → q.outLen = 0) :
    ∃ writeArmed, q.disarm = { q with writeArmed } ∧ (writeArmed = true ↔ 0 < q.outLen) := by
  unfold disarm
  split
  · rename_i empty
    exact ⟨false, rfl, by simp [empty.1]⟩
  · rename_i waits
    refine ⟨q.writeArmed, rfl, ?_⟩
    cases on : q.writeArmed with
    | true =>
      have : q.outLen ≠ 0 := fun none => waits ⟨none, on⟩
      simp only [true_iff]
      omega
    | false => simp [armed on]

/-- A flush writes from the front of what is queued. -/
theorem Sound.clientFlush (sound : q.Sound) (plan : List WriteResult) :
    (q.clientFlush plan).Sound := by
  have whole := writeLoop_put_append_rest q.queued plan
  generalize flushed : writeLoop q.queued plan = w at whole
  have short : w.put.length ≤ q.outLen := by
    rw [← length_queued, ← whole, List.length_append]
    omega
  -- What went out just now was the front of what waited.
  have inOrder : q.written ++ w.put <+: q.attempted.flatten := by
    cases alive : q.dead with
    | false =>
      rw [sound.complete alive, ← sound.exact alive, ← whole]
      exact (List.prefix_append_right_inj _).2 (List.prefix_append _ _)
    | true =>
      have none : w.put = [] := List.eq_nil_of_length_eq_zero (by have := sound.shut alive; omega)
      rw [none, List.append_nil]
      exact sound.inOrder
  unfold OutQueue.clientFlush
  rw [flushed]
  dsimp only
  split
  · exact Sound.clientShut inOrder
  · obtain ⟨out, here, queue⟩ :=
      advance_spec { q with written := q.written ++ w.put } w.put.length short
    rw [here]
    obtain ⟨writeArmed, here, armed⟩ := disarm_spec
      (q := { q with written := q.written ++ w.put, out, outLen := q.outLen - w.put.length }) (by
        intro off
        have := sound.armed.not.1 (by simp [show q.writeArmed = false from off])
        show q.outLen - w.put.length = 0
        omega)
    rw [here]
    have := sound.bounded
    have := sound.fits
    refine ⟨?_, ?_, armed, ?_, sound.complete, ?_, inOrder⟩
    · show q.outLen - w.put.length ≤ outQueueMax
      omega
    · show q.outLen - w.put.length ≤ q.outCap
      omega
    · intro dead
      have := sound.shut dead
      show q.outLen - w.put.length = 0
      omega
    · intro alive
      show q.written ++ w.put ++ out.read 0 (q.outLen - w.put.length) = q.accepted.flatten
      rw [queue]
      show q.written ++ w.put ++ q.queued.drop w.put.length = q.accepted.flatten
      rw [← whole, List.drop_left, List.append_assoc, whole]
      exact sound.exact alive

theorem Sound.clientFlush_dead (sound : q.Sound) (dead : q.dead = true) (plan : List WriteResult) :
    q.clientFlush plan = q := by
  have empty := sound.shut dead
  have off : q.writeArmed = false := by
    rw [← Bool.not_eq_true, sound.armed, empty]
    exact Nat.lt_irrefl 0
  have none : q.queued = [] := by simp [queued, empty, Memory.read]
  have idle : { q with written := q.written ++ [] }.disarm = q := by
    rw [List.append_nil, disarm, if_neg (by simp [off])]
  simpa [OutQueue.clientFlush, none, writeLoop, advance] using idle

theorem clientSend_dead (alive : q.dead = false) (record : List UInt8) (answer : SendAnswer) :
    (q.clientSend record answer).2.dead = false := by
  rw [clientSend_alive alive]
  split
  · exact alive
  · exact alive
  · obtain ⟨-, -, dead⟩ := (q.begun record answer).enqueue_frame record
      (q.direct record answer).rest answer
    exact dead.trans alive

theorem clientFlush_dead {plan : List WriteResult}
    (fine : (writeLoop q.queued plan).ended ≠ .failed) : (q.clientFlush plan).dead = q.dead := by
  unfold clientFlush
  rw [if_neg fine]
  unfold disarm advance
  split <;> split <;> rfl

end OutQueue

end Xios
