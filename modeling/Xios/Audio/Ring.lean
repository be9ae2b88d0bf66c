import Xios.Audio.Unit

/-! The ring of a client of `xios-audiod.c` as it lies in memory, and the queue it stands for. -/

namespace Xios

/-- The frames of a client. -/
structure AudioRing (α : Type) where
  -- Samples, left and right in turn.
  ring : Nat → α
  -- Where the oldest frame is, where the next one goes, and how many there are.
  readFrame : Nat := 0
  writeFrame : Nat := 0
  frames : Nat := 0

/-- The operations on a ring. -/
inductive RingOp (α : Type) where
  | push (left right : α)
  | pop
  | trim (maxFrames : Nat)

namespace AudioRing

variable {α : Type}

def ringPushStereo (c : AudioRing α) (left right : α) : AudioRing α :=
  let c :=
    if ringFrames ≤ c.frames then
      { c with readFrame := (c.readFrame + 1) % ringFrames, frames := c.frames - 1 }
    else c
  let i := c.writeFrame * 2
  { c with
    ring := Function.update (Function.update c.ring i left) (i + 1) right
    writeFrame := (c.writeFrame + 1) % ringFrames
    frames := c.frames + 1 }

def ringPopStereo (c : AudioRing α) : Option (α × α) × AudioRing α :=
  if c.frames = 0 then (none, c)
  else
    let i := c.readFrame * 2
    (some (c.ring i, c.ring (i + 1)),
      { c with readFrame := (c.readFrame + 1) % ringFrames, frames := c.frames - 1 })

def ringsTrimLocked (c : AudioRing α) (maxFrames : Nat) : AudioRing α :=
  if maxFrames < c.frames then
    { c with
      readFrame := (c.readFrame + (c.frames - maxFrames)) % ringFrames
      frames := maxFrames }
  else c

/-- Execute one operation, and note the frame that is popped. -/
def next (s : List (α × α) × AudioRing α) : RingOp α → List (α × α) × AudioRing α
  | .push left right => (s.1, s.2.ringPushStereo left right)
  | .pop => (s.1 ++ s.2.ringPopStereo.1.toList, s.2.ringPopStereo.2)
  | .trim maxFrames => (s.1, s.2.ringsTrimLocked maxFrames)

/-- The same on a plain queue that has room for as many frames. -/
def nextQueue (s : List (α × α) × List (α × α)) : RingOp α → List (α × α) × List (α × α)
  | .push left right =>
    (s.1, (if s.2.length < ringFrames then s.2 else s.2.tail) ++ [(left, right)])
  | .pop => (s.1 ++ s.2.head?.toList, s.2.tail)
  | .trim maxFrames => (s.1, s.2.drop (s.2.length - maxFrames))

/-- A ring lies in memory as a circular buffer of frames. -/
structure Holds (c : AudioRing α) (buffer : CircularBuffer (α × α) ringFrames) : Prop where
  cells : ∀ i, buffer.cells i = (c.ring (i * 2), c.ring (i * 2 + 1))
  read : buffer.read = c.readFrame
  write : buffer.write = c.writeFrame
  count : buffer.count = c.frames
  -- The oldest frame is read without a look at the end of the memory.
  inside : c.readFrame < ringFrames

variable {c : AudioRing α} {buffer : CircularBuffer (α × α) ringFrames}

theorem Holds.trim (holds : c.Holds buffer) (maxFrames : Nat) :
    (c.ringsTrimLocked maxFrames).Holds (buffer.trim maxFrames) := by
  unfold ringsTrimLocked CircularBuffer.trim
  rw [← holds.count, ← holds.read]
  split
  · exact ⟨holds.cells, rfl, holds.write, rfl, Nat.mod_lt _ (by decide)⟩
  · exact holds

theorem ringsTrimLocked_one (some : c.frames ≠ 0) :
    c.ringsTrimLocked (c.frames - 1) =
      { c with readFrame := (c.readFrame + 1) % ringFrames, frames := c.frames - 1 } := by
  rw [ringsTrimLocked, if_pos (by omega), show c.frames - (c.frames - 1) = 1 by omega]

theorem Holds.append (holds : c.Holds buffer) (left right : α) (room : buffer.count < ringFrames) :
    Holds { c with
      ring := Function.update (Function.update c.ring (c.writeFrame * 2) left)
        (c.writeFrame * 2 + 1) right
      writeFrame := (c.writeFrame + 1) % ringFrames
      frames := c.frames + 1 } (buffer.append (left, right) room) := by
  refine ⟨fun i => ?_, holds.read, ?_, ?_, holds.inside⟩
  · show Function.update buffer.cells buffer.write (left, right) i = _
    rw [holds.write]
    dsimp only
    by_cases here : i = c.writeFrame
    · rw [here, Function.update_self, Function.update_self,
        Function.update_of_ne (by omega), Function.update_self]
    · rw [Function.update_of_ne here, Function.update_of_ne (by omega),
        Function.update_of_ne (by omega), Function.update_of_ne (by omega),
        Function.update_of_ne (by omega), holds.cells]
  · show (buffer.write + 1) % ringFrames = (c.writeFrame + 1) % ringFrames
    rw [holds.write]
  · exact congrArg (· + 1) holds.count

theorem Holds.push (holds : c.Holds buffer) (left right : α) :
    (c.ringPushStereo left right).Holds (buffer.push (left, right)) := by
  have count := holds.count
  unfold ringPushStereo CircularBuffer.push
  by_cases room : buffer.count < ringFrames
  · rw [if_neg (by omega), dif_pos room]
    exact holds.append left right room
  · -- The oldest frame makes room for the new one.
    have positive : 0 < ringFrames := by decide
    have full : ringFrames ≤ c.frames := by omega
    have some : c.frames ≠ 0 := by omega
    rw [if_pos full, dif_neg room, dif_pos positive, ← ringsTrimLocked_one some]
    have trimmed := holds.trim (c.frames - 1)
    rw [← count] at trimmed ⊢
    exact trimmed.append left right _

theorem Holds.pop (holds : c.Holds buffer) :
    c.ringPopStereo.1 = buffer.pop.1 ∧ c.ringPopStereo.2.Holds buffer.pop.2 := by
  have count := holds.count
  unfold ringPopStereo CircularBuffer.pop
  by_cases empty : c.frames = 0
  · rw [if_pos empty, if_pos (count.trans empty)]
    exact ⟨rfl, holds⟩
  · have some : buffer.count ≠ 0 := fun none => empty (count.symm.trans none)
    rw [if_neg empty, if_neg some, ← ringsTrimLocked_one empty, count]
    refine ⟨?_, holds.trim _⟩
    rw [holds.cells, holds.read, Nat.mod_eq_of_lt holds.inside]

/-- A ring and a plain queue have popped the same frames, and contain the same ones. -/
def Agree (s : List (α × α) × AudioRing α) (q : List (α × α) × List (α × α)) : Prop :=
  s.1 = q.1 ∧ ∃ buffer : CircularBuffer (α × α) ringFrames, s.2.Holds buffer ∧ buffer.contents = q.2

variable {s : List (α × α) × AudioRing α} {q : List (α × α) × List (α × α)}

theorem Agree.next (agree : Agree s q) (op : RingOp α) :
    Agree (AudioRing.next s op) (nextQueue q op) := by
  obtain ⟨popped, buffer, holds, contents⟩ := agree
  have length : q.2.length = buffer.count := by rw [← contents, buffer.length_contents]
  cases op with
  | push left right =>
    refine ⟨popped, _, holds.push left right, ?_⟩
    have bounded := buffer.bounded
    rw [buffer.contents_push _ (by decide), contents, nextQueue]
    split
    · rw [show buffer.count + 1 - ringFrames = 0 by omega, List.drop_zero]
    · rw [show buffer.count + 1 - ringFrames = 1 by omega, List.drop_one]
  | pop =>
    obtain ⟨frame, rest⟩ := holds.pop
    refine ⟨?_, _, rest, ?_⟩
    · show s.1 ++ s.2.ringPopStereo.1.toList = q.1 ++ q.2.head?.toList
      rw [popped, frame, buffer.fst_pop, contents]
    · rw [buffer.contents_pop, contents]
      rfl
  | trim maxFrames =>
    refine ⟨popped, _, holds.trim maxFrames, ?_⟩
    rw [buffer.contents_trim, contents, ← length]
    rfl

/-- A ring in memory works as a queue that drops its oldest frames. -/
theorem ring_queue (memory : Nat → α) (ops : List (RingOp α)) :
    let s := ops.foldl AudioRing.next ([], { ring := memory })
    let q := ops.foldl nextQueue ([], [])
    s.1 = q.1 ∧ s.2.frames = q.2.length ∧ s.2.frames ≤ ringFrames ∧
      (s.2.readFrame + s.2.frames) % ringFrames = s.2.writeFrame := by
  have run : ∀ (ops : List (RingOp α)) s q, Agree s q →
      Agree (ops.foldl AudioRing.next s) (ops.foldl nextQueue q) := by
    intro ops
    induction ops with
    | nil => exact fun _ _ => id
    | cons op ops ih => exact fun s q agree => ih _ _ (agree.next op)
  have begun : Agree ([], { ring := memory }) (([], []) : List (α × α) × List (α × α)) :=
    ⟨rfl, ⟨fun i => (memory (i * 2), memory (i * 2 + 1)), 0, 0, 0, Nat.zero_le _, rfl⟩,
      ⟨fun _ => rfl, rfl, rfl, rfl, show 0 < ringFrames by decide⟩, rfl⟩
  obtain ⟨popped, buffer, holds, contents⟩ := run ops _ _ begun
  have bounded := buffer.bounded
  have spaced := buffer.spaced
  refine ⟨popped, ?_, ?_, ?_⟩
  · rw [← contents, buffer.length_contents, holds.count]
  · rw [← holds.count]
    exact bounded
  · rw [← holds.read, ← holds.count, ← spaced, holds.write]

end AudioRing

end Xios
