import Mathlib.Data.Nat.ModEq
import Mathlib.Logic.Function.Basic

/-! Circular buffers that drop their oldest entries, and the queues they stand for. -/

/-- Cells that are used in turn, with the places of the oldest entry and the next one. -/
structure CircularBuffer (α : Type*) (capacity : Nat) where
  -- The cells, of which those before the capacity are used.
  cells : Nat → α
  -- Position of the oldest entry, and the position after the newest.
  read : Nat
  write : Nat
  -- Number of entries.
  count : Nat
  -- Entries fit, and the positions are as far apart as there are entries.
  bounded : count ≤ capacity
  spaced : write = (read + count) % capacity

namespace CircularBuffer

variable {α : Type*} {capacity : Nat}

def empty (fill : α) : CircularBuffer α capacity where
  cells _ := fill
  read := 0
  write := 0
  count := 0
  bounded := Nat.zero_le capacity
  spaced := (Nat.zero_mod capacity).symm

def contents (ring : CircularBuffer α capacity) : List α :=
  (List.range ring.count).map fun i => ring.cells ((ring.read + i) % capacity)

/-- Drop the oldest entries so that at most some number remain. -/
def trim (ring : CircularBuffer α capacity) (most : Nat) : CircularBuffer α capacity :=
  if more : most < ring.count then
    { ring with
      read := (ring.read + (ring.count - most)) % capacity
      count := most
      bounded := by
        have := ring.bounded
        omega
      spaced := by
        rw [ring.spaced, Nat.mod_add_mod]
        congr 1
        omega }
  else ring

def append (ring : CircularBuffer α capacity) (a : α) (room : ring.count < capacity) :
    CircularBuffer α capacity where
  cells := Function.update ring.cells ring.write a
  read := ring.read
  write := (ring.write + 1) % capacity
  count := ring.count + 1
  bounded := room
  spaced := by
    rw [ring.spaced, Nat.mod_add_mod]
    rfl

/-- Add an entry, at the cost of the oldest one if the buffer is full. -/
def push (ring : CircularBuffer α capacity) (a : α) : CircularBuffer α capacity :=
  if room : ring.count < capacity then ring.append a room
  else if nonempty : 0 < capacity then
    (ring.trim (ring.count - 1)).append a (by
      have := ring.bounded
      unfold trim
      split
      · simp only
        omega
      · omega)
  else ring

def pop (ring : CircularBuffer α capacity) : Option α × CircularBuffer α capacity :=
  if ring.count = 0 then (none, ring)
  else (some (ring.cells (ring.read % capacity)), ring.trim (ring.count - 1))

@[simp]
theorem length_contents (ring : CircularBuffer α capacity) : ring.contents.length = ring.count := by
  simp [contents]

theorem count_trim (ring : CircularBuffer α capacity) (most : Nat) :
    (ring.trim most).count = min most ring.count := by
  unfold trim
  split
  · rename_i more
    exact (Nat.min_eq_left (Nat.le_of_lt more)).symm
  · rename_i fewer
    exact (Nat.min_eq_right (Nat.le_of_not_lt fewer)).symm

theorem contents_trim (ring : CircularBuffer α capacity) (most : Nat) :
    (ring.trim most).contents = ring.contents.drop (ring.count - most) := by
  unfold trim
  split
  · rename_i more
    refine List.ext_getElem ?_ fun i here there => ?_
    · simp
      omega
    · simp only [contents, List.getElem_map, List.getElem_range, List.getElem_drop,
        Nat.mod_add_mod, Nat.add_assoc]
  · rename_i fewer
    rw [show ring.count - most = 0 by omega]
    rfl

theorem contents_append (ring : CircularBuffer α capacity) (a : α) (room : ring.count < capacity) :
    (ring.append a room).contents = ring.contents ++ [a] := by
  -- The new cell is none of those in use, since there are fewer than the capacity.
  have apart : ∀ i < ring.count, (ring.read + i) % capacity ≠ ring.write := by
    intro i within same
    rw [ring.spaced] at same
    have equal : i % capacity = ring.count % capacity := Nat.ModEq.add_left_cancel' ring.read same
    rw [Nat.mod_eq_of_lt (by omega), Nat.mod_eq_of_lt room] at equal
    omega
  unfold contents append
  simp only [List.range_succ, List.map_append, List.map_cons, List.map_nil]
  congr 1
  · refine List.map_congr_left fun i member => ?_
    exact Function.update_of_ne (apart i (List.mem_range.mp member)) _ _
  · rw [← ring.spaced, Function.update_self]

theorem contents_push (ring : CircularBuffer α capacity) (a : α) (positive : 0 < capacity) :
    (ring.push a).contents = ring.contents.drop (ring.count + 1 - capacity) ++ [a] := by
  have := ring.bounded
  unfold push
  split
  · rename_i room
    rw [contents_append, show ring.count + 1 - capacity = 0 by omega]
    rfl
  · rename_i full
    rw [contents_append, contents_trim]
    congr 2
    omega

theorem fst_pop (ring : CircularBuffer α capacity) : ring.pop.1 = ring.contents.head? := by
  unfold pop contents
  cases ring.count with
  | zero => rfl
  | succ n =>
    rw [if_neg (Nat.succ_ne_zero n), List.range_succ_eq_map]
    rfl

theorem contents_pop (ring : CircularBuffer α capacity) :
    ring.pop.2.contents = ring.contents.tail := by
  unfold pop
  split
  · rename_i none
    have nothing : ring.contents = [] := List.length_eq_zero_iff.mp (by simp [none])
    simp [nothing]
  · rename_i some
    simp only [contents_trim]
    rw [show ring.count - (ring.count - 1) = 1 by omega, List.drop_one]

variable {ring : CircularBuffer α capacity} {holds : α → Prop}

theorem forall_push {a : α} (before : ∀ b ∈ ring.contents, holds b) (new : holds a) :
    ∀ b ∈ (ring.push a).contents, holds b := by
  intro b member
  by_cases positive : 0 < capacity
  · rw [contents_push ring a positive, List.mem_append, List.mem_singleton] at member
    cases member with
    | inl old => exact before b (List.mem_of_mem_drop old)
    | inr same => rwa [same]
  · have unchanged : ring.push a = ring := by
      have := ring.bounded
      unfold push
      rw [dif_neg (by omega), dif_neg positive]
    rw [unchanged] at member
    exact before b member

theorem forall_trim (before : ∀ b ∈ ring.contents, holds b) (most : Nat) :
    ∀ b ∈ (ring.trim most).contents, holds b := by
  intro b member
  rw [contents_trim] at member
  exact before b (List.mem_of_mem_drop member)

theorem forall_pop (before : ∀ b ∈ ring.contents, holds b) :
    ∀ b ∈ ring.pop.2.contents, holds b := by
  intro b member
  rw [ring.contents_pop] at member
  exact before b (List.mem_of_mem_tail member)

end CircularBuffer
