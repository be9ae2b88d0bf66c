import Mathlib.Logic.Function.Basic
import Mathlib.Data.List.Basic

/-! Memory by address, and the lists that lie in a range of it. -/

/-- A block of memory, with one cell at every address. -/
abbrev Memory (β : Type*) := Nat → β

namespace Memory

variable {β : Type*}

/-- The cells from an address on, lowest address first. -/
def read (m : Memory β) (start : Nat) : Nat → List β
  | 0 => []
  | count + 1 => m start :: read m (start + 1) count

def write (m : Memory β) (start : Nat) : List β → Memory β
  | [] => m
  | cell :: rest => write (Function.update m start cell) (start + 1) rest

def move (m : Memory β) (target source count : Nat) : Memory β :=
  m.write target (m.read source count)

@[simp] theorem length_read (m : Memory β) (start count : Nat) :
    (m.read start count).length = count := by
  induction count generalizing start with
  | zero => rfl
  | succ count ih => simp [read, ih]

theorem read_add (m : Memory β) (start before after : Nat) :
    m.read start (before + after) = m.read start before ++ m.read (start + before) after := by
  induction before generalizing start with
  | zero => simp [read]
  | succ before ih =>
    rw [Nat.succ_add]
    simp only [read, List.cons_append]
    rw [ih (start + 1), Nat.add_right_comm, Nat.add_assoc]

theorem read_drop (m : Memory β) (start count skipped : Nat) (fits : skipped ≤ count) :
    m.read (start + skipped) (count - skipped) = (m.read start count).drop skipped := by
  have split := m.read_add start skipped (count - skipped)
  rw [Nat.add_sub_cancel' fits] at split
  rw [split, List.drop_left' (m.length_read start skipped)]

theorem write_of_lt (m : Memory β) (cells : List β) {target address : Nat}
    (below : address < target) : m.write target cells address = m address := by
  induction cells generalizing m target with
  | nil => rfl
  | cons cell rest ih =>
    rw [write, ih _ (by omega)]
    exact Function.update_of_ne (by omega) _ _

theorem read_write_below (m : Memory β) (cells : List β) {start count target : Nat}
    (below : start + count ≤ target) :
    (m.write target cells).read start count = m.read start count := by
  induction count generalizing start with
  | zero => rfl
  | succ count ih =>
    simp only [read]
    rw [m.write_of_lt cells (by omega), ih (by omega)]

theorem read_write (m : Memory β) (target : Nat) (cells : List β) :
    (m.write target cells).read target cells.length = cells := by
  induction cells generalizing m target with
  | nil => rfl
  | cons cell rest ih =>
    simp only [write, List.length_cons, read]
    rw [ih, write_of_lt _ _ (Nat.lt_succ_self target), Function.update_self]

theorem write_append (m : Memory β) (target : Nat) (first second : List β) :
    m.write target (first ++ second) = (m.write target first).write (target + first.length) second := by
  induction first generalizing m target with
  | nil => rfl
  | cons cell rest ih =>
    simp only [List.cons_append, write, List.length_cons]
    rw [ih, Nat.add_assoc, Nat.add_comm 1]

theorem read_write_append (m : Memory β) (start count : Nat) (cells : List β) :
    (m.write (start + count) cells).read start (count + cells.length) =
      m.read start count ++ cells := by
  rw [read_add, read_write_below _ _ (Nat.le_refl _), read_write]

theorem read_move (m : Memory β) (target source count : Nat) :
    (m.move target source count).read target count = m.read source count := by
  have back := m.read_write target (m.read source count)
  rw [length_read] at back
  exact back

end Memory
