import Mathlib.Dynamics.PeriodicPts.Defs

/-! Cycles of pointers: changing one pointer closes a cycle only if its target led back to it. -/

namespace Cycle

open Function

variable {α : Type*}

variable {f : α → α} {n : Nat}

theorem iterate_congr {g : α → α} {x : α} (agree : ∀ k < n, f (g^[k] x) = g (g^[k] x)) :
    f^[n] x = g^[n] x := by
  induction n with
  | zero => rfl
  | succ n ih =>
    rw [iterate_succ_apply', iterate_succ_apply', ih fun k before => agree k (by omega)]
    exact agree n (by omega)

variable {a b : α}

theorem isPeriodicPt_update [DecidableEq α] {x : α} (positive : 0 < n)
    (cycle : IsPeriodicPt (update f a b) n x) : IsPeriodicPt f n x ∨ ∃ k < n, f^[k] b = a := by
  by_cases avoids : ∀ k < n, (update f a b)^[k] x ≠ a
  · left
    have same : f^[n] x = (update f a b)^[n] x :=
      iterate_congr fun k before => (update_of_ne (avoids k before) b f).symm
    exact same.trans cycle
  · right
    simp only [not_forall, not_not] at avoids
    obtain ⟨k, -, visit⟩ := avoids
    -- The changed place lies on the cycle, which is followed from there until its first return.
    have back := cycle.apply_iterate k
    rw [visit] at back
    have short := back.minimalPeriod_le positive
    obtain ⟨m, period⟩ := Nat.exists_eq_succ_of_ne_zero (back.minimalPeriod_pos positive).ne'
    have returned : (update f a b)^[m] b = a := by
      have once := iterate_minimalPeriod (f := update f a b) (x := a)
      rw [period, iterate_succ_apply, update_self] at once
      exact once
    have away : ∀ j < m, (update f a b)^[j] b ≠ a := by
      intro j before early
      refine not_isPeriodicPt_of_pos_of_lt_minimalPeriod (f := update f a b) (x := a)
        (n := j + 1) (by omega) (by omega) ?_
      rw [IsPeriodicPt, IsFixedPt, iterate_succ_apply, update_self]
      exact early
    refine ⟨m, by omega, ?_⟩
    rw [← returned]
    exact iterate_congr fun j before => (update_of_ne (away j before) b f).symm

theorem exists_isPeriodicPt_update [DecidableEq α] {k : Nat} (back : f^[k] b = a) :
    ∃ n, 0 < n ∧ IsPeriodicPt (update f a b) n a := by
  -- The way back is followed only until it first arrives.
  classical
  have arrives : ∃ j, f^[j] b = a := ⟨k, back⟩
  have same : (update f a b)^[Nat.find arrives] b = f^[Nat.find arrives] b :=
    iterate_congr fun j before => update_of_ne (Nat.find_min arrives before) b f
  refine ⟨Nat.find arrives + 1, by omega, ?_⟩
  rw [IsPeriodicPt, IsFixedPt, iterate_succ_apply, update_self, same]
  exact Nat.find_spec arrives

theorem iterate_ne {j k : Nat} (acyclic : ∀ n, 0 < n → ¬IsPeriodicPt f n a) (before : j < k)
    (here : f^[j] b = a) : f^[k] b ≠ a := by
  intro again
  obtain ⟨n, rfl⟩ := Nat.exists_eq_add_of_lt before
  refine acyclic (n + 1) (by omega) ?_
  rw [show j + n + 1 = n + 1 + j by omega, iterate_add_apply, here] at again
  exact again

theorem isPeriodicPt_of_drop {f g : Option α → Option α} (drop : ∀ o, g o = f o ∨ g o = none)
    (stop : g none = none) (cycle : IsPeriodicPt g n (some a)) : IsPeriodicPt f n (some a) := by
  have ends : ∀ k, g^[k] none = none := by
    intro k
    induction k with
    | zero => rfl
    | succ k ih => rw [iterate_succ_apply, stop, ih]
  have same : f^[n] (some a) = g^[n] (some a) := by
    refine iterate_congr fun k before => ?_
    rcases drop (g^[k] (some a)) with kept | dropped
    · exact kept.symm
    · -- A path that was cut cannot have come back.
      have cut : g^[n] (some a) = none := by
        obtain ⟨j, rfl⟩ := Nat.exists_eq_add_of_le (Nat.succ_le_of_lt before)
        rw [Nat.succ_eq_add_one, Nat.add_comm, iterate_add_apply, iterate_succ_apply', dropped,
          ends]
      rw [cycle.eq] at cut
      cases cut
  exact same.trans cycle

end Cycle
