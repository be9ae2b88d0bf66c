import Mathlib.Data.List.Nodup
import Mathlib.Logic.Function.Basic
import Mathlib.Order.Bounds.Basic

/-! Values that are raised along the edges of a graph, in sweeps that go over it in one order. -/

namespace Sweep

variable {κ α : Type*} [LinearOrder α]

def highest (f : κ → α) (nodes : List κ) (value : α) : α :=
  nodes.foldl (fun c t => max c (f t)) value

theorem isGreatest_highest {f : κ → α} (nodes : List κ) (value : α) :
    IsGreatest {x | x = value ∨ ∃ t ∈ nodes, x = f t} (highest f nodes value) := by
  -- The fold starts from the highest value of what it has seen.
  induction nodes generalizing value with
  | nil => simp [highest, IsGreatest, upperBounds]
  | cons t nodes ih =>
    have rest := ih (max value (f t))
    unfold highest at rest ⊢
    rw [List.foldl_cons]
    constructor
    · rcases rest.1 with top | ⟨s, member, top⟩
      · rw [top]
        rcases le_total value (f t) with less | less
        · rw [max_eq_right less]
          exact Or.inr ⟨t, List.mem_cons_self, rfl⟩
        · rw [max_eq_left less]
          exact Or.inl rfl
      · exact Or.inr ⟨s, List.mem_cons_of_mem _ member, top⟩
    · rintro x (rfl | ⟨s, member, rfl⟩)
      · exact (le_max_left _ _).trans (rest.2 (Or.inl rfl))
      · rcases List.mem_cons.mp member with rfl | later
        · exact (le_max_right _ _).trans (rest.2 (Or.inl rfl))
        · exact rest.2 (Or.inr ⟨s, later, rfl⟩)

variable [DecidableEq κ]

def raise (edges : κ → List κ) (f : κ → α) (p : κ) : κ → α :=
  Function.update f p (highest f (edges p) (f p))

def sweep (edges : κ → List κ) (order : List κ) (f : κ → α) : κ → α :=
  order.foldl (raise edges) f

/--
A number of sweeps bring the value of a node to another one.

A sweep brings it along an edge from where the sweep before left it, or from an earlier node to
which the same sweep brought it.
-/
inductive Swept (edges : κ → List κ) (order : List κ) : Nat → κ → κ → Prop
  | own {k : Nat} {p : κ} : Swept edges order k p p
  | before {k : Nat} {p t q : κ} (edge : t ∈ edges p) (more : Swept edges order k t q) :
    Swept edges order (k + 1) p q
  | same {k : Nat} {p t q : κ} (edge : t ∈ edges p) (earlier : order.idxOf t < order.idxOf p)
    (more : Swept edges order (k + 1) t q) : Swept edges order (k + 1) p q

variable {edges : κ → List κ} {order : List κ} {f own : κ → α}

theorem sweep_of_notMem {p : κ} (absent : p ∉ order) : sweep edges order f p = f p := by
  induction order generalizing f with
  | nil => rfl
  | cons s order ih =>
    rw [List.mem_cons, not_or] at absent
    have rest := ih (f := raise edges f s) absent.2
    unfold sweep at rest ⊢
    rw [List.foldl_cons, rest]
    exact Function.update_of_ne absent.1 _ _

theorem sweep_append (first second : List κ) :
    sweep edges (first ++ second) f = sweep edges second (sweep edges first f) :=
  List.foldl_append

/-- A sweep sees new values of earlier nodes and old values of later ones. -/
theorem sweep_eq (distinct : order.Nodup) {p : κ} (member : p ∈ order) :
    sweep edges order f p =
      highest (fun t => if order.idxOf t < order.idxOf p then sweep edges order f t else f t)
        (edges p) (f p) := by
  obtain ⟨first, second, rfl⟩ := List.append_of_mem member
  have apart := List.nodup_append.mp distinct
  have late : p ∉ second := (List.nodup_cons.mp apart.2.1).1
  have early : p ∉ first := by
    intro inside
    exact apart.2.2 p inside p List.mem_cons_self rfl
  -- The place of the node is where the first part ends.
  have place : (first ++ p :: second).idxOf p = first.length := by
    rw [List.idxOf_append_of_notMem early, List.idxOf_cons_self, Nat.add_zero]
  have seen : ∀ t, sweep edges first f t =
      if (first ++ p :: second).idxOf t < (first ++ p :: second).idxOf p
      then sweep edges (first ++ p :: second) f t else f t := by
    intro t
    rw [place]
    by_cases inside : t ∈ first
    · -- An earlier node is not touched again.
      have once : t ∉ p :: second := by
        intro again
        exact apart.2.2 t inside t again rfl
      rw [if_pos (by
        rw [List.idxOf_append_of_mem inside]
        exact List.idxOf_lt_length_of_mem inside), sweep_append, sweep_of_notMem once]
    · rw [if_neg (by
        rw [List.idxOf_append_of_notMem inside]
        omega), sweep_of_notMem inside]
  rw [← funext seen, sweep_append]
  change sweep edges second (raise edges (sweep edges first f) p) p = _
  rw [sweep_of_notMem late]
  unfold raise
  rw [Function.update_self, sweep_of_notMem early]

theorem Swept.succ {k : Nat} {p q : κ} (swept : Swept edges order k p q) :
    Swept edges order (k + 1) p q := by
  induction swept with
  | own => exact .own
  | before edge _ ih => exact .before edge ih
  | same edge earlier _ ih => exact .same edge earlier ih

/-- Each value is the highest of those that the sweeps so far have brought. -/
def Holds (edges : κ → List κ) (order : List κ) (own : κ → α) (k : Nat) (f : κ → α) : Prop :=
  ∀ p ∈ order, IsGreatest {x | ∃ q, Swept edges order k p q ∧ own q = x} (f p)

theorem Holds.zero : Holds edges order own 0 own := by
  intro p _
  constructor
  · exact ⟨p, .own, rfl⟩
  · rintro x ⟨q, swept, rfl⟩
    cases swept
    exact le_rfl

/-- One sweep more brings all that one more sweep can bring. -/
theorem Holds.sweep (distinct : order.Nodup) (closed : ∀ p ∈ order, ∀ t ∈ edges p, t ∈ order)
    {k : Nat} (holds : Holds edges order own k f) :
    Holds edges order own (k + 1) (sweep edges order f) := by
  intro p member
  -- The induction is on the place of the node, for what the sweep did to the earlier ones.
  induction place : order.idxOf p using Nat.strong_induction_on generalizing p with
  | _ n ih =>
    subst place
    have top := isGreatest_highest
      (f := fun t => if order.idxOf t < order.idxOf p then Sweep.sweep edges order f t else f t)
      (edges p) (f p)
    rw [← sweep_eq distinct member] at top
    have keeps : f p ≤ Sweep.sweep edges order f p := top.2 (Or.inl rfl)
    constructor
    · -- The new value is the old one, or it came along an edge.
      rcases top.1 with old | ⟨t, edge, came⟩
      · obtain ⟨q, swept, same⟩ := (holds p member).1
        exact ⟨q, swept.succ, same.trans old.symm⟩
      · rw [came]
        have inside := closed p member t edge
        split
        · rename_i earlier
          obtain ⟨q, swept, same⟩ := (ih _ earlier t inside rfl).1
          exact ⟨q, .same edge earlier swept, same⟩
        · obtain ⟨q, swept, same⟩ := (holds t inside).1
          exact ⟨q, .before edge swept, same⟩
    · rintro x ⟨q, swept, rfl⟩
      cases swept with
      | own => exact ((holds p member).2 ⟨p, .own, rfl⟩).trans keeps
      | @before _ _ t _ edge more =>
        have inside := closed p member t edge
        have brought : own q ≤ f t := (holds t inside).2 ⟨q, more, rfl⟩
        have along := top.2 (Or.inr ⟨t, edge, rfl⟩)
        split at along
        · rename_i earlier
          exact ((ih _ earlier t inside rfl).2 ⟨q, more.succ, rfl⟩).trans along
        · exact brought.trans along
      | @same _ _ t _ edge earlier more =>
        have along := top.2 (Or.inr ⟨t, edge, rfl⟩)
        rw [if_pos earlier] at along
        exact ((ih _ earlier t (closed p member t edge) rfl).2 ⟨q, more, rfl⟩).trans along

theorem Holds.iterate (distinct : order.Nodup) (closed : ∀ p ∈ order, ∀ t ∈ edges p, t ∈ order)
    (k : Nat) : Holds edges order own k ((Sweep.sweep edges order)^[k] own) := by
  induction k with
  | zero => exact Holds.zero
  | succ k ih =>
    rw [Function.iterate_succ_apply']
    exact ih.sweep distinct closed

end Sweep
