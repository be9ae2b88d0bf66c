import Mathlib.Data.List.Basic
import Mathlib.Logic.Relation

/-! What is reached from a node of a finite graph, found by a loop over a stack of nodes. -/

/-- A graph, given by the nodes after each node, in which finitely many nodes have any. -/
structure FiniteGraph (α : Type*) where
  -- All nodes that are not the last ones of their paths.
  inner : List α
  after : α → List α
  -- No other node has any after it.
  outer : ∀ a ∉ inner, after a = []

namespace FiniteGraph

variable {α : Type*} (g : FiniteGraph α)

/-- There is a path from one node to another one. -/
def Reaches : α → α → Prop :=
  Relation.ReflTransGen fun a b => b ∈ g.after a

def stacked (a : α) : List α :=
  (g.after a).reverse

variable [DecidableEq α]

def unseen (seen : List α) : Nat :=
  g.inner.countP (· ∉ seen)

variable {g} {seen todo : List α} {a b : α}

theorem unseen_cons_lt (inner : a ∈ g.inner) (fresh : a ∉ seen) :
    g.unseen (a :: seen) < g.unseen seen := by
  unfold unseen
  generalize g.inner = nodes at inner
  induction nodes with
  | nil => cases inner
  | cons n nodes ih =>
    have tail : nodes.countP (· ∉ a :: seen) ≤ nodes.countP (· ∉ seen) := by
      refine List.countP_mono_left fun n _ => ?_
      simp only [decide_eq_true_eq, List.mem_cons, not_or]
      exact And.right
    rw [List.countP_cons, List.countP_cons]
    obtain rfl | later := List.mem_cons.mp inner
    · simpa [fresh] using Nat.lt_succ_of_le tail
    · have less := ih later
      by_cases known : n ∈ a :: seen
      · simp only [known, not_true_eq_false, decide_false, Bool.false_eq_true, if_false]
        omega
      · have before : n ∉ seen := fun there => known (List.mem_cons_of_mem a there)
        simp only [known, before, not_false_eq_true, decide_true, if_true]
        omega

theorem unseen_cons_le (a : α) (seen : List α) : g.unseen (a :: seen) ≤ g.unseen seen := by
  refine List.countP_mono_left fun n _ => ?_
  simp only [decide_eq_true_eq, List.mem_cons, not_or]
  exact And.right

variable (g) in
/-- The loop, which takes the node that was put on the stack last. -/
def visit (seen : List α) : List α → List α
  | [] => seen
  | a :: todo =>
    if a ∈ seen then visit seen todo else visit (a :: seen) (g.stacked a ++ todo)
termination_by todo => (g.unseen seen, todo.length)
decreasing_by
  · exact .right _ (Nat.lt_succ_self _)
  · rename_i fresh
    by_cases inner : a ∈ g.inner
    · exact .left _ _ (unseen_cons_lt inner fresh)
    · -- An outer node puts nothing on the stack.
      rw [stacked, g.outer a inner]
      obtain less | same := Nat.lt_or_eq_of_le (unseen_cons_le (g := g) a seen)
      · exact .left _ _ less
      · rw [same]
        exact .right _ (Nat.lt_succ_self _)

theorem mem_visit_of_mem (member : b ∈ seen ∨ b ∈ todo) : b ∈ g.visit seen todo := by
  fun_induction visit g seen todo with
  | case1 seen => exact member.resolve_right List.not_mem_nil
  | case2 seen a todo known ih =>
    refine ih (member.elim .inl fun there => ?_)
    obtain rfl | later := List.mem_cons.mp there
    · exact .inl known
    · exact .inr later
  | case3 seen a todo fresh ih =>
    refine ih ?_
    obtain earlier | there := member
    · exact .inl (List.mem_cons_of_mem a earlier)
    · obtain rfl | later := List.mem_cons.mp there
      · exact .inl List.mem_cons_self
      · exact .inr (List.mem_append_right _ later)

theorem reaches_of_mem_visit (member : b ∈ g.visit seen todo) :
    b ∈ seen ∨ ∃ a ∈ todo, g.Reaches a b := by
  fun_induction visit g seen todo with
  | case1 seen => exact .inl member
  | case2 seen a todo known ih =>
    exact (ih member).imp_right fun ⟨c, later, path⟩ => ⟨c, List.mem_cons_of_mem a later, path⟩
  | case3 seen a todo fresh ih =>
    obtain here | ⟨c, later, path⟩ := ih member
    · obtain rfl | earlier := List.mem_cons.mp here
      · exact .inr ⟨b, List.mem_cons_self, .refl⟩
      · exact .inl earlier
    · obtain next | rest := List.mem_append.mp later
      · exact .inr ⟨a, List.mem_cons_self, .head (List.mem_reverse.mp next) path⟩
      · exact .inr ⟨c, List.mem_cons_of_mem a rest, path⟩

/-- What has been seen leads to what has been seen or will be. -/
def Closed (g : FiniteGraph α) (seen todo : List α) : Prop :=
  ∀ a ∈ seen, ∀ b ∈ g.after a, b ∈ seen ∨ b ∈ todo

theorem closed_visit (closed : g.Closed seen todo) : g.Closed (g.visit seen todo) [] := by
  fun_induction visit g seen todo with
  | case1 seen => exact closed
  | case2 seen a todo known ih =>
    refine ih fun c earlier b next => (closed c earlier b next).elim .inl fun there => ?_
    obtain rfl | later := List.mem_cons.mp there
    · exact .inl known
    · exact .inr later
  | case3 seen a todo fresh ih =>
    refine ih fun c here b next => ?_
    obtain rfl | earlier := List.mem_cons.mp here
    · exact .inr (List.mem_append_left _ (List.mem_reverse.mpr next))
    · obtain before | there := closed c earlier b next
      · exact .inl (List.mem_cons_of_mem a before)
      · obtain rfl | later := List.mem_cons.mp there
        · exact .inl List.mem_cons_self
        · exact .inr (List.mem_append_right _ later)

variable (g) in
def closure (a : α) : List α :=
  g.visit [] [a]

theorem mem_closure : b ∈ g.closure a ↔ g.Reaches a b := by
  constructor
  · intro member
    obtain none | ⟨c, here, path⟩ := reaches_of_mem_visit member
    · cases none
    · obtain rfl := List.mem_singleton.mp here
      exact path
  · intro path
    have closed : g.Closed (g.closure a) [] := closed_visit fun c none => by cases none
    -- The induction follows the path, whose nodes are all found.
    induction path with
    | refl => exact mem_visit_of_mem (.inr List.mem_cons_self)
    | tail _ next ih => exact (closed _ ih _ next).resolve_right List.not_mem_nil

end FiniteGraph
