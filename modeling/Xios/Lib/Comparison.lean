import Mathlib.Data.Int.Order.Basic
import Mathlib.Data.List.Sort

/-! Comparisons that answer with a number, and lists compared as if they went on for ever. -/

namespace Comparison

variable {α β : Type*}

def sign : Ordering → Int
  | .lt => -1
  | .eq => 0
  | .gt => 1

theorem sign_swap (outcome : Ordering) : sign outcome.swap = -sign outcome := by
  cases outcome <;> rfl

@[simp]
theorem sign_sign (outcome : Ordering) : (sign outcome).sign = sign outcome := by
  cases outcome <;> rfl

theorem sign_nonpos (outcome : Ordering) : sign outcome ≤ 0 ↔ outcome.isLE = true := by
  cases outcome <;> decide

theorem sign_eq_zero {outcome : Ordering} : sign outcome = 0 ↔ outcome = .eq := by
  cases outcome <;> decide

/-- The sign of a comparison by which everything can be sorted. -/
structure IsPreorder (compare : α → α → Int) : Prop where
  -- Everything is equal to itself.
  refl : ∀ a, compare a a = 0
  -- Exchanging what is compared exchanges the outcome.
  antisymm : ∀ a b, (compare a b).sign = -(compare b a).sign
  -- What is at most something is at most what that is at most.
  trans : ∀ a b c, compare a b ≤ 0 → compare b c ≤ 0 → compare a c ≤ 0

variable {compare : α → α → Int}

theorem IsPreorder.of_sign {cmp : α → α → Ordering} [Std.TransCmp cmp]
    (same : ∀ a b, (compare a b).sign = sign (cmp a b)) : IsPreorder compare := by
  have atMost : ∀ a b, compare a b ≤ 0 ↔ (cmp a b).isLE = true := by
    intro a b
    rw [← sign_nonpos, ← same]
    exact Int.sign_nonpos_iff.symm
  refine ⟨fun a => ?_, fun a b => ?_, fun a b c first second => ?_⟩
  · have itself : (compare a a).sign = 0 := by
      have equal : cmp a a = .eq := Std.ReflCmp.compare_self
      rw [same, equal]
      rfl
    exact Int.sign_eq_zero_iff_zero.mp itself
  · have swapped : cmp a b = (cmp b a).swap := Std.OrientedCmp.eq_swap
    rw [same, same, swapped, sign_swap]
  · rw [atMost] at first second ⊢
    exact Std.TransCmp.isLE_trans first second

theorem IsPreorder.pos_iff (preorder : IsPreorder compare) (a b : α) :
    0 < compare a b ↔ compare b a < 0 := by
  rw [← Int.sign_pos_iff, ← Int.sign_neg_iff, preorder.antisymm a b]
  exact Int.neg_pos

theorem IsPreorder.eq_zero_iff (preorder : IsPreorder compare) (a b : α) :
    compare a b = 0 ↔ compare b a = 0 := by
  rw [← Int.sign_eq_zero_iff_zero, preorder.antisymm a b, Int.neg_eq_zero,
    Int.sign_eq_zero_iff_zero]

def outcome (compare : α → α → Int) (a b : α) : Ordering :=
  if compare a b < 0 then .lt else if compare a b = 0 then .eq else .gt

theorem sign_outcome (compare : α → α → Int) (a b : α) :
    (compare a b).sign = sign (outcome compare a b) := by
  unfold outcome
  obtain less | same | greater := Int.lt_trichotomy (compare a b) 0
  · rw [Int.sign_eq_neg_one_of_neg less, if_pos less]
    rfl
  · rw [same]
    rfl
  · rw [Int.sign_eq_one_of_pos greater, if_neg (by omega), if_neg (by omega)]
    rfl

theorem IsPreorder.transCmp (preorder : IsPreorder compare) : Std.TransCmp (outcome compare) where
  eq_swap {a b} := by
    have opposite := preorder.antisymm a b
    rw [sign_outcome, sign_outcome, ← sign_swap] at opposite
    cases first : outcome compare a b <;> cases second : outcome compare b a <;>
      simp_all [sign]
  isLE_trans {a b c} first second := by
    rw [← sign_nonpos, ← sign_outcome, Int.sign_nonpos_iff] at first second ⊢
    exact preorder.trans a b c first second

theorem transCmp_comap (cmp : β → β → Ordering) [Std.TransCmp cmp] (key : α → β) :
    Std.TransCmp fun a b => cmp (key a) (key b) where
  eq_swap := Std.OrientedCmp.eq_swap
  isLE_trans := Std.TransCmp.isLE_trans

/-- Compare lists from the front, with a filler after the end of the shorter one. -/
def padded (cmp : α → α → Ordering) (filler : α) : List α → List α → Ordering
  | [], [] => .eq
  | a :: as, [] => (cmp a filler).then (padded cmp filler as [])
  | [], b :: bs => (cmp filler b).then (padded cmp filler [] bs)
  | a :: as, b :: bs => (cmp a b).then (padded cmp filler as bs)

theorem padded_eq (cmp : α → α → Ordering) [Std.ReflCmp cmp] (filler : α) (as bs : List α) :
    padded cmp filler as bs =
      (cmp (as.headD filler) (bs.headD filler)).then (padded cmp filler as.tail bs.tail) := by
  cases as with
  | nil =>
    cases bs with
    | nil => simp [padded, Std.ReflCmp.compare_self]
    | cons b bs => simp [padded]
  | cons a as =>
    cases bs with
    | nil => simp [padded]
    | cons b bs => simp [padded]

theorem padded_swap (cmp : α → α → Ordering) [Std.OrientedCmp cmp] (filler : α) (as bs : List α) :
    padded cmp filler as bs = (padded cmp filler bs as).swap := by
  have swapped : ∀ a b, cmp a b = (cmp b a).swap := fun _ _ => Std.OrientedCmp.eq_swap
  fun_induction padded cmp filler as bs with
  | case1 => simp [padded]
  | case2 a as ih => rw [padded, Ordering.swap_then, ← swapped, ih]
  | case3 b bs ih => rw [padded, Ordering.swap_then, ← swapped, ih]
  | case4 a as b bs ih => rw [padded, Ordering.swap_then, ← swapped, ih]

theorem isLE_then_trans {cmp : α → α → Ordering} [Std.TransCmp cmp] {a b c : α}
    {ab bc ac : Ordering} (first : ((cmp a b).then ab).isLE = true)
    (second : ((cmp b c).then bc).isLE = true)
    (rest : ab.isLE = true → bc.isLE = true → ac.isLE = true) :
    ((cmp a c).then ac).isLE = true := by
  rw [Ordering.isLE_then_iff_or] at first second ⊢
  obtain less | ⟨same, further⟩ := first
  · have atMost : (cmp b c).isLE = true := by
      obtain less' | ⟨same', -⟩ := second
      · rw [less']
        rfl
      · rw [same']
        rfl
    exact Or.inl (Std.TransCmp.lt_of_lt_of_isLE less atMost)
  · obtain less' | ⟨same', further'⟩ := second
    · exact Or.inl (Std.TransCmp.lt_of_eq_of_lt same less')
    · exact Or.inr ⟨Std.TransCmp.eq_trans same same', rest further further'⟩

theorem transCmp_padded (cmp : α → α → Ordering) [Std.TransCmp cmp] (filler : α) :
    Std.TransCmp (padded cmp filler) where
  eq_swap := padded_swap cmp filler _ _
  isLE_trans {as bs cs} := by
    -- The induction is on a bound for the lengths of all three lists.
    have bounded : ∀ (n : Nat) (as bs cs : List α), as.length ≤ n → bs.length ≤ n →
        cs.length ≤ n → (padded cmp filler as bs).isLE = true →
        (padded cmp filler bs cs).isLE = true → (padded cmp filler as cs).isLE = true := by
      intro n
      induction n with
      | zero =>
        intro as bs cs short _ short' _ _
        rw [List.length_eq_zero_iff.mp (Nat.le_zero.mp short),
          List.length_eq_zero_iff.mp (Nat.le_zero.mp short'), padded]
        rfl
      | succ n ih =>
        intro as bs cs shortA shortB shortC first second
        rw [padded_eq] at first second ⊢
        refine isLE_then_trans first second (ih _ _ _ ?_ ?_ ?_)
        · rw [List.length_tail]
          omega
        · rw [List.length_tail]
          omega
        · rw [List.length_tail]
          omega
    exact bounded (max as.length (max bs.length cs.length)) as bs cs (by omega) (by omega)
      (by omega)

theorem pairwise_insertionSort_of_pairwise {α : Type*} {r s : α → α → Prop} [DecidableRel r]
    (total : ∀ a b, r a b ∨ r b a) (trans : ∀ a b c, r a b → r b c → r a c) {l : List α}
    (sorted : l.Pairwise s) :
    (l.insertionSort r).Pairwise fun a b => r a b ∧ (r b a → s a b) := by
  induction l with
  | nil => exact List.Pairwise.nil
  | cons a l ih =>
    rw [List.pairwise_cons] at sorted
    rw [List.insertionSort_cons]
    have before : ∀ b ∈ l.insertionSort r, s a b := fun b member =>
      sorted.1 b ((List.mem_insertionSort r).mp member)
    have rest := ih sorted.2
    generalize l.insertionSort r = t at before rest
    induction t with
    | nil => simp
    | cons b t further =>
      rw [List.forall_mem_cons] at before
      rw [List.pairwise_cons] at rest
      unfold List.orderedInsert
      split
      · rename_i first
        rw [List.pairwise_cons, List.forall_mem_cons]
        refine ⟨⟨⟨first, fun _ => before.1⟩, fun c member => ?_⟩, List.pairwise_cons.mpr rest⟩
        exact ⟨trans _ _ _ first (rest.1 c member).1, fun _ => before.2 c member⟩
      · rename_i later
        rw [List.pairwise_cons]
        refine ⟨fun c member => ?_, further before.2 rest.2⟩
        rcases (List.mem_orderedInsert r).mp member with rfl | inside
        · exact ⟨(total _ _).resolve_left later, fun again => absurd again later⟩
        · exact rest.1 c inside

end Comparison
