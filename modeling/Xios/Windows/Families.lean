import Mathlib.Data.List.Perm.Subperm
import Xios.Windows.Parents
import Xios.Windows.StackLaws

/-! A surface is raised with the windows that belong to it, but without its popups and
subsurfaces. -/

namespace Xios

open Banded

namespace WindowStack

/-- No surface belongs to itself, through however many others. -/
def Acyclic (st : WindowStack) : Prop :=
  ∀ s n, 0 < n → ¬Function.IsPeriodicPt st.ascend n (some s)

/-- A surface belongs to another one, through any number of others. -/
def Descends (st : WindowStack) (s c : Nat) : Prop :=
  ∃ n, 0 < n ∧ st.ascend^[n] (some c) = some s

/-- A window is shown and belongs to another surface. -/
def Belongs (st : WindowStack) (s c : Nat) : Prop :=
  c ∈ st.mapped ∧ (st.surface c).role = .toplevel ∧ (st.surface c).parent = some s

/-- A surface is reached from another one over a number of mapped windows. -/
def Steps (st : WindowStack) : Nat → Nat → Nat → Prop
  | 0, s, c => c = s
  | n + 1, s, c => ∃ k, st.Belongs s k ∧ st.Steps n k c

/-- A surface that is raised along with another one. -/
def Pulled (st : WindowStack) (s c : Nat) : Prop :=
  ∃ n, st.Steps n s c

/-- Raising a surface keeps its family together and the others in order. -/
structure FamilyKept (st : WindowStack) (s : Nat) : Prop where
  permuted : (st.surfaceRaise s).mapped.Perm st.mapped
  sorted : Sorted st.surfaceBand (st.surfaceRaise s).mapped
  -- It ends above what does not belong to it.
  top : ∀ o ∈ st.mapped, o ≠ s → st.surfaceBand o = st.surfaceBand s → ¬st.Descends s o →
    Before (st.surfaceRaise s).mapped o s
  -- What does not belong to it keeps its order.
  others : ∀ x y, x ≠ s → y ≠ s → ¬st.Descends s x → ¬st.Descends s y →
    (Before (st.surfaceRaise s).mapped x y ↔ Before st.mapped x y)
  -- What belongs to it ends above its parent.
  above : ∀ c q, st.Descends s c → c ∈ st.mapped → (st.surface c).parent = some q →
    q ∈ st.mapped → st.surfaceBand c = st.surfaceBand q → Before (st.surfaceRaise s).mapped q c

/-- No raised surface has a popup or a subsurface in its band, and the descendants that are not
raised are above their parents. -/
structure FamilyReady (st : WindowStack) (s : Nat) : Prop where
  windows : ∀ q c, st.Pulled s q → c ∈ st.mapped → (st.surface c).parent = some q →
    st.surfaceBand c = st.surfaceBand q → (st.surface c).role = .toplevel
  above : ∀ c q, st.Descends s c → ¬st.Pulled s c → c ∈ st.mapped →
    (st.surface c).parent = some q → q ∈ st.mapped → ¬st.Pulled s q →
    st.surfaceBand c = st.surfaceBand q → Before st.mapped q c

def gather (visit : WindowStack → Nat → List Nat) : WindowStack → List Nat → List Nat
  | _, [] => []
  | st, c :: rest => visit st c ++ gather visit ((visit st c).foldl surfaceRaiseOne st) rest

def raisedFamily : Nat → WindowStack → Nat → List Nat
  | 0, _, s => [s]
  | depth + 1, st, s =>
    let raised := st.surfaceRaiseOne s
    s :: gather (raisedFamily depth) raised (raised.children s)

theorem surfaceRaiseChildren_eq (depth : Nat) (st : WindowStack) (s : Nat) :
    surfaceRaiseChildren depth st s = (raisedFamily depth st s).foldl surfaceRaiseOne st := by
  -- The induction is on the depth, and inside it on the children that are left.
  induction depth generalizing st s with
  | zero => rfl
  | succ depth ih =>
    simp only [surfaceRaiseChildren, raisedFamily, List.foldl_cons]
    generalize st.surfaceRaiseOne s = st'
    generalize st'.children s = kids
    induction kids generalizing st' with
    | nil => rfl
    | cons c rest step => rw [List.foldl_cons, step, gather, List.foldl_append, ih]

theorem foldl_surfaceRaiseOne (moved : List Nat) (st : WindowStack) :
    moved.foldl surfaceRaiseOne st =
      { st with mapped := raiseAll st.surfaceBand moved st.mapped } := by
  induction moved generalizing st with
  | nil => rfl
  | cons s rest ih =>
    rw [List.foldl_cons, ih]
    rfl

/-- The same surfaces are mapped in another order. -/
structure Reordered (st st' : WindowStack) : Prop where
  surface : st'.surface = st.surface
  mapped : st'.mapped.Perm st.mapped

variable {st st' : WindowStack}

theorem Reordered.raise (same : st.Reordered st') (moved : List Nat) :
    st.Reordered (moved.foldl surfaceRaiseOne st') := by
  rw [foldl_surfaceRaiseOne]
  exact ⟨same.surface, (raiseAll_perm _ moved _).trans same.mapped⟩

variable {s c : Nat}

theorem Reordered.mem_children (same : st.Reordered st') (acyclic : st.Acyclic)
    (bounded : st.mapped.length ≤ maxSurfaces) : c ∈ st'.children s ↔ st.Belongs s c := by
  have short := (List.length_filter_le (fun c => c ≠ s ∧ (st'.surface c).role = .toplevel ∧
    (st'.surface c).parent = some s) st'.mapped).trans (same.mapped.length_eq.trans_le bounded)
  rw [children, List.take_of_length_le short, List.mem_filter]
  simp only [decide_eq_true_eq, same.surface, same.mapped.mem_iff, Belongs]
  constructor
  · rintro ⟨member, -, window, parent⟩
    exact ⟨member, window, parent⟩
  · rintro ⟨member, window, parent⟩
    refine ⟨member, fun loop => ?_, window, parent⟩
    -- A surface that is its own parent would be a circle.
    exact acyclic s 1 one_pos (show st.ascend (some s) = some s from loop ▸ parent)

variable {n : Nat}

theorem Steps.ascend (steps : st.Steps n s c) : st.ascend^[n] (some c) = some s := by
  induction n generalizing s with
  | zero => exact congrArg some steps
  | succ n ih =>
    obtain ⟨k, belongs, rest⟩ := steps
    rw [Function.iterate_succ_apply', ih rest]
    exact belongs.2.2

variable {q : Nat}

theorem Steps.snoc (steps : st.Steps n s q) (belongs : st.Belongs q c) : st.Steps (n + 1) s c := by
  induction n generalizing s with
  | zero =>
    obtain rfl : q = s := steps
    exact ⟨c, belongs, rfl⟩
  | succ n ih =>
    obtain ⟨k, first, rest⟩ := steps
    exact ⟨k, first, ih rest⟩

theorem Steps.last (steps : st.Steps n s c) : c = s ∨ ∃ q, st.Belongs q c ∧ st.Pulled s q := by
  induction n generalizing s with
  | zero => exact .inl steps
  | succ n ih =>
    obtain ⟨k, belongs, rest⟩ := steps
    rcases ih rest with rfl | ⟨q, last, m, before⟩
    · exact .inr ⟨s, belongs, 0, rfl⟩
    · exact .inr ⟨q, last, m + 1, k, belongs, before⟩

theorem Acyclic.same_length (acyclic : st.Acyclic) {m : Nat}
    (first : st.ascend^[m] (some c) = some s) (second : st.ascend^[n] (some c) = some s) :
    m = n := by
  -- The longer one would go on from the surface and return to it.
  have shorter {m n : Nat} (first : st.ascend^[m] (some c) = some s)
      (second : st.ascend^[n] (some c) = some s) : ¬m < n := by
    intro less
    obtain ⟨k, rfl⟩ := Nat.exists_eq_add_of_lt less
    rw [show m + k + 1 = (k + 1) + m by omega, Function.iterate_add_apply, first] at second
    exact acyclic s (k + 1) k.succ_pos second
  have left := shorter first second
  have right := shorter second first
  omega

theorem Acyclic.not_descends (acyclic : st.Acyclic) (s : Nat) : ¬st.Descends s s := by
  rintro ⟨n, positive, loop⟩
  exact acyclic s n positive loop

theorem Acyclic.sibling (acyclic : st.Acyclic) {k k' m : Nat}
    (first : st.ascend^[m] (some c) = some k) (second : st.ascend^[n] (some c) = some k')
    (parent : (st.surface k).parent = some s) (parent' : (st.surface k').parent = some s) :
    k = k' := by
  have up : st.ascend^[m + 1] (some c) = some s := by
    rw [Function.iterate_succ_apply', first]
    exact parent
  have up' : st.ascend^[n + 1] (some c) = some s := by
    rw [Function.iterate_succ_apply', second]
    exact parent'
  have same := acyclic.same_length up up'
  rw [show m = n by omega, second] at first
  exact (Option.some.inj first).symm

theorem Steps.short (acyclic : st.Acyclic) (start : s ∈ st.mapped) (steps : st.Steps n s c) :
    n < st.mapped.length := by
  -- Every surface on the way up is a mapped one.
  have passed : ∀ {n s : Nat}, s ∈ st.mapped → st.Steps n s c →
      ∀ i ≤ n, ∃ y ∈ st.mapped, st.ascend^[i] (some c) = some y := by
    intro n
    induction n with
    | zero =>
      intro s start steps i small
      obtain rfl : c = s := steps
      obtain rfl : i = 0 := by omega
      exact ⟨c, start, rfl⟩
    | succ n ih =>
      intro s start steps i small
      obtain ⟨k, belongs, rest⟩ := steps
      rcases Nat.le_succ_iff.mp small with before | last
      · exact ih belongs.1 rest i before
      · refine ⟨s, start, ?_⟩
        rw [last, Function.iterate_succ_apply', rest.ascend]
        exact belongs.2.2
  have passed := passed start steps
  let way := (List.range (n + 1)).map fun i => (st.ascend^[i] (some c)).getD 0
  have once : way.Nodup := by
    refine List.Nodup.map_on (fun i first j second same => ?_) List.nodup_range
    obtain ⟨y, -, up⟩ := passed i (by simpa [Nat.lt_succ_iff] using first)
    obtain ⟨z, -, up'⟩ := passed j (by simpa [Nat.lt_succ_iff] using second)
    rw [up, up'] at same
    obtain rfl : y = z := same
    exact acyclic.same_length up up'
  have within : way ⊆ st.mapped := by
    intro y member
    obtain ⟨i, first, rfl⟩ := List.mem_map.mp member
    obtain ⟨y, mapped, up⟩ := passed i (by simpa [Nat.lt_succ_iff] using first)
    rwa [up]
  have fewer := (once.subperm within).length_le
  rw [List.length_map, List.length_range] at fewer
  omega

/-- The surfaces raised for a surface: those within reach, each once and after its parent. -/
structure FamilySpec (st : WindowStack) (depth s : Nat) (family : List Nat) : Prop where
  mem : ∀ c, c ∈ family ↔ ∃ n ≤ depth, st.Steps n s c
  once : family.Nodup
  order : ∀ c ∈ family, c ≠ s → ∃ q, (st.surface c).parent = some q ∧ Before family q c

/-- The same for the children of a surface. -/
structure GatherSpec (st : WindowStack) (depth : Nat) (kids family : List Nat) : Prop where
  mem : ∀ c, c ∈ family ↔ ∃ k ∈ kids, ∃ n ≤ depth, st.Steps n k c
  once : family.Nodup
  order : ∀ c ∈ family, c ∈ kids ∨ ∃ q, (st.surface c).parent = some q ∧ Before family q c

theorem gather_spec (acyclic : st.Acyclic) {depth : Nat} {visit : WindowStack → Nat → List Nat}
    (each : ∀ st', st.Reordered st' → ∀ k, st.FamilySpec depth k (visit st' k)) {kids : List Nat}
    (once : kids.Nodup) (parents : ∀ k ∈ kids, (st.surface k).parent = some s)
    (same : st.Reordered st') : st.GatherSpec depth kids (gather visit st' kids) := by
  induction kids generalizing st' with
  | nil => exact ⟨by simp [gather], List.nodup_nil, by simp [gather]⟩
  | cons k rest ih =>
    obtain ⟨fresh, once⟩ := List.nodup_cons.mp once
    have first := each st' same k
    have later := ih once (fun k' member => parents k' (List.mem_cons_of_mem k member))
      (same.raise (visit st' k))
    rw [gather]
    refine ⟨fun c => ?_, List.nodup_append'.mpr ⟨first.once, later.once, ?_⟩, fun c member => ?_⟩
    · rw [List.mem_append, first.mem, later.mem]
      simp
    · -- Families of two children that shared a surface would be those of one child.
      intro c here there
      obtain ⟨m, -, up⟩ := (first.mem c).mp here
      obtain ⟨k', member, n, -, up'⟩ := (later.mem c).mp there
      have equal := acyclic.sibling up.ascend up'.ascend (parents k List.mem_cons_self)
        (parents k' (List.mem_cons_of_mem k member))
      exact fresh (equal ▸ member)
    · rcases List.mem_append.mp member with here | there
      · by_cases child : c = k
        · exact .inl (child ▸ List.mem_cons_self)
        · obtain ⟨q, parent, ordered⟩ := first.order c here child
          exact .inr ⟨q, parent, List.Sublist.trans ordered (List.sublist_append_left _ _)⟩
      · rcases later.order c there with child | ⟨q, parent, ordered⟩
        · exact .inl (List.mem_cons_of_mem k child)
        · exact .inr ⟨q, parent, List.Sublist.trans ordered (List.sublist_append_right _ _)⟩

/-- All descendants are raised once each, and none before its parent. -/
theorem raisedFamily_spec (acyclic : st.Acyclic) (once : st.mapped.Nodup)
    (bounded : st.mapped.length ≤ maxSurfaces) (depth : Nat) (same : st.Reordered st') (s : Nat) :
    st.FamilySpec depth s (raisedFamily depth st' s) := by
  induction depth generalizing st' s with
  | zero =>
    rw [raisedFamily]
    refine ⟨fun c => ?_, List.nodup_singleton s, fun c member other => ?_⟩
    · simp [Steps]
    · exact absurd (List.mem_singleton.mp member) other
  | succ depth ih =>
    have raised : st.Reordered (st'.surfaceRaiseOne s) := same.raise [s]
    have children {c : Nat} := raised.mem_children acyclic bounded (s := s) (c := c)
    rw [raisedFamily]
    have distinct : ((st'.surfaceRaiseOne s).children s).Nodup :=
      (((raised.mapped.nodup_iff.mpr once).filter _).sublist (List.take_sublist _ _))
    generalize (st'.surfaceRaiseOne s).children s = kids at children distinct ⊢
    have gathered := gather_spec acyclic (fun st' same k => ih same k) distinct
      (fun k member => (children.mp member).2.2) raised
    generalize gather (raisedFamily depth) (st'.surfaceRaiseOne s) kids = rest at gathered
    refine ⟨fun c => ?_, List.nodup_cons.mpr ⟨fun member => ?_, gathered.once⟩,
      fun c member other => ?_⟩
    · rw [List.mem_cons, gathered.mem]
      constructor
      · rintro (rfl | ⟨k, child, n, small, steps⟩)
        · exact ⟨0, by omega, rfl⟩
        · exact ⟨n + 1, by omega, k, children.mp child, steps⟩
      · rintro ⟨n, small, steps⟩
        cases n with
        | zero => exact .inl steps
        | succ n =>
          obtain ⟨k, belongs, steps⟩ := steps
          exact .inr ⟨k, children.mpr belongs, n, by omega, steps⟩
    · -- The surface would belong to its own child.
      obtain ⟨k, child, n, -, steps⟩ := (gathered.mem s).mp member
      have up : st.ascend^[n + 1] (some s) = some s := by
        rw [Function.iterate_succ_apply', steps.ascend]
        exact (children.mp child).2.2
      exact acyclic s (n + 1) n.succ_pos up
    · have member := (List.mem_cons.mp member).resolve_left other
      rcases gathered.order c member with child | ⟨q, parent, ordered⟩
      · refine ⟨s, (children.mp child).2.2, ?_⟩
        exact (List.singleton_sublist.mpr member).cons_cons s
      · exact ⟨q, parent, List.Sublist.cons s ordered⟩

theorem surfaceRaise_family (stacked : st.Stacked) (acyclic : st.Acyclic) (start : s ∈ st.mapped) :
    ∃ family, (st.surfaceRaise s).mapped = raiseAll st.surfaceBand family st.mapped ∧
      (∀ c, c ∈ family ↔ st.Pulled s c) ∧ family.Nodup ∧
      ∀ c ∈ family, c ≠ s → ∃ q, (st.surface c).parent = some q ∧ Before family q c := by
  have same : st.Reordered st := ⟨rfl, .refl _⟩
  have spec := raisedFamily_spec acyclic stacked.once stacked.bounded maxSurfaces same s
  refine ⟨raisedFamily maxSurfaces st s, ?_, fun c => ?_, spec.once, spec.order⟩
  · rw [surfaceRaise, surfaceRaiseChildren_eq, foldl_surfaceRaiseOne]
  · rw [spec.mem]
    constructor
    · rintro ⟨n, -, steps⟩
      exact ⟨n, steps⟩
    · rintro ⟨n, steps⟩
      have short := steps.short acyclic start
      have bounded := stacked.bounded
      exact ⟨n, by omega, steps⟩

theorem Pulled.last (pulled : st.Pulled s c) : c = s ∨ ∃ q, st.Belongs q c ∧ st.Pulled s q := by
  obtain ⟨n, steps⟩ := pulled
  exact steps.last

theorem Pulled.mapped (pulled : st.Pulled s c) (start : s ∈ st.mapped) : c ∈ st.mapped := by
  rcases pulled.last with rfl | ⟨_, belongs, _⟩
  · exact start
  · exact belongs.1

theorem Pulled.child (pulled : st.Pulled s q) (belongs : st.Belongs q c) : st.Pulled s c := by
  obtain ⟨n, steps⟩ := pulled
  exact ⟨n + 1, steps.snoc belongs⟩

theorem Pulled.descends (pulled : st.Pulled s q) (parent : (st.surface c).parent = some q) :
    st.Descends s c := by
  obtain ⟨n, steps⟩ := pulled
  refine ⟨n + 1, n.succ_pos, ?_⟩
  rw [Function.iterate_succ_apply, show st.ascend (some c) = some q from parent]
  exact steps.ascend

/-- Raising a surface keeps its family together exactly if no raised surface has a popup or a
subsurface in its band, and the descendants that are not raised are above their parents. -/
theorem familyKept_iff {st : WindowStack} (stacked : st.Stacked) (acyclic : st.Acyclic) {s : Nat}
    (start : s ∈ st.mapped) : st.FamilyKept s ↔ st.FamilyReady s := by
  obtain ⟨family, result, member, once, order⟩ := surfaceRaise_family stacked acyclic start
  have perm : (st.surfaceRaise s).mapped.Perm st.mapped := by
    rw [result]
    exact raiseAll_perm _ _ _
  have ordered := stacked.ordered
  have itself : s ∈ family := (member s).mpr ⟨0, rfl⟩
  -- What is neither the surface nor below it is not raised.
  have outside {x : Nat} (other : x ≠ s) (apart : ¬st.Descends s x) : x ∉ family := by
    intro raised
    rcases ((member x).mp raised).last with same | ⟨q, belongs, pulled⟩
    · exact other same
    · exact apart (pulled.descends belongs.2.2)
  constructor
  · intro kept
    refine ⟨fun q c pulled mapped parent band => ?_,
      fun c q descends lone mapped parent shown still band => ?_⟩
    · by_contra child
      have descends := pulled.descends parent
      -- A child that is no window is not raised, and so ends below its parent.
      have unraised : c ∉ family := by
        intro raised
        rcases ((member c).mp raised).last with rfl | ⟨q, belongs, -⟩
        · exact acyclic.not_descends c descends
        · exact child belongs.2.1
      have raised := (member q).mpr pulled
      have shown := pulled.mapped start
      have below : Before (st.surfaceRaise s).mapped c q := by
        rw [result]
        exact ordered.raiseAll_last raised unraised shown mapped band
      exact below.asymm (perm.nodup_iff.mpr stacked.once)
        (kept.above c q descends mapped parent shown band)
    · have above := kept.above c q descends mapped parent shown band
      rw [result] at above
      exact (raiseAll_before (fun raised => still ((member q).mp raised))
        fun raised => lone ((member c).mp raised)).mp above
  · intro ready
    refine ⟨perm, ?_, fun o mapped other band apart => ?_, fun x y first second apart apart' => ?_,
      fun c q descends mapped parent shown band => ?_⟩
    · rw [result]
      exact ordered.raiseAll family
    · rw [result]
      exact ordered.raiseAll_last itself (outside other apart) start mapped band
    · rw [result]
      exact raiseAll_before (outside first apart) (outside second apart')
    · rw [result]
      by_cases pulled : st.Pulled s q
      · -- A raised parent comes before its window in the family.
        have belongs : st.Belongs q c :=
          ⟨mapped, ready.windows q c pulled mapped parent band, parent⟩
        have raised := (member c).mpr (pulled.child belongs)
        have other : c ≠ s := by
          rintro rfl
          exact acyclic.not_descends c descends
        obtain ⟨q', parent', before⟩ := order c raised other
        obtain rfl : q' = q := Option.some.inj (parent'.symm.trans parent)
        exact ordered.raiseAll_order once before shown mapped band.symm
      · have lone : ¬st.Pulled s c := by
          intro reached
          rcases reached.last with rfl | ⟨q', belongs, pulled'⟩
          · exact acyclic.not_descends c descends
          · rw [Option.some.inj (parent.symm.trans belongs.2.2)] at pulled
            exact pulled pulled'
        exact (raiseAll_before (fun raised => pulled ((member q).mp raised))
          fun raised => lone ((member c).mp raised)).mpr
            (ready.above c q descends lone mapped parent shown pulled band)

theorem acyclic_of_lt (older : ∀ s p, (st.surface s).parent = some p → p < s) : st.Acyclic := by
  have up (n : Nat) : ∀ s p, 0 < n → st.ascend^[n] (some s) = some p → p < s := by
    induction n with
    | zero => exact fun _ _ positive => absurd positive (lt_irrefl 0)
    | succ n ih =>
      intro s p _ reached
      rw [Function.iterate_succ_apply'] at reached
      cases above : st.ascend^[n] (some s) with
      | none => simp [above, WindowStack.ascend] at reached
      | some q =>
        rw [above] at reached
        have last := older q p reached
        rcases Nat.eq_zero_or_pos n with rfl | positive
        · obtain rfl : s = q := Option.some.inj above
          exact last
        · exact last.trans (ih s q positive above)
  intro s n positive loop
  exact lt_irrefl s (up n s s positive loop)

def smallFamily (child : SurfaceRole) (order : List Nat) : WindowStack where
  surface s :=
    if s = 0 ∨ s = 2 then { role := .toplevel, mapped := true }
    else if s = 1 then { role := child, mapped := true, parent := some 0 }
    else {}
  surfaces := [2, 1, 0]
  mapped := order

theorem smallFamily_acyclic (child : SurfaceRole) (order : List Nat) :
    (smallFamily child order).Acyclic := by
  refine acyclic_of_lt fun s p parent => ?_
  simp only [smallFamily] at parent
  split at parent
  · cases parent
  · split at parent
    · obtain rfl := Option.some.inj parent
      omega
    · cases parent

theorem smallFamily_stacked {child : SurfaceRole} {order : List Nat} (perm : order.Perm [0, 1, 2]) :
    (smallFamily child order).Stacked := by
  have band (s : Nat) : (smallFamily child order).surfaceBand s = 2 := by
    simp only [surfaceBand, smallFamily]
    split
    · rfl
    · split
      · cases child <;> rfl
      · rfl
  refine ⟨fun s => ?_, perm.nodup_iff.mpr (by decide), perm.length_eq.trans_le (by decide),
    List.pairwise_of_forall fun a b => by rw [band, band]⟩
  rw [show (smallFamily child order).mapped = order from rfl, perm.mem_iff]
  by_cases window : s = 0 ∨ s = 2
  · simp only [smallFamily, if_pos window, List.mem_cons, List.not_mem_nil, or_false, iff_true]
    omega
  · by_cases middle : s = 1
    · simp [smallFamily, middle]
    · simp only [smallFamily, if_neg window, if_neg middle, List.mem_cons, List.not_mem_nil,
        or_false, Bool.false_eq_true, iff_false]
      omega

theorem dialog_kept : (smallFamily .toplevel [0, 1, 2]).FamilyKept 0 := by
  have windows : ∀ c ∈ [0, 1, 2],
      ((smallFamily .toplevel [0, 1, 2]).surface c).role = .toplevel := by decide
  refine (familyKept_iff (smallFamily_stacked (.refl _)) (smallFamily_acyclic _ _)
    (by decide)).mpr ⟨fun q c _ mapped _ _ => windows c mapped, fun c q _ lone mapped parent => ?_⟩
  -- The only surface with a parent is the dialog, which is raised.
  have only : c = 0 ∨ c = 1 ∨ c = 2 := by simpa [smallFamily] using mapped
  rcases only with rfl | rfl | rfl
  · cases parent
  · exact absurd ⟨1, 1, ⟨by decide, rfl, rfl⟩, rfl⟩ lone
  · cases parent

/-- A window is raised above its own subsurface. -/
theorem subsurface_hidden :
    (smallFamily .subsurface [0, 1, 2]).Stacked ∧ (smallFamily .subsurface [0, 1, 2]).Acyclic ∧
      ¬(smallFamily .subsurface [0, 1, 2]).FamilyKept 0 := by
  refine ⟨smallFamily_stacked (.refl _), smallFamily_acyclic _ _, fun kept => ?_⟩
  have above := kept.above 1 0 ⟨1, one_pos, rfl⟩ (by decide) rfl (by decide) rfl
  exact absurd above (by decide)

end WindowStack

end Xios
