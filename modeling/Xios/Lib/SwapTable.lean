import Mathlib.Data.List.Basic
import Mathlib.Data.List.Perm.Basic

/-! Tables from which an entry is taken by moving the last one to its place. -/

/-- Putting the last item in the place of another one takes only that one away. -/
theorem perm_set_getLast_dropLast {α : Type*} {l : List α} {index : Nat} {x last : α}
    (found : l[index]? = some x) (ends : l.getLast? = some last) :
    l.Perm (x :: (l.set index last).dropLast) := by
  obtain ⟨front, rfl⟩ : ∃ front, l = front ++ [last] := by
    obtain ⟨front, same⟩ := List.getLast?_eq_some_iff.mp ends
    exact ⟨front, same⟩
  by_cases inside : index < front.length
  · -- The element lies before the last one.
    have split : front = front.take index ++ front[index] :: front.drop (index + 1) := by
      rw [← List.drop_eq_getElem_cons inside, List.take_append_drop]
    have same : front[index] = x := by
      rw [List.getElem?_append_left inside, List.getElem?_eq_getElem inside] at found
      exact Option.some.inj found
    rw [List.set_append_left _ _ inside, List.dropLast_concat,
      List.set_eq_take_append_cons_drop, if_pos inside]
    nth_rewrite 1 [split]
    rw [same]
    have moved : (front.take index ++ x :: front.drop (index + 1) ++ [last]).Perm
        (x :: (front.take index ++ front.drop (index + 1) ++ [last])) := by
      rw [List.append_assoc, List.cons_append, List.append_assoc]
      exact List.perm_middle
    refine moved.trans (.cons x ?_)
    rw [List.append_assoc]
    exact .append_left _ (List.perm_append_singleton _ _)
  · -- The element is the last one.
    have index : index = front.length := by
      have bounded := (List.getElem?_eq_some_iff.mp found).1
      rw [List.length_append, List.length_singleton] at bounded
      omega
    subst index
    simp only [List.getElem?_concat_length, Option.some.injEq] at found
    subst found
    simp only [List.set_append_right _ _ (Nat.le_refl _), Nat.sub_self, List.set_cons_zero,
      List.dropLast_concat]
    exact List.perm_append_singleton _ _

theorem modify_findIdx_eq_map {α : Type*} {p : α → Bool} {f : α → α} {l : List α}
    (single : l.Pairwise fun x y => ¬(p x = true ∧ p y = true)) :
    l.modify (l.findIdx p) f = l.map fun x => if p x then f x else x := by
  induction l with
  | nil => rfl
  | cons x rest ih =>
    obtain ⟨first, later⟩ := List.pairwise_cons.mp single
    cases here : p x with
    | true =>
      have others : (rest.map fun y => if p y then f y else y) = rest := by
        conv_rhs => rw [← List.map_id rest]
        refine List.map_congr_left fun y member => ?_
        simp [Bool.eq_false_iff.mpr fun also => first y member ⟨here, also⟩]
      simp [List.findIdx_cons, here, others]
    | false =>
      simp [List.findIdx_cons, here, ih later]

namespace SwapTable

variable {α : Type*}

def takeOut (entries : List α) (index : Nat) : List α :=
  match entries.getLast? with
  | some last => (entries.set index last).dropLast
  | none => []

variable {entries : List α} {index : Nat}

theorem perm_takeOut (inside : index < entries.length) :
    entries.Perm (entries[index] :: takeOut entries index) := by
  have nonempty : entries ≠ [] := List.ne_nil_of_length_pos (by omega)
  have ends : entries.getLast? = some (entries.getLast nonempty) :=
    List.getLast?_eq_some_getLast nonempty
  unfold takeOut
  rw [ends]
  exact perm_set_getLast_dropLast (List.getElem?_eq_getElem inside) ends

theorem length_takeOut (inside : index < entries.length) :
    (takeOut entries index).length + 1 = entries.length :=
  (perm_takeOut inside).length_eq.symm

theorem take_takeOut (inside : index < entries.length) :
    (takeOut entries index).take index = entries.take index := by
  have nonempty : entries ≠ [] := List.ne_nil_of_length_pos (by omega)
  unfold takeOut
  rw [List.getLast?_eq_some_getLast nonempty]
  dsimp only
  rw [List.dropLast_eq_take, List.take_take, List.length_set, Nat.min_eq_left (by omega),
    List.take_set_of_le (Nat.le_refl _)]

/-- The first entry of a kind once an entry is taken out, with the last one in its place. -/
theorem find?_takeOut (p : α → Bool) (before : List α) (gone : α) (after : List α) :
    (takeOut (before ++ gone :: after) before.length).find? p =
      (before.find? p).or ((after.getLast?.filter p).or (after.find? p)) := by
  unfold takeOut
  rcases List.eq_nil_or_concat after with rfl | ⟨front, last, rfl⟩
  · simp [List.dropLast_append_of_ne_nil]
  · have ends : (before ++ gone :: front.concat last).getLast? = some last := by
      rw [List.concat_eq_append, ← List.cons_append, ← List.append_assoc, List.getLast?_concat]
    have moved : ((before ++ gone :: front.concat last).set before.length last).dropLast =
        before ++ last :: front := by
      rw [List.set_append_right _ _ (Nat.le_refl _), Nat.sub_self, List.set_cons_zero,
        List.concat_eq_append, ← List.cons_append, ← List.append_assoc, List.dropLast_concat]
    rw [ends]
    dsimp only
    rw [moved]
    cases found : p last <;> simp [List.find?_append, found, Option.filter]

/-- Take out all entries of a kind, from some place on, with those taken out listed in order. -/
def sweep (gone : α → Bool) (entries : List α) (index : Nat) : List α × List α :=
  if inside : index < entries.length then
    if gone entries[index] then
      let rest := sweep gone (takeOut entries index) index
      (entries[index] :: rest.1, rest.2)
    else sweep gone entries (index + 1)
  else ([], entries)
termination_by entries.length - index
decreasing_by
  · have shorter := length_takeOut inside
    omega
  · omega

theorem perm_sweep (gone : α → Bool) (entries : List α) (index : Nat) :
    entries.Perm ((sweep gone entries index).1 ++ (sweep gone entries index).2) := by
  fun_induction sweep gone entries index with
  | case1 entries index inside found rest ih =>
    exact (perm_takeOut inside).trans (.cons _ ih)
  | case2 entries index inside other ih => exact ih
  | case3 entries index outside => exact .refl _

theorem gone_of_mem_sweep {gone : α → Bool} {entry : α}
    (member : entry ∈ (sweep gone entries index).1) : gone entry = true := by
  fun_induction sweep gone entries index with
  | case1 entries index inside found rest ih =>
    obtain rfl | later := List.mem_cons.mp member
    · exact found
    · exact ih later
  | case2 entries index inside other ih => exact ih member
  | case3 entries index outside => cases member

theorem kept_of_mem_sweep {gone : α → Bool} {entry : α}
    (before : ∀ entry ∈ entries.take index, gone entry = false)
    (member : entry ∈ (sweep gone entries index).2) : gone entry = false := by
  fun_induction sweep gone entries index with
  | case1 entries index inside found rest ih =>
    rw [← take_takeOut inside] at before
    exact ih before member
  | case2 entries index inside other ih =>
    refine ih ?_ member
    intro entry passed
    rw [List.take_succ_eq_append_getElem inside, List.mem_append, List.mem_singleton] at passed
    obtain earlier | rfl := passed
    · exact before entry earlier
    · simpa using other
  | case3 entries index outside =>
    rw [List.take_of_length_le (by omega)] at before
    exact before entry member

theorem sweep_perm (gone : α → Bool) (entries : List α) :
    (sweep gone entries 0).1.Perm (entries.filter gone) ∧
      (sweep gone entries 0).2.Perm (entries.filter fun entry => !gone entry) := by
  have all := perm_sweep gone entries 0
  have out : ∀ entry ∈ (sweep gone entries 0).1, gone entry = true := fun _ => gone_of_mem_sweep
  have kept : ∀ entry ∈ (sweep gone entries 0).2, gone entry = false := by
    intro entry
    exact kept_of_mem_sweep (by simp)
  constructor
  · have none : (sweep gone entries 0).2.filter gone = [] :=
      List.filter_eq_nil_iff.mpr fun entry member => by simp [kept entry member]
    have same := all.filter gone
    rw [List.filter_append, List.filter_eq_self.mpr out, none, List.append_nil] at same
    exact same.symm
  · have none : (sweep gone entries 0).1.filter (fun entry => !gone entry) = [] :=
      List.filter_eq_nil_iff.mpr fun entry member => by simp [out entry member]
    have every : (sweep gone entries 0).2.filter (fun entry => !gone entry) = _ :=
      List.filter_eq_self.mpr fun entry member => by simp [kept entry member]
    have same := all.filter fun entry => !gone entry
    rw [List.filter_append, none, every, List.nil_append] at same
    exact same.symm

end SwapTable
