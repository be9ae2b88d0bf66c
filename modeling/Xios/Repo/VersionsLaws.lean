import Xios.Lib.Comparison
import Xios.Repo.Versions

/-! Both comparisons of versions are one order, by which versions and file names can be sorted. -/

namespace Xios

namespace Versions

open Comparison

theorem less_eq_sign {a b : PyString} (differ : a ≠ b) : less (a < b) = sign (compare a b) := by
  have outcome : compare a b = .lt ↔ a < b := by
    clear differ
    induction a generalizing b with
    | nil =>
      cases b with
      | nil => simp [compare, List.compareLex]
      | cons d b => simp [compare, List.compareLex]
    | cons c a ih =>
      cases b with
      | nil => simp [compare, List.compareLex]
      | cons d b =>
        rw [List.compare_cons_cons, Ordering.then_eq_lt, ih, List.cons_lt_cons_iff,
          Nat.compare_eq_lt, Nat.compare_eq_eq]
  unfold less
  split
  · rename_i smaller
    rw [outcome.mpr smaller]
    rfl
  · rename_i larger
    cases result : compare a b with
    | lt => exact absurd (outcome.mp result) larger
    | eq => exact absurd (Std.LawfulEqOrd.eq_of_compare result) differ
    | gt => rfl

theorem less_nat_eq_sign {m n : Nat} (differ : m ≠ n) : less (m < n) = sign (compare m n) := by
  unfold less
  split
  · rename_i smaller
    rw [Nat.compare_eq_lt.mpr smaller]
    rfl
  · rename_i larger
    rw [Nat.compare_eq_gt.mpr (by omega)]
    rfl

theorem less_int_eq_sign {m n : Int} (differ : m ≠ n) : less (m < n) = sign (compare m n) := by
  unfold less
  split
  · rename_i smaller
    rw [compare_lt_iff_lt.mpr smaller]
    rfl
  · rename_i larger
    rw [compare_gt_iff_gt.mpr (by omega)]
    rfl

section

variable (u : PyText)

def weights (s : PyString) : List Int :=
  (s.takeWhile fun c => !u.isDigit c).map fun c => debOrderChar u (some c)

def number (s : PyString) : PyString :=
  digits u (dropZeros (fromDigit u s))

theorem weights_headD (s : PyString) : (weights u s).headD 0 = debOrderChar u (nonDigit u s) := by
  cases s with
  | nil => rfl
  | cons c s => by_cases digit : u.isDigit c <;> simp [weights, nonDigit, debOrderChar, digit]

theorem weights_tail (s : PyString) : (weights u s).tail = weights u (dropNonDigit u s) := by
  cases s with
  | nil => rfl
  | cons c s => by_cases digit : u.isDigit c <;> simp [weights, dropNonDigit, nonDigit, digit]

theorem weights_eq_nil {s : PyString} (none : ¬(nonDigit u s).isSome) : weights u s = [] := by
  cases s with
  | nil => rfl
  | cons c s => by_cases digit : u.isDigit c <;> simp_all [weights, nonDigit]

theorem padded_weights (a b : PyString) :
    padded compare 0 (weights u a) (weights u b) =
      (compare (debOrderChar u (nonDigit u a)) (debOrderChar u (nonDigit u b))).then
        (padded compare 0 (weights u (dropNonDigit u a)) (weights u (dropNonDigit u b))) := by
  rw [padded_eq, weights_headD, weights_headD, weights_tail, weights_tail]

theorem debNonDigits_eq (a b : PyString) :
    debNonDigits u a b =
      if padded compare 0 (weights u a) (weights u b) = .eq then .ok (fromDigit u a, fromDigit u b)
      else .error (sign (padded compare 0 (weights u a) (weights u b))) := by
  fun_induction debNonDigits u a b with
  | case1 a b scanning oa ob differ =>
    -- The first weights that differ decide, and the loop returns.
    rw [padded_weights, less_int_eq_sign differ]
    change _ = if (compare oa ob).then _ = .eq then _ else
      Except.error (sign ((compare oa ob).then _))
    cases result : compare oa ob with
    | eq => exact absurd (compare_eq_iff_eq.mp result) differ
    | lt => rfl
    | gt => rfl
  | case2 a b scanning oa ob same ih =>
    rw [padded_weights, ih, fromDigit_dropNonDigit, fromDigit_dropNonDigit]
    change _ = if (compare oa ob).then _ = .eq then _ else
      Except.error (sign ((compare oa ob).then _))
    rw [compare_eq_iff_eq.mpr (not_not.mp same)]
    rfl
  | case3 a b scanning =>
    rw [not_or] at scanning
    rw [weights_eq_nil u scanning.1, weights_eq_nil u scanning.2, fromDigit_eq u scanning.1,
      fromDigit_eq u scanning.2]
    simp [padded]

/-- What is compared at a time: weights, and then a number. -/
abbrev Segment := List Int × PyString

/-- Compare weights, then the lengths of numbers, then their digits. -/
def segmentCmp (x y : Segment) : Ordering :=
  (padded compare 0 x.1 y.1).then ((compare x.2.length y.2.length).then (compare x.2 y.2))

def segments (s : PyString) : List Segment :=
  if s = [] then [] else (weights u s, number u s) :: segments (afterNumber u s)
termination_by s.length
decreasing_by exact length_afterNumber_lt u ‹_›

def verOrder (a b : PyString) : Ordering :=
  padded segmentCmp ([], []) (segments u a) (segments u b)

instance transCmp_segmentCmp : Std.TransCmp segmentCmp := by
  have weighed := transCmp_padded (compare : Int → Int → Ordering) 0
  have first := transCmp_comap (padded compare (0 : Int)) (Prod.fst : Segment → List Int)
  have second := transCmp_comap (compare : Nat → Nat → Ordering)
    (fun segment : Segment => segment.2.length)
  have third := transCmp_comap (compare : PyString → PyString → Ordering)
    (Prod.snd : Segment → PyString)
  exact inferInstanceAs (Std.TransCmp (compareLex _ (compareLex _ _)))

instance transCmp_verOrder : Std.TransCmp (verOrder u) := by
  have listed := transCmp_padded segmentCmp ([], [])
  exact transCmp_comap (padded segmentCmp ([], [])) (segments u)

theorem segments_headD (s : PyString) :
    (segments u s).headD ([], []) = (weights u s, number u s) := by
  rw [segments]
  split
  · rename_i empty
    subst empty
    rfl
  · rfl

theorem segments_tail (s : PyString) : (segments u s).tail = segments u (afterNumber u s) := by
  rw [segments]
  split
  · rename_i empty
    subst empty
    simp [afterNumber, fromDigit, dropZeros, dropDigits, segments]
  · rfl

theorem verOrder_eq (a b : PyString) :
    verOrder u a b = (segmentCmp (weights u a, number u a) (weights u b, number u b)).then
      (verOrder u (afterNumber u a) (afterNumber u b)) := by
  unfold verOrder
  rw [padded_eq, segments_headD, segments_headD, segments_tail, segments_tail]

variable {second : Ordering}

theorem then_of_ne_eq {first : Ordering} (decided : first ≠ .eq) : first.then second = first := by
  cases first with
  | eq => exact absurd rfl decided
  | lt => rfl
  | gt => rfl

variable {a b : PyString}

theorem verOrder_of_weights (decided : padded compare 0 (weights u a) (weights u b) ≠ .eq) :
    verOrder u a b = padded compare 0 (weights u a) (weights u b) := by
  rw [verOrder_eq, segmentCmp, then_of_ne_eq decided, then_of_ne_eq decided]

theorem verOrder_of_numbers (equal : padded compare 0 (weights u a) (weights u b) = .eq) :
    verOrder u a b =
      ((compare (number u a).length (number u b).length).then
        (compare (number u a) (number u b))).then
          (verOrder u (afterNumber u a) (afterNumber u b)) := by
  rw [verOrder_eq, segmentCmp, equal]
  rfl

theorem verOrder_of_lengths (equal : padded compare 0 (weights u a) (weights u b) = .eq)
    (differ : (number u a).length ≠ (number u b).length) :
    verOrder u a b = compare (number u a).length (number u b).length := by
  have decided : compare (number u a).length (number u b).length ≠ .eq :=
    fun same => differ (Nat.compare_eq_eq.mp same)
  rw [verOrder_of_numbers u equal, then_of_ne_eq decided, then_of_ne_eq decided]

theorem verOrder_of_digits (equal : padded compare 0 (weights u a) (weights u b) = .eq)
    (long : (number u a).length = (number u b).length) (differ : number u a ≠ number u b) :
    verOrder u a b = compare (number u a) (number u b) := by
  have decided : compare (number u a) (number u b) ≠ .eq :=
    fun same => differ (Std.LawfulEqOrd.eq_of_compare same)
  rw [verOrder_of_numbers u equal, Nat.compare_eq_eq.mpr long, Ordering.eq_then,
    then_of_ne_eq decided]

theorem verOrder_of_rest (equal : padded compare 0 (weights u a) (weights u b) = .eq)
    (same : number u a = number u b) :
    verOrder u a b = verOrder u (afterNumber u a) (afterNumber u b) := by
  rw [verOrder_of_numbers u equal, same, Std.ReflOrd.compare_self, Std.ReflOrd.compare_self]
  rfl

theorem debVerrevcmp_eq (a b : PyString) : debVerrevcmp u a b = sign (verOrder u a b) := by
  -- A loop that ends has found equal weights and leaves the numbers.
  have scanned : ∀ {a b a' b' : PyString}, debNonDigits u a b = .ok (a', b') →
      padded compare 0 (weights u a) (weights u b) = .eq ∧
        a' = fromDigit u a ∧ b' = fromDigit u b := by
    intro a b a' b' ok
    refine ⟨?_, debNonDigits_ok u ok⟩
    by_contra decided
    rw [debNonDigits_eq, if_neg decided] at ok
    cases ok
  fun_induction debVerrevcmp u a b with
  | case1 a b empty =>
    obtain ⟨rfl, rfl⟩ := empty
    simp [verOrder, segments, padded, sign]
  | case2 a b nonempty result returned =>
    rw [debNonDigits_eq] at returned
    split at returned
    · cases returned
    · rename_i decided
      cases returned
      rw [verOrder_of_weights u decided]
  | case3 a b nonempty a' b' ok az bz da db differ =>
    obtain ⟨equal, rfl, rfl⟩ := scanned ok
    rw [less_nat_eq_sign differ, verOrder_of_lengths u equal differ]
    rfl
  | case4 a b nonempty a' b' ok az bz da db long differ =>
    obtain ⟨equal, rfl, rfl⟩ := scanned ok
    rw [less_eq_sign differ, verOrder_of_digits u equal (not_not.mp long) differ]
    rfl
  | case5 a b nonempty a' b' ok az bz da db long same ih =>
    obtain ⟨equal, rfl, rfl⟩ := scanned ok
    rw [ih, verOrder_of_rest u equal (not_not.mp same)]
    rfl

theorem order_head (s : PyString) : order u s.head? = debOrderChar u (nonDigit u s) := by
  cases s with
  | nil => rfl
  | cons c s =>
    by_cases digit : u.isDigit c
    · simp [order, nonDigit, debOrderChar, digit]
    · -- A tilde is no letter, so it does not matter which is asked first.
      have tilde : u.isAlpha 126 = false := by
        rw [u.alpha_ascii 126 (by decide)]
        rfl
      by_cases same : c = 126
      · subst same
        simp [order, nonDigit, debOrderChar, digit, tilde]
      · simp [order, nonDigit, debOrderChar, digit, same]

theorem nonDigits_eq (a b : PyString) :
    if padded compare 0 (weights u a) (weights u b) = .eq then
      nonDigits u a b = .ok (fromDigit u a, fromDigit u b)
    else
      ∃ result, nonDigits u a b = .error result ∧
        result.sign = sign (padded compare 0 (weights u a) (weights u b)) := by
  fun_induction nonDigits u a b with
  | case1 a b scanning ac bc differ =>
    -- The difference itself is returned here, of which only the sign counts.
    rw [padded_weights, ← order_head, ← order_head]
    change if (compare ac bc).then _ = .eq then _ else
      ∃ result : Int, _ ∧ result.sign = sign ((compare ac bc).then _)
    cases result : compare ac bc with
    | eq => exact absurd (compare_eq_iff_eq.mp result) differ
    | lt =>
      have smaller : ac < bc := compare_lt_iff_lt.mp result
      exact ⟨_, rfl, Int.sign_eq_neg_one_of_neg (by omega)⟩
    | gt =>
      have larger : bc < ac := compare_gt_iff_gt.mp result
      exact ⟨_, rfl, Int.sign_eq_one_of_pos (by omega)⟩
  | case2 a b scanning ac bc same ih =>
    obtain ⟨first, second⟩ := nonDigits_tail u scanning (not_not.mp same)
    rw [first, second, fromDigit_dropNonDigit, fromDigit_dropNonDigit] at ih
    rw [first, second, padded_weights, ← order_head, ← order_head]
    change if (compare ac bc).then _ = .eq then _ else
      ∃ result : Int, _ ∧ result.sign = sign ((compare ac bc).then _)
    rw [compare_eq_iff_eq.mpr (not_not.mp same), Ordering.eq_then]
    exact ih
  | case3 a b scanning =>
    rw [not_or] at scanning
    rw [weights_eq_nil u scanning.1, weights_eq_nil u scanning.2, fromDigit_eq u scanning.1,
      fromDigit_eq u scanning.2]
    simp [padded]

theorem sign_sub_eq (m n : Nat) : ((m : Int) - n).sign = sign (compare m n) := by
  cases result : compare m n with
  | lt => exact Int.sign_eq_neg_one_of_neg (by have := Nat.compare_eq_lt.mp result; omega)
  | eq =>
    rw [Nat.compare_eq_eq.mp result, Int.sub_self]
    rfl
  | gt => exact Int.sign_eq_one_of_pos (by have := Nat.compare_eq_gt.mp result; omega)

theorem beginsDigit_eq (s : PyString) : beginsDigit u s = decide (0 < (digits u s).length) := by
  cases s with
  | nil => rfl
  | cons c s => by_cases digit : u.isDigit c <;> simp [beginsDigit, digits, digit]

/-- Digits of both versions are compared in pairs, and the first difference is kept. -/
theorem digitPairs_spec (firstDiff : Int) (a b : PyString) :
    (digits u (digitPairs u firstDiff a b).2.1).length =
        (digits u a).length - (digits u b).length ∧
      (digits u (digitPairs u firstDiff a b).2.2).length =
        (digits u b).length - (digits u a).length ∧
      ((digits u a).length = (digits u b).length →
        (digitPairs u firstDiff a b).1.sign =
          if firstDiff = 0 then sign (compare (digits u a) (digits u b)) else firstDiff.sign) := by
  -- Where one number ends, what is left of the other shows which is longer.
  have ended : ∀ (firstDiff : Int) (a b : PyString), digits u a = [] ∨ digits u b = [] →
      (digits u a).length = (digits u a).length - (digits u b).length ∧
        (digits u b).length = (digits u b).length - (digits u a).length ∧
        ((digits u a).length = (digits u b).length → firstDiff.sign =
          if firstDiff = 0 then sign (compare (digits u a) (digits u b)) else firstDiff.sign) := by
    intro firstDiff a b none
    refine ⟨?_, ?_, fun long => ?_⟩
    · obtain empty | empty := none <;> simp [empty]
    · obtain empty | empty := none <;> simp [empty]
    · have both : digits u a = digits u b := by
        obtain empty | empty := none
        · rw [empty] at long ⊢
          exact (List.length_eq_zero_iff.mp long.symm).symm
        · rw [empty] at long ⊢
          exact List.length_eq_zero_iff.mp long
      rw [both, Std.ReflOrd.compare_self]
      split
      · rename_i zero
        rw [zero]
        rfl
      · rfl
  fun_induction digitPairs u firstDiff a b with
  | case1 firstDiff c a d b both ih =>
    rw [Bool.and_eq_true] at both
    have first : digits u (c :: a) = c :: digits u a := by simp [digits, both.1]
    have second : digits u (d :: b) = d :: digits u b := by simp [digits, both.2]
    rw [first, second]
    simp only [List.length_cons, Nat.add_sub_add_right, Nat.add_right_cancel_iff]
    -- Only the first difference is kept.
    refine ⟨ih.1, ih.2.1, fun long => ?_⟩
    rw [ih.2.2 long]
    by_cases zero : firstDiff = 0
    · simp only [zero, if_true]
      rw [List.compare_cons_cons]
      by_cases same : c = d
      · subst same
        simp
      · have decided : compare c d ≠ .eq := fun equal => same (Nat.compare_eq_eq.mp equal)
        rw [if_neg (by omega), then_of_ne_eq decided, sign_sub_eq]
    · simp [zero]
  | case2 firstDiff c a d b other =>
    refine ended firstDiff _ _ ?_
    by_cases digit : u.isDigit c
    · have last : u.isDigit d = false := by simpa [digit] using other
      exact Or.inr (by simp [digits, last])
    · exact Or.inl (by simp [digits, digit])
  | case3 firstDiff a b other =>
    refine ended firstDiff a b ?_
    cases a with
    | nil => exact Or.inl rfl
    | cons c a =>
      cases b with
      | nil => exact Or.inr rfl
      | cons d b => exact absurd rfl (other c a d b rfl)

theorem length_number_eq_of_ended (first : ¬beginsDigit u
      (digitPairs u 0 (dropZeros (fromDigit u a)) (dropZeros (fromDigit u b))).2.1 = true)
    (second : ¬beginsDigit u
      (digitPairs u 0 (dropZeros (fromDigit u a)) (dropZeros (fromDigit u b))).2.2 = true) :
    (number u a).length = (number u b).length := by
  obtain ⟨left, right, -⟩ :=
    digitPairs_spec u 0 (dropZeros (fromDigit u a)) (dropZeros (fromDigit u b))
  rw [beginsDigit_eq, decide_eq_true_iff] at first second
  unfold number
  omega

/-- The comparison loop decides by the order of Debian versions. -/
theorem sign_verrevcmp (a b : PyString) : (verrevcmp u a b).sign = sign (verOrder u a b) := by
  -- A loop that ends has found equal weights and leaves the numbers.
  have scanned : ∀ {a b a' b' : PyString}, nonDigits u a b = .ok (a', b') →
      padded compare 0 (weights u a) (weights u b) = .eq ∧
        a' = fromDigit u a ∧ b' = fromDigit u b := by
    intro a b a' b' ok
    refine ⟨?_, nonDigits_ok u ok⟩
    by_contra decided
    have returned := nonDigits_eq u a b
    rw [if_neg decided, ok] at returned
    obtain ⟨result, impossible, -⟩ := returned
    cases impossible
  have pairs := fun a b =>
    digitPairs_spec u 0 (dropZeros (fromDigit u a)) (dropZeros (fromDigit u b))
  fun_induction verrevcmp u a b with
  | case1 a b empty =>
    obtain ⟨rfl, rfl⟩ := empty
    simp [verOrder, segments, padded, sign]
  | case2 a b nonempty result returned =>
    have scanned := nonDigits_eq u a b
    split at scanned
    · rw [scanned] at returned
      cases returned
    · rename_i decided
      obtain ⟨result', same, signs⟩ := scanned
      rw [same] at returned
      cases returned
      rw [signs, verOrder_of_weights u decided]
  | case3 a b nonempty a' b' ok rest longer =>
    -- Digits are left of the first number alone, so it is longer and therefore larger.
    obtain ⟨equal, rfl, rfl⟩ := scanned ok
    have found := pairs a b
    rw [beginsDigit_eq, decide_eq_true_iff] at longer
    have more : (number u b).length < (number u a).length := by
      have left : (digits u rest.2.1).length = (number u a).length - (number u b).length :=
        found.1
      omega
    rw [verOrder_of_lengths u equal (by omega), Nat.compare_eq_gt.mpr more]
    rfl
  | case4 a b nonempty a' b' ok rest shorter longer =>
    obtain ⟨equal, rfl, rfl⟩ := scanned ok
    have found := pairs a b
    rw [beginsDigit_eq, decide_eq_true_iff] at longer
    have more : (number u a).length < (number u b).length := by
      have right : (digits u rest.2.2).length = (number u b).length - (number u a).length :=
        found.2.1
      omega
    rw [verOrder_of_lengths u equal (by omega), Nat.compare_eq_lt.mpr more]
    rfl
  | case5 a b nonempty a' b' ok rest first second differ =>
    obtain ⟨equal, rfl, rfl⟩ := scanned ok
    have found := pairs a b
    have long := length_number_eq_of_ended u first second
    have signs : rest.1.sign = sign (compare (number u a) (number u b)) := found.2.2 long
    have unequal : number u a ≠ number u b := by
      intro same
      rw [same, Std.ReflOrd.compare_self] at signs
      exact differ (Int.sign_eq_zero_iff_zero.mp signs)
    rw [signs, verOrder_of_digits u equal long unequal]
  | case6 a b nonempty a' b' ok rest first second same ih =>
    obtain ⟨equal, rfl, rfl⟩ := scanned ok
    have found := pairs a b
    have ended := digitPairs_rest u (by simpa using first) (by simpa using second)
    have long := length_number_eq_of_ended u first second
    have signs : rest.1.sign = sign (compare (number u a) (number u b)) := found.2.2 long
    rw [not_not.mp same] at signs
    -- No difference was noted on the way, so the loop goes on behind the numbers.
    have numbers : number u a = number u b :=
      Std.LawfulEqOrd.eq_of_compare (sign_eq_zero.mp signs.symm)
    rw [ih, verOrder_of_rest u equal numbers]
    have left : rest.2 = (afterNumber u a, afterNumber u b) := ended
    rw [left]

/-- The order of versions, taken apart into epoch, upstream version and revision. -/
def partsOrder (x y : Int × PyString × PyString) : Ordering :=
  (compare x.1 y.1).then ((verOrder u x.2.1 y.2.1).then (verOrder u x.2.2 y.2.2))

instance transCmp_partsOrder : Std.TransCmp (partsOrder u) := by
  have first := transCmp_comap (compare : Int → Int → Ordering)
    (Prod.fst : Int × PyString × PyString → Int)
  have second := transCmp_comap (verOrder u) fun parts : Int × PyString × PyString => parts.2.1
  have third := transCmp_comap (verOrder u) fun parts : Int × PyString × PyString => parts.2.2
  exact inferInstanceAs (Std.TransCmp (compareLex _ (compareLex _ _)))

theorem sign_then (c : Int) {rest : Int} {first : Ordering} (part : c.sign = sign first)
    (later : rest.sign = sign second) :
    (if c ≠ 0 then c else rest).sign = sign (first.then second) := by
  split
  · rename_i decided
    have unequal : first ≠ .eq := by
      rintro rfl
      exact decided (Int.sign_eq_zero_iff_zero.mp part)
    rw [then_of_ne_eq unequal, part]
  · rename_i equal
    rw [not_not.mp equal] at part
    rw [sign_eq_zero.mp part.symm, later]
    rfl

theorem sign_less_then {α : Type} [LT α] [DecidableLT α] [DecidableEq α] [Ord α]
    [Std.LawfulEqOrd α] (x y : α) {rest : Int}
    (outcome : x ≠ y → less (x < y) = sign (compare x y)) (later : rest.sign = sign second) :
    (if x ≠ y then less (x < y) else rest).sign = sign ((compare x y).then second) := by
  split
  · rename_i differ
    have unequal : compare x y ≠ .eq := fun same => differ (Std.LawfulEqOrd.eq_of_compare same)
    rw [then_of_ne_eq unequal, outcome differ, sign_sign]
  · rename_i equal
    rw [not_not.mp equal, Std.ReflOrd.compare_self, later]
    rfl

theorem sign_compareDebVersions (a b : PyString) :
    (compareDebVersions u a b).sign = sign (partsOrder u (debSplit u a) (debSplit u b)) := by
  unfold compareDebVersions partsOrder
  generalize debSplit u a = x
  generalize debSplit u b = y
  refine sign_less_then _ _ less_int_eq_sign (sign_then _ ?_ ?_)
  · rw [debVerrevcmp_eq, sign_sign]
  · rw [debVerrevcmp_eq, sign_sign]

theorem isPreorder_compareDebVersions : IsPreorder (compareDebVersions u) := by
  have transitive := transCmp_comap (partsOrder u) (debSplit u)
  exact .of_sign (sign_compareDebVersions u)

def filenameOrder (compareVersions : PyString → PyString → Int)
    (x y : PyString × PyString × PyString) : Ordering :=
  (compare x.1 y.1).then ((outcome compareVersions x.2.1 y.2.1).then (compare x.2.2 y.2.2))

theorem transCmp_filenameOrder {compareVersions : PyString → PyString → Int}
    (preorder : IsPreorder compareVersions) : Std.TransCmp (filenameOrder compareVersions) := by
  have versions := preorder.transCmp
  have first := transCmp_comap (compare : PyString → PyString → Ordering)
    (Prod.fst : PyString × PyString × PyString → PyString)
  have second := transCmp_comap (outcome compareVersions)
    fun parts : PyString × PyString × PyString => parts.2.1
  have third := transCmp_comap (compare : PyString → PyString → Ordering)
    fun parts : PyString × PyString × PyString => parts.2.2
  exact inferInstanceAs (Std.TransCmp (compareLex _ (compareLex _ _)))

theorem sign_filenames (compareVersions : PyString → PyString → Int)
    (x y : PyString × PyString × PyString) :
    (if x.1 ≠ y.1 then less (x.1 < y.1)
      else if compareVersions x.2.1 y.2.1 ≠ 0 then compareVersions x.2.1 y.2.1
      else if x.2.2 ≠ y.2.2 then less (x.2.2 < y.2.2)
      else 0).sign = sign (filenameOrder compareVersions x y) := by
  refine sign_less_then _ _ less_eq_sign (sign_then _ (sign_outcome _ _ _) ?_)
  have last : (if x.2.2 ≠ y.2.2 then less (x.2.2 < y.2.2) else 0).sign =
      sign ((compare x.2.2 y.2.2).then .eq) := sign_less_then _ _ less_eq_sign rfl
  rwa [Ordering.then_eq] at last

theorem isPreorder_compareDebFilenames : IsPreorder (compareDebFilenames u) := by
  have versions := transCmp_filenameOrder (isPreorder_compareDebVersions u)
  have transitive := transCmp_comap (filenameOrder (compareDebVersions u)) filenameSplit
  have parts : ∀ a b, (compareDebFilenames u a b).sign =
      sign (filenameOrder (compareDebVersions u) (filenameSplit a) (filenameSplit b)) :=
    fun a b => sign_filenames _ _ _
  exact .of_sign parts

theorem verOrder_zero_left (b : PyString) : verOrder u (py "0") b = verOrder u [] b := by
  have digit : u.isDigit 48 = true := by
    rw [u.digit_ascii 48 (by decide)]
    rfl
  have zero : py "0" = [48] := rfl
  rw [verOrder_eq u (py "0"), verOrder_eq u [], zero]
  simp [weights, number, digits, afterNumber, fromDigit, dropZeros, dropDigits, digit]

theorem verOrder_zero_right (a : PyString) : verOrder u a (py "0") = verOrder u a [] := by
  have swapped : ∀ a b, verOrder u a b = (verOrder u b a).swap :=
    fun _ _ => Std.OrientedCmp.eq_swap
  rw [swapped, verOrder_zero_left, ← swapped]

theorem versionChar_solid {c : Nat} (char : VersionChar c) :
    c < 128 ∧ u.isSpace c = false ∧ c ≠ 58 := by
  have small : c < 128 := by
    unfold VersionChar at char
    omega
  refine ⟨small, ?_, ?_⟩
  · rw [u.space_ascii c small]
    simp only [Bool.or_eq_false_iff, Bool.and_eq_false_iff, decide_eq_false_iff_not]
    unfold VersionChar at char
    omega
  · unfold VersionChar at char
    omega

theorem versionChar_digit {c : Nat} (digit : 48 ≤ c ∧ c ≤ 57) : VersionChar c :=
  Or.inr (Or.inr (Or.inl digit))

theorem debianVersion_epoch {v : PyString} (version : DebianVersion v) :
    ∃ epoch rest, debSplit u v = (epoch, (PyText.cutLast 45 rest).getD (rest, py "0")) ∧
        splitVersion u v = some (epoch, (PyText.cutLast 45 rest).getD (rest, [])) := by
  obtain plain | ⟨epoch, rest, rfl, nonempty, digits, plain⟩ := version
  -- Without a colon both programs take the epoch to be zero.
  · have solid : u.strip v = v :=
      PyText.strip_eq fun c member => (versionChar_solid u (plain c member)).2.1
    have absent : 58 ∉ v := fun member => (versionChar_solid u (plain 58 member)).2.2 rfl
    have zero : u.int (py "0") = some 0 := u.int_digits (py "0") (by decide) (by decide)
    refine ⟨0, v, ?_, ?_⟩
    · simp [debSplit, PyText.cut_eq_none absent, zero]
    · simp [splitVersion, solid, PyText.cut_eq_none absent]
  · have solid : u.strip (epoch ++ 58 :: rest) = epoch ++ 58 :: rest := by
      refine PyText.strip_eq fun c member => ?_
      rw [List.mem_append, List.mem_cons] at member
      obtain front | rfl | back := member
      · exact (versionChar_solid u (versionChar_digit (digits c front))).2.1
      · rw [u.space_ascii 58 (by decide)]
        rfl
      · exact (versionChar_solid u (plain c back)).2.1
    have absent : 58 ∉ epoch := fun member => by
      have := digits 58 member
      omega
    have numeral := u.int_digits epoch nonempty digits
    -- What stands before the colon is a numeral to both programs.
    have isDigits : u.isDigits epoch = true := by
      simp only [PyText.isDigits, Bool.and_eq_true, Bool.not_eq_true', List.isEmpty_eq_false_iff,
        List.all_eq_true]
      refine ⟨nonempty, fun c member => ?_⟩
      have digit := digits c member
      rw [u.digit_ascii c (by omega)]
      simpa using digit
    refine ⟨decimalValue epoch, rest, ?_, ?_⟩
    · simp [debSplit, PyText.cut_append absent, numeral]
    · simp [splitVersion, solid, PyText.cut_append absent, numeral, isDigits]

theorem restOrder_eq (x y : PyString) :
    (verOrder u ((PyText.cutLast 45 x).getD (x, py "0")).1
        ((PyText.cutLast 45 y).getD (y, py "0")).1).then
      (verOrder u ((PyText.cutLast 45 x).getD (x, py "0")).2
        ((PyText.cutLast 45 y).getD (y, py "0")).2) =
    (verOrder u ((PyText.cutLast 45 x).getD (x, [])).1
        ((PyText.cutLast 45 y).getD (y, [])).1).then
      (verOrder u ((PyText.cutLast 45 x).getD (x, [])).2
        ((PyText.cutLast 45 y).getD (y, [])).2) := by
  cases PyText.cutLast 45 x with
  | none =>
    cases PyText.cutLast 45 y with
    | none => simp [verOrder_zero_left, verOrder_zero_right]
    | some parts => simp [verOrder_zero_left]
  | some parts =>
    cases PyText.cutLast 45 y with
    | none => simp [verOrder_zero_right]
    | some parts' => rfl

theorem versionCompare_agrees (first : DebianVersion a) (second : DebianVersion b) :
    ∃ result, versionCompare u a b = some result ∧
      result.sign = (compareDebVersions u a b).sign := by
  obtain ⟨ea, ra, debA, splitA⟩ := debianVersion_epoch u first
  obtain ⟨eb, rb, debB, splitB⟩ := debianVersion_epoch u second
  refine ⟨_, by rw [versionCompare, splitA, splitB], ?_⟩
  rw [sign_compareDebVersions, debA, debB]
  simp only [partsOrder]
  -- The programs differ in what stands for a revision that is missing.
  rw [restOrder_eq u ra rb]
  refine sign_less_then _ _ less_int_eq_sign (sign_then _ ?_ ?_)
  · exact sign_verrevcmp u _ _
  · exact sign_verrevcmp u _ _

/--
Versions and the names of package files can be sorted, and both programs agree on versions.

Whatever the interpreter knows about characters beyond ASCII, the comparisons of `make-repo.py` are
reflexive, antisymmetric in sign and transitive on all strings, and on strings with the syntax of
Debian versions `check-repo-solvable.py` finds the same sign.
-/
theorem version_order :
    IsPreorder (compareDebVersions u) ∧
      (∀ a b : { v // DebianVersion v }, ∃ result, versionCompare u a b = some result ∧
        result.sign = (compareDebVersions u a b).sign) ∧
      IsPreorder (compareDebFilenames u) :=
  ⟨isPreorder_compareDebVersions u, fun a b => versionCompare_agrees u a.2 b.2,
    isPreorder_compareDebFilenames u⟩

end

example : compareDebVersions .ascii (py "1.0+ios9") (py "1.0+ios10") = -1 := by decide +kernel

end Versions

end Xios
