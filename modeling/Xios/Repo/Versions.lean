import Xios.Lib.PyText

/-! The version comparisons of `make-repo.py` and `check-repo-solvable.py`. -/

namespace Xios

namespace Versions

/-- The number a comparison returns for different values. -/
def less (isLess : Prop) [Decidable isLess] : Int :=
  if isLess then -1 else 1

section

variable (u : PyText)

def nonDigit (s : PyString) : Option Nat :=
  match s with
  | [] => none
  | c :: _ => if u.isDigit c then none else some c

def debOrderChar : Option Nat → Int
  | none => 0
  | some c => if c = 126 then -1 else if u.isAlpha c then c else c + 256

def dropNonDigit (s : PyString) : PyString :=
  if (nonDigit u s).isSome then s.tail else s

theorem length_dropNonDigit (s : PyString) :
    (dropNonDigit u s).length + (if (nonDigit u s).isSome then 1 else 0) = s.length := by
  cases s with
  | nil => rfl
  | cons c s => by_cases digit : u.isDigit c <;> simp [dropNonDigit, nonDigit, digit]

/--
The loop over what comes before the next digits.

It returns from the comparison, or leaves what comes after.
-/
def debNonDigits (a b : PyString) : Except Int (PyString × PyString) :=
  if (nonDigit u a).isSome ∨ (nonDigit u b).isSome then
    let oa := debOrderChar u (nonDigit u a)
    let ob := debOrderChar u (nonDigit u b)
    if oa ≠ ob then .error (less (oa < ob)) else debNonDigits (dropNonDigit u a) (dropNonDigit u b)
  else .ok (a, b)
termination_by a.length + b.length
decreasing_by
  have first := length_dropNonDigit u a
  have second := length_dropNonDigit u b
  split at first <;> split at second <;> grind

def fromDigit (s : PyString) : PyString :=
  s.dropWhile fun c => !u.isDigit c

theorem fromDigit_dropNonDigit (s : PyString) : fromDigit u (dropNonDigit u s) = fromDigit u s := by
  cases s with
  | nil => rfl
  | cons c s => by_cases digit : u.isDigit c <;> simp [fromDigit, dropNonDigit, nonDigit, digit]

variable {s : PyString}

theorem fromDigit_eq (begins : ¬(nonDigit u s).isSome) : fromDigit u s = s := by
  cases s with
  | nil => rfl
  | cons c s =>
    by_cases digit : u.isDigit c
    · simp [fromDigit, digit]
    · simp [nonDigit, digit] at begins

variable {a b a' b' : PyString}

theorem debNonDigits_ok (ok : debNonDigits u a b = .ok (a', b')) :
    a' = fromDigit u a ∧ b' = fromDigit u b := by
  fun_induction debNonDigits u a b with
  | case1 a b scanning oa ob differ => cases ok
  | case2 a b scanning oa ob same ih =>
    have rest := ih ok
    rwa [fromDigit_dropNonDigit, fromDigit_dropNonDigit] at rest
  | case3 a b scanning =>
    rw [not_or] at scanning
    cases ok
    rw [fromDigit_eq u scanning.1, fromDigit_eq u scanning.2]
    exact ⟨rfl, rfl⟩

def dropZeros (s : PyString) : PyString :=
  s.dropWhile fun c => c = 48

def digits (s : PyString) : PyString :=
  s.takeWhile u.isDigit

def dropDigits (s : PyString) : PyString :=
  s.dropWhile u.isDigit

def afterNumber (s : PyString) : PyString :=
  dropDigits u (dropZeros (fromDigit u s))

theorem length_dropWhile_le (holds : Nat → Bool) (s : PyString) :
    (s.dropWhile holds).length ≤ s.length :=
  (List.dropWhile_sublist holds).length_le

theorem length_afterNumber_le (s : PyString) : (afterNumber u s).length ≤ s.length :=
  calc
    (afterNumber u s).length ≤ (dropZeros (fromDigit u s)).length := length_dropWhile_le _ _
    _ ≤ (fromDigit u s).length := length_dropWhile_le _ _
    _ ≤ s.length := length_dropWhile_le _ _

theorem length_afterNumber_lt (nonempty : s ≠ []) : (afterNumber u s).length < s.length := by
  cases s with
  | nil => exact absurd rfl nonempty
  | cons c s =>
    rw [List.length_cons, Nat.lt_succ_iff]
    by_cases digit : u.isDigit c
    · by_cases zero : c = 48
      · -- A zero is dropped with the others.
        subst zero
        have same : afterNumber u (48 :: s) = dropDigits u (dropZeros s) := by
          simp [afterNumber, fromDigit, dropZeros, digit]
        rw [same]
        exact Nat.le_trans (length_dropWhile_le _ _) (length_dropWhile_le _ _)
      · -- Another digit belongs to the number.
        have same : afterNumber u (c :: s) = dropDigits u s := by
          simp [afterNumber, fromDigit, dropZeros, dropDigits, digit, zero]
        rw [same]
        exact length_dropWhile_le _ _
    · have same : afterNumber u (c :: s) = afterNumber u s := by
        simp [afterNumber, fromDigit, digit]
      rw [same]
      exact length_afterNumber_le u s

theorem length_afterNumbers_lt (nonempty : ¬(a = [] ∧ b = [])) :
    (afterNumber u a).length + (afterNumber u b).length < a.length + b.length := by
  have first := length_afterNumber_le u a
  have second := length_afterNumber_le u b
  by_cases empty : a = []
  · have shorter := length_afterNumber_lt u fun none : b = [] => nonempty ⟨empty, none⟩
    omega
  · have shorter := length_afterNumber_lt u empty
    omega

/-- Compare upstream versions or revisions as `make-repo.py` does. -/
def debVerrevcmp (a b : PyString) : Int :=
  if a = [] ∧ b = [] then 0
  else
    match _scanned : debNonDigits u a b with
    | .error result => result
    | .ok (a', b') =>
      let a' := dropZeros a'
      let b' := dropZeros b'
      let da := digits u a'
      let db := digits u b'
      if da.length ≠ db.length then less (da.length < db.length)
      else if da ≠ db then less (da < db)
      else debVerrevcmp (dropDigits u a') (dropDigits u b')
termination_by a.length + b.length
decreasing_by
  obtain ⟨rfl, rfl⟩ := debNonDigits_ok u _scanned
  exact length_afterNumbers_lt u ‹_›

/-- The parts of a version as `make-repo.py` sees them. -/
def debSplit (v : PyString) : Int × PyString × PyString :=
  let (epoch, rest) := (PyText.cut 58 v).getD (py "0", v)
  let (upstream, revision) := (PyText.cutLast 45 rest).getD (rest, py "0")
  ((u.int epoch).getD 0, upstream, revision)

/-- Compare versions as `make-repo.py` does without `apt_pkg`. -/
def compareDebVersions (a b : PyString) : Int :=
  let (ea, ua, ra) := debSplit u a
  let (eb, ub, rb) := debSplit u b
  if ea ≠ eb then less (ea < eb)
  else
    let c := debVerrevcmp u ua ub
    if c ≠ 0 then c else debVerrevcmp u ra rb

/-- The package, version and architecture in the name of a file. -/
def filenameSplit (fn : PyString) : PyString × PyString × PyString :=
  let stem := if (py ".deb").isSuffixOf fn then fn.take (fn.length - 4) else fn
  match PyText.cut 95 stem with
  | none => (stem, py "0", [])
  | some (package, rest) =>
    match PyText.cut 95 rest with
    | none => (stem, py "0", [])
    | some (version, architecture) => (package, version, architecture)

def compareDebFilenames (a b : PyString) : Int :=
  let (pa, va, aa) := filenameSplit a
  let (pb, vb, ab) := filenameSplit b
  if pa ≠ pb then less (pa < pb)
  else
    let c := compareDebVersions u va vb
    if c ≠ 0 then c
    else if aa ≠ ab then less (aa < ab)
    else 0

/-- The weight of a character in `check-repo-solvable.py`, where digits have none. -/
def order : Option Nat → Int
  | none => 0
  | some c =>
    if u.isDigit c then 0 else if u.isAlpha c then c else if c = 126 then -1 else c + 256

/--
The loop over what comes before the next digits in `check-repo-solvable.py`.

It steps over both characters at a time, whether or not they are digits.
-/
def nonDigits (a b : PyString) : Except Int (PyString × PyString) :=
  if (nonDigit u a).isSome ∨ (nonDigit u b).isSome then
    let ac := order u a.head?
    let bc := order u b.head?
    if ac ≠ bc then .error (ac - bc) else nonDigits a.tail b.tail
  else .ok (a, b)
termination_by a.length + b.length
decreasing_by
  have first := length_dropNonDigit u a
  have second := length_dropNonDigit u b
  simp only [List.length_tail]
  split at first <;> split at second <;> grind

theorem order_ne_zero {c : Nat} (nonDigit : u.isDigit c = false) : order u (some c) ≠ 0 := by
  unfold order
  simp only [nonDigit, Bool.false_eq_true, if_false]
  split
  · rename_i alpha
    -- The character with code zero is no letter.
    intro zero
    have none : c = 0 := by omega
    rw [none, u.alpha_ascii 0 (by decide)] at alpha
    simp at alpha
  · split <;> omega

theorem order_head_eq_zero (s : PyString) : order u s.head? = 0 ↔ (nonDigit u s).isSome = false := by
  cases s with
  | nil => simp [order, nonDigit]
  | cons c s =>
    by_cases digit : u.isDigit c
    · simp [order, nonDigit, digit]
    · simpa [nonDigit, digit] using order_ne_zero u (by simpa using digit)

theorem nonDigits_tail (scanning : (nonDigit u a).isSome ∨ (nonDigit u b).isSome)
    (same : order u a.head? = order u b.head?) :
    a.tail = dropNonDigit u a ∧ b.tail = dropNonDigit u b := by
  have first := order_head_eq_zero u a
  have second := order_head_eq_zero u b
  have both : (nonDigit u a).isSome ∧ (nonDigit u b).isSome := by
    rw [same] at first
    grind
  simp [dropNonDigit, both.1, both.2]

theorem nonDigits_ok (ok : nonDigits u a b = .ok (a', b')) :
    a' = fromDigit u a ∧ b' = fromDigit u b := by
  fun_induction nonDigits u a b with
  | case1 a b scanning ac bc differ => cases ok
  | case2 a b scanning ac bc same ih =>
    obtain ⟨first, second⟩ := nonDigits_tail u scanning (not_not.mp same)
    have rest := ih ok
    rwa [first, second, fromDigit_dropNonDigit, fromDigit_dropNonDigit] at rest
  | case3 a b scanning =>
    rw [not_or] at scanning
    cases ok
    rw [fromDigit_eq u scanning.1, fromDigit_eq u scanning.2]
    exact ⟨rfl, rfl⟩

def digitPairs (firstDiff : Int) : PyString → PyString → Int × PyString × PyString
  | c :: a, d :: b =>
    if u.isDigit c && u.isDigit d then
      digitPairs (if firstDiff = 0 then (c : Int) - d else firstDiff) a b
    else (firstDiff, c :: a, d :: b)
  | a, b => (firstDiff, a, b)

def beginsDigit (s : PyString) : Bool :=
  s.head?.any u.isDigit

theorem digitPairs_rest {firstDiff : Int}
    (first : beginsDigit u (digitPairs u firstDiff a b).2.1 = false)
    (second : beginsDigit u (digitPairs u firstDiff a b).2.2 = false) :
    (digitPairs u firstDiff a b).2 = (dropDigits u a, dropDigits u b) := by
  have stay : ∀ s : PyString, beginsDigit u s = false → dropDigits u s = s := by
    intro s none
    cases s with
    | nil => rfl
    | cons c s =>
      have other : u.isDigit c = false := by simpa [beginsDigit] using none
      simp [dropDigits, other]
  fun_induction digitPairs u firstDiff a b with
  | case1 firstDiff c a d b digits ih =>
    rw [Bool.and_eq_true] at digits
    rw [ih first second]
    simp [dropDigits, digits.1, digits.2]
  | case2 firstDiff c a d b other => rw [stay _ first, stay _ second]
  | case3 firstDiff a b other => rw [stay _ first, stay _ second]

/-- Compare upstream versions or revisions as `check-repo-solvable.py` does. -/
def verrevcmp (a b : PyString) : Int :=
  if a = [] ∧ b = [] then 0
  else
    match _scanned : nonDigits u a b with
    | .error result => result
    | .ok (a', b') =>
      let rest := digitPairs u 0 (dropZeros a') (dropZeros b')
      if beginsDigit u rest.2.1 then 1
      else if beginsDigit u rest.2.2 then -1
      else if rest.1 ≠ 0 then rest.1
      else verrevcmp rest.2.1 rest.2.2
termination_by a.length + b.length
decreasing_by
  rename_i nonempty first second equal
  obtain ⟨rfl, rfl⟩ := nonDigits_ok u _scanned
  have ended := digitPairs_rest u (by simpa using first) (by simpa using second)
  rw [ended]
  exact length_afterNumbers_lt u nonempty

/-- The parts of a version as `check-repo-solvable.py` sees them. -/
def splitVersion (v : PyString) : Option (Int × PyString × PyString) :=
  let v := u.strip v
  let numbered :=
    match PyText.cut 58 v with
    | none => some (0, v)
    | some (head, rest) =>
      if u.isDigits head then (u.int head).map fun epoch => (epoch, rest) else some (0, v)
  numbered.map fun (epoch, v) =>
    let (upstream, revision) := (PyText.cutLast 45 v).getD (v, [])
    (epoch, upstream, revision)

def versionCompare (v1 v2 : PyString) : Option Int :=
  match splitVersion u v1, splitVersion u v2 with
  | some (e1, u1, r1), some (e2, u2, r2) =>
    some <|
      if e1 ≠ e2 then less (e1 < e2)
      else
        let c := verrevcmp u u1 u2
        if c ≠ 0 then c else verrevcmp u r1 r2
  | _, _ => none

end

/-- A character that versions may have. -/
def VersionChar (c : Nat) : Prop :=
  65 ≤ c ∧ c ≤ 90 ∨ 97 ≤ c ∧ c ≤ 122 ∨ 48 ≤ c ∧ c ≤ 57 ∨ c = 43 ∨ c = 45 ∨ c = 46 ∨ c = 126

/-- A string has the syntax of a Debian version, with or without an epoch. -/
def DebianVersion (v : PyString) : Prop :=
  (∀ c ∈ v, VersionChar c) ∨
    ∃ epoch rest, v = epoch ++ 58 :: rest ∧ epoch ≠ [] ∧ (∀ c ∈ epoch, 48 ≤ c ∧ c ≤ 57) ∧
      ∀ c ∈ rest, VersionChar c

end Versions

end Xios
