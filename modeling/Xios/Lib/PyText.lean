import Mathlib.Algebra.Order.Ring.Nat
import Mathlib.Data.List.Basic
import Mathlib.Data.List.DropRight
import Mathlib.Data.List.TakeWhile

/-! Python strings as lists of code points, and what Python knows about characters. -/

abbrev PyString := List Nat

instance lawfulBEq_pyString : LawfulBEq PyString := inferInstance

def py (text : String) : PyString :=
  text.toList.map Char.toNat

def decimalValue (s : PyString) : Int :=
  s.foldl (fun value c => 10 * value + (c - 48 : Nat)) 0

/--
What a Python interpreter knows about characters and numbers.

Only what holds of every version is assumed: the classes of the ASCII characters, and that `int`
reads decimal numerals, with the interpreter's cap on their length switched off.
-/
structure PyText where
  -- The tests `isdigit`, `isalpha` and `isspace` of single characters.
  isDigit : Nat → Bool
  isAlpha : Nat → Bool
  isSpace : Nat → Bool
  -- The value of `int`, unless it raises an error.
  int : PyString → Option Int
  -- Classes of the ASCII characters.
  digit_ascii : ∀ c < 128, isDigit c = (48 ≤ c && c ≤ 57)
  alpha_ascii : ∀ c < 128, isAlpha c = (65 ≤ c && c ≤ 90 || 97 ≤ c && c ≤ 122)
  space_ascii : ∀ c < 128, isSpace c = (9 ≤ c && c ≤ 13 || 28 ≤ c && c ≤ 32)
  -- Decimal numerals are read.
  int_digits : ∀ s ≠ [], (∀ c ∈ s, 48 ≤ c ∧ c ≤ 57) →
    int s = some (decimalValue s)

namespace PyText

/-- Split a string at the first occurrence of a character, as `partition` does. -/
def cut (c : Nat) (s : PyString) : Option (PyString × PyString) :=
  if c ∈ s then some (s.takeWhile (· ≠ c), (s.dropWhile (· ≠ c)).drop 1) else none

def cutLast (c : Nat) (s : PyString) : Option (PyString × PyString) :=
  (cut c s.reverse).map fun parts => (parts.2.reverse, parts.1.reverse)

/-- Split a string at the first occurrence of two characters in a row. -/
def cutPair (a b : Nat) : PyString → Option (PyString × PyString)
  | c :: d :: s =>
    if c = a ∧ d = b then some ([], s)
    else (cutPair a b (d :: s)).map fun parts => (c :: parts.1, parts.2)
  | _ => none

def splitPairs (a : Nat) : PyString → List PyString
  | c :: d :: s =>
    if c = a ∧ d = a then [] :: splitPairs a s
    else (splitPairs a (d :: s)).modifyHead (c :: ·)
  | s => [s]

def stripOf (a : Nat) (s : PyString) : PyString :=
  ((s.dropWhile (· = a)).reverse.dropWhile (· = a)).reverse

def isLineBreak (c : Nat) : Bool :=
  10 ≤ c && c ≤ 13 || 28 ≤ c && c ≤ 30 || c = 133 || c = 8232 || c = 8233

def lines (s : PyString) : List PyString :=
  (s.splitOnP isLineBreak).filter (· ≠ [])

/-- What is read from a text file, in which every kind of line break becomes the same one. -/
def readLines : PyString → PyString
  | [] => []
  | 13 :: 10 :: s => 10 :: readLines s
  | c :: s => (if c = 13 then 10 else c) :: readLines s

def basename (path : PyString) : PyString :=
  ((cutLast 47 path).map Prod.snd).getD path

def strip (u : PyText) (s : PyString) : PyString :=
  ((s.dropWhile u.isSpace).reverse.dropWhile u.isSpace).reverse

def rstrip (u : PyText) (s : PyString) : PyString :=
  s.rdropWhile u.isSpace

def words (u : PyText) (s : PyString) : List PyString :=
  (s.splitOnP u.isSpace).filter (· ≠ [])

def isDigits (u : PyText) (s : PyString) : Bool :=
  !s.isEmpty && s.all u.isDigit

/-- The value of a decimal numeral, and of nothing else. -/
def asciiInt (s : PyString) : Option Int :=
  if s ≠ [] ∧ ∀ c ∈ s, 48 ≤ c ∧ c ≤ 57 then some (decimalValue s) else none

def numeral (n : Nat) : PyString :=
  py (toString n)

def ascii : PyText where
  isDigit c := 48 ≤ c && c ≤ 57
  isAlpha c := 65 ≤ c && c ≤ 90 || 97 ≤ c && c ≤ 122
  isSpace c := 9 ≤ c && c ≤ 13 || 28 ≤ c && c ≤ 32
  int := asciiInt
  digit_ascii _ _ := rfl
  alpha_ascii _ _ := rfl
  space_ascii _ _ := rfl
  int_digits _ nonempty digits := if_pos ⟨nonempty, digits⟩

variable {c : Nat} {s : PyString}

theorem cut_eq_none (absent : c ∉ s) : cut c s = none :=
  if_neg absent

theorem cut_append {rest : PyString} (absent : c ∉ s) :
    cut c (s ++ c :: rest) = some (s, rest) := by
  have before : ∀ d ∈ s, decide (d ≠ c) = true := by
    intro d member
    rw [decide_eq_true_iff]
    rintro rfl
    exact absent member
  unfold cut
  rw [if_pos (by simp), List.takeWhile_append_of_pos before, List.dropWhile_append_of_pos before]
  simp

theorem strip_eq {u : PyText} (solid : ∀ c ∈ s, u.isSpace c = false) : u.strip s = s := by
  have front : ∀ t : PyString, (∀ c ∈ t, u.isSpace c = false) → t.dropWhile u.isSpace = t := by
    intro t solid
    cases t with
    | nil => rfl
    | cons c t => rw [List.dropWhile_cons_of_neg (by simp [solid c])]
  unfold strip
  rw [front s solid, front _ (fun c member => solid c (List.mem_reverse.mp member)),
    List.reverse_reverse]

theorem strip_append {u : PyText} {blanks : PyString} (solid : ∀ c ∈ s, u.isSpace c = false)
    (blank : ∀ c ∈ blanks, u.isSpace c = true) : u.strip (s ++ blanks) = s := by
  unfold strip
  cases s with
  | nil =>
    have none : blanks.dropWhile u.isSpace = [] := List.dropWhile_eq_nil_iff.mpr blank
    rw [List.nil_append, none]
    rfl
  | cons c s =>
    have first : u.isSpace c = false := solid c List.mem_cons_self
    rw [List.cons_append, List.dropWhile_cons_of_neg (by simp [first]), ← List.cons_append,
      List.reverse_append, List.dropWhile_append_of_pos (by simpa using blank)]
    -- What is left does not end in white space.
    cases reversed : (c :: s).reverse with
    | nil => simp at reversed
    | cons d t =>
      have last : u.isSpace d = false := by
        apply solid d
        rw [← List.mem_reverse, reversed]
        exact List.mem_cons_self
      rw [List.dropWhile_cons_of_neg (by simp [last]), ← reversed, List.reverse_reverse]

variable {a : Nat}

theorem splitPairs_gapless {piece : PyString} (member : piece ∈ splitPairs a s) :
    ¬[a, a] <:+: piece := by
  -- The first piece may be continued by what stands before it, which is no such pair.
  have general : ∀ s : PyString, (∀ piece ∈ splitPairs a s, ¬[a, a] <:+: piece) ∧
      ∃ first rest, splitPairs a s = first :: rest ∧
        (first.head? = s.head? ∨ first = [] ∧ [a, a] <+: s) := by
    intro s
    fun_induction splitPairs a s with
    | case1 c d s pair ih =>
      obtain ⟨rfl, rfl⟩ := pair
      refine ⟨?_, [], _, rfl, Or.inr ⟨rfl, ⟨s, rfl⟩⟩⟩
      rw [List.forall_mem_cons]
      exact ⟨by simp, ih.1⟩
    | case2 c d s other ih =>
      obtain ⟨gapless, first, rest, pieces, begins⟩ := ih
      rw [pieces, List.forall_mem_cons] at gapless
      rw [pieces]
      refine ⟨?_, c :: first, rest, rfl, Or.inl rfl⟩
      rw [List.modifyHead_cons, List.forall_mem_cons]
      refine ⟨?_, gapless.2⟩
      rw [List.infix_cons_iff, not_or]
      refine ⟨?_, gapless.1⟩
      rw [List.cons_prefix_cons]
      rintro ⟨rfl, ends⟩
      obtain same | ⟨rfl, -⟩ := begins
      · cases first with
        | nil => simp at ends
        | cons e first => grind
      · simp at ends
    | case3 s short =>
      refine ⟨?_, s, [], rfl, Or.inl rfl⟩
      rw [List.forall_mem_singleton]
      intro pair
      obtain ⟨before, after, rfl⟩ := pair
      match before with
      | [] => exact short a a after rfl
      | [b] => exact short b a (a :: after) rfl
      | b :: b' :: before => exact short b b' (before ++ [a, a] ++ after) rfl
  exact (general s).1 piece member

theorem mem_of_mem_splitPairs {piece : PyString} (member : piece ∈ splitPairs a s)
    (char : c ∈ piece) : c ∈ s := by
  fun_induction splitPairs a s generalizing piece with
  | case1 d e s pair ih =>
    obtain rfl | later := List.mem_cons.mp member
    · cases char
    · exact List.mem_cons_of_mem _ (List.mem_cons_of_mem _ (ih later char))
  | case2 d e s other ih =>
    generalize splitPairs a (e :: s) = pieces at member ih
    cases pieces with
    | nil => cases member
    | cons first rest =>
      obtain rfl | later := List.mem_cons.mp member
      · obtain rfl | inside := List.mem_cons.mp char
        · exact List.mem_cons_self
        · exact List.mem_cons_of_mem _ (ih List.mem_cons_self inside)
      · exact List.mem_cons_of_mem _ (ih (List.mem_cons_of_mem _ later) char)
  | case3 s short =>
    rw [List.mem_singleton.mp member] at char
    exact char

theorem splitPairs_eq_singleton (gapless : ¬[a, a] <:+: s) : splitPairs a s = [s] := by
  fun_induction splitPairs a s with
  | case1 c d s pair ih =>
    obtain ⟨rfl, rfl⟩ := pair
    exact absurd ⟨[], s, rfl⟩ gapless
  | case2 c d s other ih =>
    rw [List.infix_cons_iff, not_or] at gapless
    rw [ih gapless.2, List.modifyHead_cons]
  | case3 s short => rfl

theorem splitPairs_append {rest : PyString} (gapless : ¬[a, a] <:+: s)
    (ends : s.getLast? ≠ some a) : splitPairs a (s ++ a :: a :: rest) = s :: splitPairs a rest := by
  induction s with
  | nil => simp [splitPairs]
  | cons c s ih =>
    rw [List.infix_cons_iff, not_or] at gapless
    cases s with
    | nil =>
      have other : c ≠ a := by simpa using ends
      simp [splitPairs, other]
    | cons d s =>
      have further : splitPairs a (d :: s ++ a :: a :: rest) = (d :: s) :: splitPairs a rest :=
        ih gapless.2 (by simpa using ends)
      have other : ¬(c = a ∧ d = a) := by
        rintro ⟨rfl, rfl⟩
        exact gapless.1 ⟨s, rfl⟩
      rw [List.cons_append, List.cons_append, splitPairs, if_neg other, ← List.cons_append, further,
        List.modifyHead_cons]

theorem stripOf_isInfix (a : Nat) (s : PyString) : stripOf a s <:+: s := by
  unfold stripOf
  have front : s.dropWhile (· = a) <:+ s := List.dropWhile_suffix _
  have back := (List.dropWhile_suffix (l := (s.dropWhile (· = a)).reverse) (· = a)).reverse
  rw [List.reverse_reverse] at back
  exact back.isInfix.trans front.isInfix

theorem getLast_stripOf (a : Nat) (s : PyString) : (stripOf a s).getLast? ≠ some a := by
  unfold stripOf
  rw [List.getLast?_reverse]
  intro ends
  have := List.head?_dropWhile_not (fun c => decide (c = a)) (s.dropWhile (· = a)).reverse
  simp [ends] at this

theorem head_stripOf (a : Nat) (s : PyString) : (stripOf a s).head? ≠ some a := by
  intro begins
  have further : (s.dropWhile (· = a)).head? = some a := by
    unfold stripOf at begins
    rw [List.head?_reverse] at begins
    generalize s.dropWhile (· = a) = t at begins ⊢
    have suffix := List.dropWhile_suffix (l := t.reverse) (· = a)
    obtain ⟨before, whole⟩ := suffix
    rw [← List.getLast?_reverse, ← whole, List.getLast?_append, begins]
    rfl
  have := List.head?_dropWhile_not (fun c => decide (c = a)) s
  simp [further] at this

theorem stripOf_eq (begins : s.head? ≠ some a) (ends : s.getLast? ≠ some a) : stripOf a s = s := by
  have front : ∀ t : PyString, t.head? ≠ some a → t.dropWhile (· = a) = t := by
    intro t begins
    cases t with
    | nil => rfl
    | cons c t =>
      have other : c ≠ a := by simpa using begins
      rw [List.dropWhile_cons_of_neg (by simpa using other)]
  unfold stripOf
  rw [front s begins, front s.reverse (by rwa [List.head?_reverse]), List.reverse_reverse]

theorem stripOf_append_singleton (begins : s.head? ≠ some a) (ends : s.getLast? ≠ some a)
    (nonempty : s ≠ []) : stripOf a (s ++ [a]) = s := by
  have same : stripOf a (s ++ [a]) = stripOf a s := by
    unfold stripOf
    cases s with
    | nil => exact absurd rfl nonempty
    | cons c s =>
      have other : c ≠ a := by simpa using begins
      rw [List.cons_append, List.dropWhile_cons_of_neg (by simpa using other),
        List.dropWhile_cons_of_neg (by simpa using other), ← List.cons_append, List.reverse_append,
        List.reverse_singleton, List.singleton_append,
        List.dropWhile_cons_of_pos (by simp)]
  rw [same, stripOf_eq begins ends]

/-- Joined pieces are split again where they were joined. -/
theorem splitPairs_intercalate {pieces : List PyString} (nonempty : pieces ≠ [])
    (gapless : ∀ piece ∈ pieces, ¬[a, a] <:+: piece)
    (begins : ∀ piece ∈ pieces, piece.head? ≠ some a)
    (ends : ∀ piece ∈ pieces, piece.getLast? ≠ some a) (filled : ∀ piece ∈ pieces, piece ≠ []) :
    (splitPairs a ([a, a].intercalate pieces ++ [a])).map (stripOf a) = pieces := by
  induction pieces with
  | nil => exact absurd rfl nonempty
  | cons piece pieces ih =>
    rw [List.forall_mem_cons] at gapless begins ends filled
    cases pieces with
    | nil =>
      -- The last piece has the character after it, which doubles nothing.
      have single : ¬[a, a] <:+: piece ++ [a] := by
        intro gap
        rw [List.infix_concat_iff] at gap
        rcases gap with ⟨before, whole⟩ | inside
        · have last : piece = before ++ [a] := by
            have := congrArg List.dropLast whole
            rw [List.dropLast_concat] at this
            rw [← this]
            simp
          apply ends.1
          rw [last]
          simp
        · exact gapless.1 inside
      rw [List.intercalate_singleton, splitPairs_eq_singleton single, List.map_singleton,
        stripOf_append_singleton begins.1 ends.1 filled.1]
    | cons next pieces =>
      have rest := ih (List.cons_ne_nil _ _) gapless.2 begins.2 ends.2 filled.2
      rw [List.intercalate_cons_cons, List.append_assoc, List.append_assoc, List.cons_append,
        List.cons_append, List.nil_append, splitPairs_append gapless.1 ends.1, List.map_cons,
        stripOf_eq begins.1 ends.1]
      exact congrArg (piece :: ·) rest

theorem filterMap_attachWith {α β γ : Type*} {P : α → Prop} {read : { a // P a } → Option β}
    {f : α → γ} {g : β → γ} (reads : ∀ piece b, f piece.1 = g b → read piece = some b)
    {pieces : List α} {values : List β} (same : pieces.map f = values.map g)
    (valid : ∀ piece ∈ pieces, P piece) : (pieces.attachWith P valid).filterMap read = values := by
  induction pieces generalizing values with
  | nil =>
    cases values with
    | nil => rfl
    | cons b values => cases same
  | cons piece pieces ih =>
    cases values with
    | nil => cases same
    | cons b values =>
      rw [List.map_cons, List.map_cons, List.cons.injEq] at same
      have first : read ⟨piece, valid piece List.mem_cons_self⟩ = some b := reads _ _ same.1
      rw [List.attachWith_cons, List.filterMap_cons, first]
      exact congrArg (b :: ·) (ih same.2 _)

theorem not_mem_readLines (s : PyString) : 13 ∉ readLines s := by
  fun_induction readLines s with
  | case1 => simp
  | case2 s ih => simp [ih]
  | case3 c s other ih => split <;> simp_all [eq_comm]

theorem readLines_eq (clean : 13 ∉ s) : readLines s = s := by
  fun_induction readLines s with
  | case1 => rfl
  | case2 s ih => simp at clean
  | case3 c s other ih =>
    rw [List.mem_cons, not_or] at clean
    rw [if_neg (Ne.symm clean.1), ih clean.2]

theorem numeral_eq (n : Nat) : numeral n = (Nat.toDigits 10 n).map Char.toNat := by
  unfold numeral py
  rw [Nat.toString_eq_ofList_toDigits, String.toList_ofList]

theorem numeral_ne_nil (n : Nat) : numeral n ≠ [] := by
  rw [numeral_eq, Ne, List.map_eq_nil_iff]
  exact Nat.toDigits_ne_nil

theorem digit_of_mem_numeral {n : Nat} (member : c ∈ numeral n) : 48 ≤ c ∧ c ≤ 57 := by
  rw [numeral_eq] at member
  obtain ⟨digit, inside, rfl⟩ := List.mem_map.mp member
  have isDigit := Nat.isDigit_of_mem_toDigits (by decide) (by decide) inside
  simpa [Char.isDigit, UInt32.le_iff_toNat_le] using isDigit

theorem length_numeral_le {n k : Nat} (positive : 0 < k) :
    (numeral n).length ≤ k ↔ n < 10 ^ k := by
  rw [numeral_eq, List.length_map, Nat.length_toDigits_le_iff (by decide) positive]

theorem decimalValue_numeral (n : Nat) : decimalValue (numeral n) = n := by
  have general : ∀ (digits : List Char) (value : Nat),
      (digits.map Char.toNat).foldl (fun (value : Int) c => 10 * value + (c - 48 : Nat)) value =
        (Nat.ofDigitChars 10 digits value : Int) := by
    intro digits
    induction digits with
    | nil => simp
    | cons digit digits ih =>
      intro value
      rw [List.map_cons, List.foldl_cons, Nat.ofDigitChars_cons]
      exact_mod_cast ih _
  unfold decimalValue
  rw [numeral_eq]
  have := general (Nat.toDigits 10 n) 0
  rw [Nat.ofDigitChars_ten_toDigits] at this
  exact this

end PyText
