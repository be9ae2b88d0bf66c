import Mathlib.Data.List.DropRight
import Xios.Lib.PyText

/-! Texts that are split at some characters, and put after one another. -/

namespace Splitting

variable {α : Type*}

theorem splitOnP_append (p : α → Bool) (s : List α) : ∃ pieces last,
    s.splitOnP p = pieces ++ [last] ∧
      ∀ more, (s ++ more).splitOnP p = pieces ++ (more.splitOnP p).modifyHead (last ++ ·) := by
  induction s with
  | nil =>
    refine ⟨[], [], by simp, fun more => ?_⟩
    rw [List.nil_append, List.nil_append]
    cases more.splitOnP p <;> rfl
  | cons c s ih =>
    obtain ⟨pieces, last, whole, further⟩ := ih
    by_cases ends : p c = true
    · -- The character begins a new piece.
      refine ⟨[] :: pieces, last, ?_, fun more => ?_⟩
      · rw [List.splitOnP_cons_eq_if_modifyHead, if_pos ends, whole, List.cons_append]
      · rw [List.cons_append, List.splitOnP_cons_eq_if_modifyHead, if_pos ends, further,
          List.cons_append]
    · cases pieces with
      | nil =>
        refine ⟨[], c :: last, ?_, fun more => ?_⟩
        · rw [List.splitOnP_cons_eq_if_modifyHead, if_neg ends, whole]
          rfl
        · rw [List.cons_append, List.splitOnP_cons_eq_if_modifyHead, if_neg ends, further]
          cases more.splitOnP p <;> rfl
      | cons piece pieces =>
        refine ⟨(c :: piece) :: pieces, last, ?_, fun more => ?_⟩
        · rw [List.splitOnP_cons_eq_if_modifyHead, if_neg ends, whole]
          rfl
        · rw [List.cons_append, List.splitOnP_cons_eq_if_modifyHead, if_neg ends, further]
          rfl

variable {p : α → Bool} {s piece : List α} {c : α}

theorem mem_piece_splitOnP (member : piece ∈ s.splitOnP p) (inside : c ∈ piece) :
    c ∈ s ∧ p c = false := by
  induction s generalizing piece with
  | nil =>
    rw [List.splitOnP_nil, List.mem_singleton] at member
    rw [member] at inside
    cases inside
  | cons d s ih =>
    rw [List.splitOnP_cons_eq_if_modifyHead] at member
    split at member
    · rcases List.mem_cons.mp member with rfl | later
      · cases inside
      · exact (ih later inside).imp_left (List.mem_cons_of_mem _)
    · rename_i other
      obtain ⟨first, rest, split⟩ := List.exists_cons_of_ne_nil (List.splitOnP_ne_nil p s)
      rw [split] at ih member
      rcases List.mem_cons.mp member with rfl | later
      · rcases List.mem_cons.mp inside with rfl | further
        · exact ⟨List.mem_cons_self, by simpa using other⟩
        · exact (ih List.mem_cons_self further).imp_left (List.mem_cons_of_mem _)
      · exact (ih (List.mem_cons_of_mem _ later) inside).imp_left (List.mem_cons_of_mem _)

variable {q : α → Bool}

theorem countP_splitOnP (apart : ∀ c, p c = true → q c = false) (s : List α) :
    s.countP q = ((s.splitOnP p).map (List.countP q)).sum := by
  induction s with
  | nil => rfl
  | cons c s ih =>
    rw [List.splitOnP_cons_eq_if_modifyHead, List.countP_cons, ih]
    by_cases ends : p c = true
    · simp [ends, apart c ends]
    · obtain ⟨first, rest, split⟩ := List.exists_cons_of_ne_nil (List.splitOnP_ne_nil p s)
      rw [if_neg ends, split, List.modifyHead_cons, List.map_cons, List.map_cons, List.sum_cons,
        List.sum_cons, List.countP_cons]
      omega

theorem countP_splitOnP_succ (counted : ∀ c, p c = true → q c = true) (s : List α) :
    s.countP q + 1 = ((s.splitOnP p).map fun piece => piece.countP q + 1).sum := by
  induction s with
  | nil => rfl
  | cons c s ih =>
    rw [List.splitOnP_cons_eq_if_modifyHead, List.countP_cons]
    by_cases ends : p c = true
    · rw [if_pos ends, List.map_cons, List.sum_cons, ← ih, if_pos (counted c ends),
        List.countP_nil]
      omega
    · obtain ⟨first, rest, split⟩ := List.exists_cons_of_ne_nil (List.splitOnP_ne_nil p s)
      rw [split, List.map_cons, List.sum_cons] at ih
      rw [if_neg ends, split, List.modifyHead_cons, List.map_cons, List.sum_cons,
        List.countP_cons]
      omega

theorem flatMap_splitOn [BEq α] (a b : α) (s : List α) :
    (s.splitOn a).flatMap (·.splitOn b) = s.splitOnP fun c => c == a || c == b := by
  simp only [List.splitOn_eq_splitOnP]
  induction s with
  | nil => rfl
  | cons c s ih =>
    rw [List.splitOnP_cons_eq_if_modifyHead, List.splitOnP_cons_eq_if_modifyHead, ← ih]
    by_cases first : (c == a) = true
    · simp [first]
    · have pieces := List.splitOnP_ne_nil (· == a) s
      cases split : s.splitOnP (· == a) with
      | nil => exact absurd split pieces
      | cons piece rest =>
        rw [if_neg first, List.modifyHead_cons, List.flatMap_cons, List.flatMap_cons,
          List.splitOnP_cons_eq_if_modifyHead]
        have pieces' := List.splitOnP_ne_nil (· == b) piece
        by_cases second : (c == b) = true
        · simp [second]
        · cases split' : piece.splitOnP (· == b) with
          | nil => exact absurd split' pieces'
          | cons piece' rest' => simp [first, second]

/-- Split a list at any two items of some kind in a row. -/
def splitPairs (p : α → Bool) : List α → List (List α)
  | c :: d :: s =>
    if p c = true ∧ p d = true then [] :: splitPairs p s
    else (splitPairs p (d :: s)).modifyHead (c :: ·)
  | s => [s]

/-- Take items of some kind away from both ends. -/
def strip (p : α → Bool) (s : List α) : List α :=
  ((s.dropWhile p).reverse.dropWhile p).reverse

end Splitting

namespace PyText

variable {u : PyText}

variable {c : Nat}

theorem words_append_cons (space : u.isSpace c = true) (s more : PyString) :
    u.words (s ++ c :: more) = u.words s ++ u.words more := by
  unfold words
  rw [List.splitOnP_append_cons _ _ space, List.filter_append]

theorem words_cons (space : u.isSpace c = true) (s : PyString) : u.words (c :: s) = u.words s :=
  words_append_cons space [] s

theorem words_concat (space : u.isSpace c = true) (s : PyString) : u.words (s ++ [c]) = u.words s :=
  (words_append_cons space s []).trans (List.append_nil _)

theorem words_rstrip (s : PyString) : u.words (u.rstrip s) = u.words s := by
  unfold rstrip
  induction s using List.reverseRecOn with
  | nil => rfl
  | append_singleton s c ih =>
    by_cases space : u.isSpace c = true
    · rw [List.rdropWhile_concat_pos _ _ _ space, ih, words_concat space]
    · rw [List.rdropWhile_concat_neg _ _ _ space]

theorem words_strip (s : PyString) : u.words (u.strip s) = u.words s := by
  have front : ∀ s : PyString, u.words (s.dropWhile u.isSpace) = u.words s := by
    intro s
    induction s with
    | nil => rfl
    | cons c s ih =>
      by_cases space : u.isSpace c = true
      · rw [List.dropWhile_cons_of_pos space, ih, words_cons space]
      · rw [List.dropWhile_cons_of_neg space]
  have back := words_rstrip (u := u) (s.dropWhile u.isSpace)
  unfold rstrip List.rdropWhile at back
  unfold strip
  rw [back, front]

variable {s : PyString}

theorem exists_mem_words (member : c ∈ s) (solid : u.isSpace c = false) :
    ∃ word ∈ u.words s, c ∈ word := by
  induction s with
  | nil => cases member
  | cons d s ih =>
    by_cases space : u.isSpace d = true
    · rw [words_cons space]
      rcases List.mem_cons.mp member with rfl | later
      · rw [solid] at space
        cases space
      · exact ih later
    · unfold words at ih ⊢
      rw [List.splitOnP_cons_eq_if_modifyHead, if_neg space]
      obtain ⟨first, rest, split⟩ :=
        List.exists_cons_of_ne_nil (List.splitOnP_ne_nil u.isSpace s)
      rw [split] at ih ⊢
      rw [List.modifyHead_cons, List.filter_cons_of_pos (by simp)]
      rcases List.mem_cons.mp member with rfl | later
      · exact ⟨_, List.mem_cons_self, List.mem_cons_self⟩
      · obtain ⟨word, inside, found⟩ := ih later
        rw [List.mem_filter] at inside
        rcases List.mem_cons.mp inside.1 with rfl | further
        · exact ⟨_, List.mem_cons_self, List.mem_cons_of_mem _ found⟩
        · refine ⟨word, List.mem_cons_of_mem _ ?_, found⟩
          rw [List.mem_filter]
          exact ⟨further, inside.2⟩

theorem length_words (s : PyString) :
    s.countP (fun c => !u.isSpace c) = ((u.words s).map List.length).sum := by
  have whole := Splitting.countP_splitOnP (p := u.isSpace) (q := fun c => !u.isSpace c)
    (fun c space => by simp [space]) s
  have solid : ∀ piece ∈ s.splitOnP u.isSpace,
      piece.countP (fun c => !u.isSpace c) = piece.length := by
    intro piece member
    rw [List.countP_eq_length]
    intro c inside
    simpa using (Splitting.mem_piece_splitOnP member inside).2
  rw [whole, List.map_congr_left solid]
  unfold words
  generalize s.splitOnP u.isSpace = pieces
  induction pieces with
  | nil => rfl
  | cons piece pieces ih =>
    rw [List.map_cons, List.sum_cons, ih, List.filter_cons]
    cases piece <;> simp

theorem rstrip_append_cons (solid : u.isSpace c = false) (s t : PyString) :
    u.rstrip (s ++ c :: t) = s ++ c :: u.rstrip t := by
  unfold rstrip
  induction t using List.reverseRecOn with
  | nil => rw [List.rdropWhile_concat_neg _ _ _ (by simp [solid]), List.rdropWhile_nil]
  | append_singleton t d ih =>
    have whole : s ++ c :: (t ++ [d]) = s ++ c :: t ++ [d] := by simp
    rw [whole]
    by_cases space : u.isSpace d = true
    · rw [List.rdropWhile_concat_pos _ _ _ space, List.rdropWhile_concat_pos _ _ _ space, ih]
    · rw [List.rdropWhile_concat_neg _ _ _ space, List.rdropWhile_concat_neg _ _ _ space, whole]

variable {a b : Nat} {front : PyString}

theorem cutPair_eq_some {rest : PyString} (split : cutPair a b s = some (front, rest)) :
    s = front ++ a :: b :: rest ∧ ¬[a, b] <:+: front := by
  fun_induction cutPair a b s generalizing front with
  | case1 c d s pair =>
    obtain ⟨rfl, rfl⟩ := pair
    obtain ⟨rfl, rfl⟩ := Prod.mk.inj (Option.some.inj split)
    exact ⟨rfl, by simp⟩
  | case2 c d s other ih =>
    obtain ⟨⟨front', rest'⟩, further, same⟩ := Option.map_eq_some_iff.mp split
    obtain ⟨rfl, rfl⟩ := Prod.mk.inj same
    obtain ⟨whole, gapless⟩ := ih further
    refine ⟨by rw [whole, List.cons_append], ?_⟩
    rw [List.infix_cons_iff, not_or]
    refine ⟨?_, gapless⟩
    rintro ⟨after, begins⟩
    -- The pair would stand at the place that was looked at.
    cases front' with
    | nil => simp at begins
    | cons e front' =>
      obtain ⟨rfl, rfl, -⟩ : a = c ∧ b = e ∧ after = front' := by simpa using begins
      rw [List.cons_append, List.cons.injEq] at whole
      exact other ⟨rfl, whole.1⟩
  | case3 s short => cases split

theorem cutPair_append (differ : a ≠ b) (rest : PyString) (gapless : ¬[a, b] <:+: front) :
    cutPair a b (front ++ a :: b :: rest) = some (front, rest) := by
  induction front with
  | nil => simp [cutPair]
  | cons c front ih =>
    rw [List.infix_cons_iff, not_or] at gapless
    have further := ih gapless.2
    cases front with
    | nil =>
      rw [List.nil_append] at further
      rw [List.cons_append, List.nil_append, cutPair, if_neg (fun pair => differ pair.2), further]
      rfl
    | cons d front =>
      have other : ¬(c = a ∧ d = b) := by
        rintro ⟨rfl, rfl⟩
        exact gapless.1 ⟨front, rfl⟩
      rw [List.cons_append] at further
      rw [List.cons_append, List.cons_append, cutPair, if_neg other, further]
      rfl

theorem lines_append_cons (ends : isLineBreak c = true) (s more : PyString) :
    lines (s ++ c :: more) = lines s ++ lines more := by
  unfold lines
  rw [List.splitOnP_append_cons _ _ ends, List.filter_append]

theorem lines_stripOf (ends : isLineBreak c = true) (s : PyString) :
    lines (stripOf c s) = lines s := by
  have front : ∀ s : PyString, lines (s.dropWhile (· = c)) = lines s := by
    intro s
    induction s with
    | nil => rfl
    | cons d s ih =>
      by_cases same : d = c
      · subst same
        rw [List.dropWhile_cons_of_pos (by simp), ih]
        exact (lines_append_cons ends [] s).symm
      · rw [List.dropWhile_cons_of_neg (by simpa using same)]
  have back : ∀ s : PyString, lines (s.rdropWhile (· = c)) = lines s := by
    intro s
    induction s using List.reverseRecOn with
    | nil => rfl
    | append_singleton s d ih =>
      by_cases same : d = c
      · subst same
        rw [List.rdropWhile_concat_pos _ _ _ (by simp), ih]
        exact ((lines_append_cons ends s []).trans (List.append_nil _)).symm
      · rw [List.rdropWhile_concat_neg _ _ _ (by simpa using same)]
  have whole := back (s.dropWhile (· = c))
  unfold List.rdropWhile at whole
  unfold stripOf
  rw [whole, front]

theorem lines_eq_singleton (single : ∀ c ∈ s, isLineBreak c = false) (filled : s ≠ []) :
    lines s = [s] := by
  unfold lines
  rw [List.splitOnP_eq_singleton (by simpa using single)]
  simp [filled]

variable {pieces : List PyString}

theorem lines_intercalate (filled : ∀ piece ∈ pieces, piece ≠ [])
    (single : ∀ piece ∈ pieces, ∀ c ∈ piece, isLineBreak c = false) :
    lines ([10].intercalate pieces) = pieces := by
  induction pieces with
  | nil => rfl
  | cons piece pieces ih =>
    rw [List.forall_mem_cons] at filled single
    have first := lines_eq_singleton single.1 filled.1
    cases pieces with
    | nil => rw [List.intercalate_singleton, first]
    | cons next pieces =>
      rw [List.intercalate_cons_cons, List.append_assoc, List.singleton_append,
        lines_append_cons (by decide), first, ih filled.2 single.2, List.singleton_append]

theorem of_mem_lines {ln : PyString} (member : ln ∈ lines s) (inside : c ∈ ln) :
    isLineBreak c = false :=
  (Splitting.mem_piece_splitOnP (List.mem_of_mem_filter member) inside).2

theorem gapless_intercalate (nonempty : pieces ≠ []) (filled : ∀ piece ∈ pieces, piece ≠ [])
    (absent : ∀ piece ∈ pieces, a ∉ piece) :
    ¬[a, a] <:+: [a].intercalate pieces ∧ ([a].intercalate pieces).head? ≠ some a ∧
      ([a].intercalate pieces).getLast? ≠ some a ∧ [a].intercalate pieces ≠ [] := by
  -- A text with the character nowhere can be put before others.
  have joined : ∀ s : PyString, a ∉ s → ∀ more : PyString, more.head? ≠ some a →
      ¬[a, a] <:+: more → ¬[a, a] <:+: s ++ a :: more := by
    intro s
    induction s with
    | nil =>
      intro _ more begins gapless
      rw [List.nil_append, List.infix_cons_iff, not_or]
      refine ⟨?_, gapless⟩
      rintro ⟨after, whole⟩
      apply begins
      rw [← (List.cons.inj whole).2]
      rfl
    | cons c s ih =>
      intro absent more begins gapless
      rw [List.mem_cons, not_or] at absent
      rw [List.cons_append, List.infix_cons_iff, not_or]
      refine ⟨?_, ih absent.2 more begins gapless⟩
      rintro ⟨after, whole⟩
      exact absent.1 (List.cons.inj whole).1
  induction pieces with
  | nil => exact absurd rfl nonempty
  | cons piece pieces ih =>
    rw [List.forall_mem_cons] at filled absent
    have begins : ∀ more : PyString, (piece ++ more).head? ≠ some a := by
      intro more head
      rw [List.head?_append_of_ne_nil _ filled.1] at head
      exact absent.1 (List.mem_of_head? head)
    cases pieces with
    | nil =>
      rw [List.intercalate_singleton]
      refine ⟨fun gap => absent.1 (gap.subset List.mem_cons_self), ?_, ?_, filled.1⟩
      · simpa using begins []
      · exact fun last => absent.1 (List.mem_of_getLast? last)
    | cons next pieces =>
      obtain ⟨gapless, begins', ends, filled'⟩ := ih (List.cons_ne_nil _ _) filled.2 absent.2
      rw [List.intercalate_cons_cons, List.append_assoc, List.singleton_append]
      refine ⟨joined piece absent.1 _ begins' gapless, begins _, ?_, by simp⟩
      rwa [List.getLast?_append_of_ne_nil _ (List.cons_ne_nil _ _), List.getLast?_cons_of_ne_nil filled']

end PyText
