import Xios.Debs.Control
import Xios.Lib.Splitting

/-! The clauses of a dependency field, and what is missing among them. -/

namespace Xios

namespace StampMinos

section

variable (u : PyText)

def clauses (text : PyString) : List (List PyString) :=
  (text.splitOn 44).map u.words

def mentioned (text : PyString) : List PyString :=
  ((text.splitOn 44).flatMap fun part => part.splitOn 124).filterMap (alternativeName u)

def missing (adds : List PyString) (text : PyString) : List PyString :=
  adds.filter (· ∉ mentioned u text)

/-- No alternative of a dependency field lacks a name before a parenthesis. -/
def Readable (text : PyString) : Prop :=
  ∀ alt ∈ (text.splitOn 44).flatMap fun part => part.splitOn 124, (u.strip alt).head? ≠ some 40

/-- A word that is a whole clause. -/
structure Plain (word : PyString) : Prop where
  nonempty : word ≠ []
  solid : ∀ c ∈ word, u.isSpace c = false ∧ c ≠ 44 ∧ c ≠ 124 ∧ c ≠ 40

def weight (text : PyString) : Nat :=
  text.countP fun c => !u.isSpace c

variable {u}

theorem isSpace_comma : u.isSpace 44 = false := by
  rw [u.space_ascii 44 (by decide)]
  rfl

theorem isSpace_break : u.isSpace 10 = true := by
  rw [u.space_ascii 10 (by decide)]
  rfl

theorem clauses_comma (s more : PyString) :
    clauses u (s ++ 44 :: more) = clauses u s ++ clauses u more := by
  unfold clauses
  rw [List.splitOn_eq_splitOnP, List.splitOnP_append_cons _ _ (by simp), List.map_append,
    ← List.splitOn_eq_splitOnP, ← List.splitOn_eq_splitOnP]

variable {c : Nat}

theorem clauses_space (space : u.isSpace c = true) (s more : PyString) :
    ∃ before last first after, clauses u s = before ++ [last] ∧
      clauses u more = first :: after ∧
      clauses u (s ++ c :: more) = before ++ (last ++ first) :: after := by
  have other : (c == 44) = false := by
    rw [beq_eq_false_iff_ne]
    rintro rfl
    rw [isSpace_comma] at space
    cases space
  obtain ⟨pieces, last, whole, further⟩ := Splitting.splitOnP_append (· == 44) s
  obtain ⟨first, after, split⟩ :=
    List.exists_cons_of_ne_nil (List.splitOnP_ne_nil (· == 44) more)
  refine ⟨pieces.map u.words, u.words last, u.words first, after.map u.words, ?_, ?_, ?_⟩
  · unfold clauses
    rw [List.splitOn_eq_splitOnP, whole]
    simp
  · unfold clauses
    rw [List.splitOn_eq_splitOnP, split]
    rfl
  · unfold clauses
    rw [List.splitOn_eq_splitOnP, further, List.splitOnP_cons_eq_if_modifyHead, other, split]
    simp [PyText.words_append_cons space]

theorem clauses_rstrip (s : PyString) : clauses u (u.rstrip s) = clauses u s := by
  unfold PyText.rstrip
  induction s using List.reverseRecOn with
  | nil => rfl
  | append_singleton s c ih =>
    by_cases space : u.isSpace c = true
    · obtain ⟨before, last, first, after, whole, none, further⟩ := clauses_space space s []
      obtain ⟨rfl, rfl⟩ : [] = first ∧ [] = after := by
        simpa [clauses, PyText.words] using none
      rw [List.rdropWhile_concat_pos _ _ _ space, ih, whole, further, List.append_nil]
    · rw [List.rdropWhile_concat_neg _ _ _ space]

variable {w : PyString}

theorem Plain.words (plain : Plain u w) : u.words w = [w] := by
  unfold PyText.words
  rw [List.splitOnP_eq_singleton fun c member => (plain.solid c member).1]
  simp [plain.nonempty]

variable {ws : List PyString}

theorem mem_commaList (member : c ∈ commaList ws) : c = 44 ∨ c = 32 ∨ ∃ w ∈ ws, c ∈ w := by
  unfold commaList at member
  induction ws with
  | nil => cases member
  | cons w ws ih =>
    cases ws with
    | nil =>
      rw [List.intercalate_singleton] at member
      exact Or.inr (Or.inr ⟨w, List.mem_cons_self, member⟩)
    | cons w' ws =>
      rw [List.intercalate_cons_cons, List.append_assoc, List.mem_append,
        List.mem_append] at member
      rcases member with first | between | later
      · exact Or.inr (Or.inr ⟨w, List.mem_cons_self, first⟩)
      · rcases List.mem_cons.mp between with comma | blank
        · exact Or.inl comma
        · exact Or.inr (Or.inl (List.mem_singleton.mp blank))
      · rcases ih later with comma | blank | ⟨v, inside, there⟩
        · exact Or.inl comma
        · exact Or.inr (Or.inl blank)
        · exact Or.inr (Or.inr ⟨v, List.mem_cons_of_mem _ inside, there⟩)

theorem clauses_commaList (nonempty : ws ≠ []) (plain : ∀ w ∈ ws, Plain u w) :
    clauses u (32 :: commaList ws) = ws.map fun w => [w] := by
  have space : u.isSpace 32 = true := by
    rw [u.space_ascii 32 (by decide)]
    rfl
  -- A word after a blank is a clause of its own.
  have single : ∀ {w}, Plain u w → clauses u (32 :: w) = [[w]] := by
    intro w plain
    have inside : ∀ c ∈ 32 :: w, (c == 44) = false := by
      rw [List.forall_mem_cons]
      refine ⟨rfl, fun c member => ?_⟩
      rw [beq_eq_false_iff_ne]
      exact (plain.solid c member).2.1
    unfold clauses
    rw [List.splitOn_eq_splitOnP, List.splitOnP_eq_singleton inside, List.map_singleton,
      PyText.words_cons space, plain.words]
  unfold commaList
  induction ws with
  | nil => exact absurd rfl nonempty
  | cons w ws ih =>
    rw [List.forall_mem_cons] at plain
    cases ws with
    | nil =>
      rw [List.intercalate_singleton]
      exact single plain.1
    | cons w' ws =>
      have rest := ih (List.cons_ne_nil _ _) plain.2
      rw [List.intercalate_cons_cons, List.append_assoc]
      change clauses u ((32 :: w) ++ 44 :: 32 :: (py ", ").intercalate (w' :: ws)) = _
      rw [clauses_comma, single plain.1, rest]
      rfl

theorem commaList_ends (nonempty : ws ≠ []) (plain : ∀ w ∈ ws, Plain u w) :
    ∃ front c, commaList ws = front ++ [c] ∧ u.isSpace c = false := by
  induction ws with
  | nil => exact absurd rfl nonempty
  | cons w ws ih =>
    rw [List.forall_mem_cons] at plain
    unfold commaList at ih ⊢
    cases ws with
    | nil =>
      have whole := List.dropLast_append_getLast plain.1.nonempty
      rw [List.intercalate_singleton]
      exact ⟨_, _, whole.symm, (plain.1.solid _ (List.getLast_mem plain.1.nonempty)).1⟩
    | cons w' ws =>
      obtain ⟨front, c, whole, ends⟩ := ih (List.cons_ne_nil _ _) plain.2
      rw [List.intercalate_cons_cons, whole]
      exact ⟨w ++ py ", " ++ front, c, by simp, ends⟩

theorem rstrip_commaList (nonempty : ws ≠ []) (plain : ∀ w ∈ ws, Plain u w) (s : PyString) :
    u.rstrip (s ++ commaList ws) = s ++ commaList ws := by
  obtain ⟨front, c, whole, ends⟩ := commaList_ends nonempty plain
  have last : s ++ commaList ws = (s ++ front) ++ c :: [] := by
    rw [whole, List.append_assoc]
  rw [last, PyText.rstrip_append_cons ends]
  rfl

theorem weight_succ (s : PyString) : weight u s + 1 =
    ((clauses u s).map fun words => (words.map List.length).sum + 1).sum := by
  unfold weight clauses
  rw [List.splitOn_eq_splitOnP, Splitting.countP_splitOnP_succ (p := (· == 44)), List.map_map]
  · congr 1
    apply List.map_congr_left
    intro piece _
    rw [PyText.length_words]
    rfl
  · intro c comma
    obtain rfl : c = 44 := by simpa using comma
    rw [isSpace_comma]
    rfl

variable {s : PyString}

theorem weight_add {t : PyString} (added : clauses u t = clauses u s ++ ws.map fun w => [w]) :
    weight u t = weight u s + (ws.map fun w => w.length + 1).sum := by
  have before := weight_succ (u := u) s
  have after := weight_succ (u := u) t
  rw [added, List.map_append, List.sum_append, ← before, List.map_map] at after
  simp only [Function.comp_def, List.map_singleton, List.sum_singleton] at after
  omega

theorem ne_of_isSpace (space : u.isSpace c = true) : c ≠ 40 := by
  rintro rfl
  rw [u.space_ascii 40 (by decide)] at space
  cases space

theorem alternativeName_eq (alt : PyString) :
    alternativeName u alt = (u.words (alt.takeWhile (· ≠ 40))).head? := by
  -- White space is stripped at both ends before words are split off, which does not matter.
  have front : ∀ s : PyString, u.words ((s.dropWhile u.isSpace).takeWhile (· ≠ 40)) =
      u.words (s.takeWhile (· ≠ 40)) := by
    intro s
    induction s with
    | nil => rfl
    | cons c s ih =>
      by_cases space : u.isSpace c = true
      · rw [List.dropWhile_cons_of_pos space, ih,
          List.takeWhile_cons_of_pos (by simpa using ne_of_isSpace space), PyText.words_cons space]
      · rw [List.dropWhile_cons_of_neg space]
  have back : ∀ s : PyString, u.words ((s.rdropWhile u.isSpace).takeWhile (· ≠ 40)) =
      u.words (s.takeWhile (· ≠ 40)) := by
    intro s
    induction s using List.reverseRecOn with
    | nil => rfl
    | append_singleton s c ih =>
      by_cases space : u.isSpace c = true
      · rw [List.rdropWhile_concat_pos _ _ _ space, ih, List.takeWhile_append]
        split
        · rename_i all
          have whole : s.takeWhile (· ≠ 40) = s :=
            (List.takeWhile_prefix _).eq_of_length all
          rw [whole, List.takeWhile_cons_of_pos (by simpa using ne_of_isSpace space),
            List.takeWhile_nil, PyText.words_concat space]
        · rfl
      · rw [List.rdropWhile_concat_neg _ _ _ space]
  unfold alternativeName
  rw [PyText.words_strip]
  change (u.words (((alt.dropWhile u.isSpace).rdropWhile u.isSpace).takeWhile _)).head? = _
  rw [back, front]

theorem alternative_concat (space : u.isSpace c = true) (alt : PyString) :
    alternativeName u (alt ++ [c]) = alternativeName u alt ∧
      (u.strip (alt ++ [c])).head? = (u.strip alt).head? := by
  constructor
  · rw [alternativeName_eq, alternativeName_eq, List.takeWhile_append]
    split
    · rename_i all
      have same : alt.takeWhile (· ≠ 40) = alt := (List.takeWhile_prefix _).eq_of_length all
      rw [List.takeWhile_cons_of_pos (by simpa using ne_of_isSpace space), List.takeWhile_nil,
        PyText.words_concat space, same]
    · rfl
  · -- The white space is stripped first, or it stands after what is kept.
    unfold PyText.strip
    rw [List.dropWhile_append]
    split
    · rename_i blank
      rw [List.isEmpty_iff] at blank
      rw [blank, List.dropWhile_cons_of_pos space]
      rfl
    · change ((alt.dropWhile u.isSpace ++ [c]).rdropWhile u.isSpace).head? =
        ((alt.dropWhile u.isSpace).rdropWhile u.isSpace).head?
      rw [List.rdropWhile_concat_pos _ _ _ space]

theorem mentioned_comma (s more : PyString) :
    mentioned u (s ++ 44 :: more) = mentioned u s ++ mentioned u more := by
  unfold mentioned
  rw [List.splitOn_eq_splitOnP, List.splitOnP_append_cons _ _ (by simp), List.flatMap_append,
    List.filterMap_append, ← List.splitOn_eq_splitOnP, ← List.splitOn_eq_splitOnP]

theorem readable_comma (s more : PyString) :
    Readable u (s ++ 44 :: more) ↔ Readable u s ∧ Readable u more := by
  unfold Readable
  rw [List.splitOn_eq_splitOnP, List.splitOnP_append_cons _ _ (by simp), List.flatMap_append,
    List.forall_mem_append, ← List.splitOn_eq_splitOnP, ← List.splitOn_eq_splitOnP]

theorem mentioned_rstrip (s : PyString) : mentioned u (u.rstrip s) = mentioned u s ∧
    (Readable u (u.rstrip s) ↔ Readable u s) := by
  unfold PyText.rstrip
  -- The induction is on the end of the text, where white space goes to the last alternative.
  induction s using List.reverseRecOn with
  | nil => exact ⟨rfl, Iff.rfl⟩
  | append_singleton s c ih =>
    by_cases space : u.isSpace c = true
    · rw [List.rdropWhile_concat_pos _ _ _ space, ih.1, ih.2]
      obtain ⟨pieces, last, whole, further⟩ :=
        Splitting.splitOnP_append (fun c => c == 44 || c == 124) s
      have other : (c == 44 || c == 124) = false := by
        rw [Bool.or_eq_false_iff, beq_eq_false_iff_ne, beq_eq_false_iff_ne]
        constructor
        · rintro rfl
          rw [isSpace_comma] at space
          cases space
        · rintro rfl
          rw [u.space_ascii 124 (by decide)] at space
          cases space
      have ends : (s ++ [c]).splitOnP (fun c => c == 44 || c == 124) =
          pieces ++ [last ++ [c]] := by
        rw [further, List.splitOnP_eq_singleton (by simpa using other)]
        rfl
      obtain ⟨name, opens⟩ := alternative_concat space last
      unfold mentioned Readable
      rw [Splitting.flatMap_splitOn, Splitting.flatMap_splitOn, whole, ends]
      constructor
      · simp [List.filterMap_append, List.filterMap_cons, name]
      · rw [List.forall_mem_append, List.forall_mem_append, List.forall_mem_singleton,
          List.forall_mem_singleton, opens]
    · rw [List.rdropWhile_concat_neg _ _ _ space]
      exact ⟨rfl, Iff.rfl⟩

theorem readable_of_notMem (closed : 40 ∉ s) : Readable u s := by
  intro alt member begins
  rw [Splitting.flatMap_splitOn] at member
  have inside : 40 ∈ u.strip alt := List.mem_of_mem_head? begins
  have there : 40 ∈ alt := (List.dropWhile_suffix _).subset
    ((List.rdropWhile_prefix u.isSpace (alt.dropWhile u.isSpace)).subset inside)
  exact closed ((Splitting.mem_piece_splitOnP member there).1)

theorem readable_commaList (plain : ∀ w ∈ ws, Plain u w) : Readable u (32 :: commaList ws) := by
  apply readable_of_notMem
  intro member
  rcases List.mem_cons.mp member with blank | inside
  · cases blank
  · rcases mem_commaList inside with comma | blank | ⟨w, word, there⟩
    · cases comma
    · cases blank
    · exact ((plain w word).solid 40 there).2.2.2 rfl

theorem mentioned_folded (value rest : PyString) (member : w ∈ mentioned u value) :
    w ∈ mentioned u (value ++ 10 :: rest) := by
  unfold mentioned at member ⊢
  rw [Splitting.flatMap_splitOn, List.mem_filterMap] at member ⊢
  obtain ⟨alt, inside, named⟩ := member
  obtain ⟨pieces, last, whole, further⟩ :=
    Splitting.splitOnP_append (fun c => c == 44 || c == 124) value
  rw [whole, List.mem_append, List.mem_singleton] at inside
  rw [further]
  rcases inside with earlier | rfl
  · exact ⟨alt, List.mem_append_left _ earlier, named⟩
  · -- The last alternative goes on after white space, which does not change its name.
    obtain ⟨piece, others, split⟩ :=
      List.exists_cons_of_ne_nil (List.splitOnP_ne_nil (fun c => c == 44 || c == 124) rest)
    refine ⟨alt ++ 10 :: piece, ?_, ?_⟩
    · rw [List.splitOnP_cons_eq_if_modifyHead, split]
      simp
    · rw [alternativeName_eq] at named ⊢
      rw [List.takeWhile_append]
      split
      · rename_i all
        have same : alt.takeWhile (· ≠ 40) = alt := (List.takeWhile_prefix _).eq_of_length all
        rw [same] at named
        rw [List.takeWhile_cons_of_pos (by decide), PyText.words_append_cons isSpace_break,
          List.head?_append, named]
        rfl
      · exact named

theorem missing_folded (adds : List PyString) (value rest : PyString) :
    (missing u adds (value ++ 10 :: rest)).Sublist (missing u adds value) := by
  unfold missing
  apply List.monotone_filter_right
  intro w absent
  simp only [decide_eq_true_eq] at absent ⊢
  exact fun member => absent (mentioned_folded value rest member)

theorem mentioned_of_mem_clauses (plain : Plain u w) (member : [w] ∈ clauses u s) :
    w ∈ mentioned u s := by
  unfold clauses at member
  obtain ⟨piece, inside, only⟩ := List.mem_map.mp member
  -- A bar or a parenthesis would stand in the word.
  have absent : ∀ c, u.isSpace c = false → c ∉ w → c ∉ piece := by
    intro c solid outside there
    obtain ⟨word, found, holds⟩ := PyText.exists_mem_words there solid
    rw [only, List.mem_singleton] at found
    rw [found] at holds
    exact outside holds
  have bar : 124 ∉ piece := by
    apply absent 124
    · rw [u.space_ascii 124 (by decide)]
      rfl
    · exact fun there => (plain.solid 124 there).2.2.1 rfl
  have opens : 40 ∉ piece := by
    apply absent 40
    · rw [u.space_ascii 40 (by decide)]
      rfl
    · exact fun there => (plain.solid 40 there).2.2.2 rfl
  have before : piece.takeWhile (· ≠ 40) = piece := by
    rw [List.takeWhile_eq_self_iff]
    intro c there
    rw [decide_eq_true_iff]
    rintro rfl
    exact opens there
  unfold mentioned
  rw [List.mem_filterMap]
  refine ⟨piece, List.mem_flatMap.mpr ⟨piece, inside, ?_⟩, ?_⟩
  · rw [List.splitOn_eq_splitOnP, List.splitOnP_eq_singleton]
    · exact List.mem_singleton_self _
    · intro c there
      rw [beq_eq_false_iff_ne]
      rintro rfl
      exact bar there
  · rw [alternativeName_eq, before, only]
    rfl

end

end StampMinos

end Xios
