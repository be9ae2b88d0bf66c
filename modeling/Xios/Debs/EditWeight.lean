import Mathlib.Algebra.Order.BigOperators.Group.List
import Mathlib.Algebra.Order.Ring.Nat
import Xios.Debs.EditAgain

/-! What the lines of a control file weigh before and after an edit. -/

namespace Xios

namespace StampMinos

section

variable (u : PyText) (pkg : Option PyString)

def lineWeight (lines : List PyString) : Nat :=
  (lines.map (weight u)).sum

def fieldWeight (f : Field) : Nat :=
  lineWeight u f.lines

/-- How many characters words have, with a comma before each. -/
def addedWeight (ws : List PyString) : Nat :=
  (ws.map fun w => w.length + 1).sum

/-- How many characters of what becomes of a field are no white space. -/
def editedWeight (f : Field) : Nat :=
  if Dropped pkg f then lineWeight u f.more
  else
    match additions pkg f with
    | some adds => fieldWeight u f + addedWeight (missing u adds f.value)
    | none => fieldWeight u f

variable {u pkg}

theorem weight_append (s t : PyString) : weight u (s ++ t) = weight u s + weight u t :=
  List.countP_append

theorem weight_cons {c : Nat} (solid : u.isSpace c = false) (s : PyString) :
    weight u (c :: s) = 1 + weight u s := by
  unfold weight
  rw [List.countP_cons_of_pos (by simp [solid]), Nat.add_comm]

theorem lineWeight_append (lines lines' : List PyString) :
    lineWeight u (lines ++ lines') = lineWeight u lines + lineWeight u lines' := by
  unfold lineWeight
  rw [List.map_append, List.sum_append]

theorem lineWeight_fieldLines (fields : List Field) :
    lineWeight u (fieldLines fields) = (fields.map (fieldWeight u)).sum := by
  induction fields with
  | nil => rfl
  | cons f fields ih =>
    unfold fieldLines at ih ⊢
    rw [List.flatMap_cons, lineWeight_append, ih]
    rfl

theorem weight_intercalate (lines : List PyString) :
    weight u ([10].intercalate lines) = lineWeight u lines := by
  have none : weight u [10] = 0 := by
    unfold weight
    rw [List.countP_cons_of_neg (by simp [isSpace_break]), List.countP_nil]
  induction lines with
  | nil => rfl
  | cons ln lines ih =>
    cases lines with
    | nil => simp [lineWeight]
    | cons ln' lines =>
      rw [List.intercalate_cons_cons, weight_append, weight_append, ih, none]
      rfl

theorem weight_linesText (lines : List PyString) :
    weight u (linesText lines) = lineWeight u lines := by
  have none : weight u [10] = 0 := by
    unfold weight
    rw [List.countP_cons_of_neg (by simp [isSpace_break]), List.countP_nil]
  unfold linesText
  rw [weight_append, weight_intercalate, none, Nat.add_zero]

theorem lineWeight_textLines (text : PyString) :
    lineWeight u (textLines text) = weight u text := by
  -- Empty lines at the end weigh nothing.
  have settled : ∀ lines : List PyString,
      lineWeight u (lines.rdropWhile (· = [])) = lineWeight u lines := by
    intro lines
    induction lines using List.reverseRecOn with
    | nil => rfl
    | append_singleton lines ln ih =>
      by_cases empty : ln = []
      · rw [List.rdropWhile_concat_pos _ _ _ (by simpa using empty), ih, lineWeight_append, empty]
        rfl
      · rw [List.rdropWhile_concat_neg _ _ _ (by simpa using empty)]
  unfold textLines
  rw [settled, List.splitOn_eq_splitOnP]
  apply (Splitting.countP_splitOnP _ text).symm
  intro c ends
  obtain rfl : c = 10 := by simpa using ends
  simp [isSpace_break]

theorem fieldWeight_eq (f : Field) :
    fieldWeight u f = weight u f.name + 1 + weight u f.text := by
  have solid : u.isSpace 58 = false := by
    rw [u.space_ascii 58 (by decide)]
    rfl
  unfold fieldWeight Field.lines Field.first Field.text
  rw [weight_intercalate]
  unfold lineWeight
  rw [List.map_cons, List.sum_cons, weight_append, weight_cons solid, List.map_cons,
    List.sum_cons]
  omega

theorem missing_text (adds : List PyString) (f : Field) :
    (missing u adds f.text).Sublist (missing u adds f.value) := by
  unfold Field.text
  cases f.more with
  | nil => rw [List.intercalate_singleton]
  | cons ln more =>
    rw [List.intercalate_cons_cons, List.append_assoc]
    exact missing_folded adds f.value _

theorem fieldWeight_extends {adds : List PyString} {f g : Field}
    (found : lookup dependsAdd pkg = some adds) (own : f.name = py "Depends")
    (own' : g.name = py "Depends") (extended : Extends u adds f g) :
    fieldWeight u g ≤ editedWeight u pkg f := by
  have more := weight_add extended
  have fewer := ((missing_text (u := u) adds f).map fun w => w.length + 1).sum_le_sum
    fun _ _ => Nat.zero_le _
  have added : additions pkg f = some adds := by
    unfold additions
    rw [if_pos own, found]
  unfold editedWeight addedWeight
  rw [if_neg (not_dropped_depends own), added]
  dsimp only
  rw [fieldWeight_eq, fieldWeight_eq, own, own', more]
  omega

theorem lineWeight_editedLines {f : Field} (valid : f.Valid) {lines : List PyString}
    (edited : editedLines u pkg f = some lines) : lineWeight u lines = editedWeight u pkg f ∧
      ((additions pkg f).isSome = true → Readable u f.value) := by
  unfold editedLines at edited
  unfold editedWeight
  split at edited
  · -- A field that is left out is not the dependencies.
    rename_i dropped
    cases edited
    rw [if_pos dropped]
    refine ⟨rfl, fun added => ?_⟩
    unfold additions at added
    split at added
    · rename_i own
      exact absurd dropped (not_dropped_depends own)
    · cases added
  · rename_i kept
    rw [if_neg kept]
    cases added : additions pkg f with
    | none =>
      rw [added] at edited
      cases edited
      exact ⟨rfl, fun some => by cases some⟩
    | some adds =>
      rw [added] at edited
      dsimp only at edited ⊢
      -- Without a reading of the value, the whole edit fails.
      by_cases readable : Readable u f.value
      · have plain : ∀ w ∈ adds, Plain u w := by
          unfold additions at added
          split at added
          · exact plain_dependsAdd added
          · cases added
        have more := weight_add (clauses_merged plain f.value)
        unfold Field.first at edited
        rw [mergeDepends_of_readable valid.colon readable] at edited
        cases edited
        refine ⟨?_, fun _ => readable⟩
        unfold fieldWeight Field.lines Field.first lineWeight addedWeight
        rw [List.map_cons, List.sum_cons, List.map_cons, List.sum_cons, weight_append,
          weight_append]
        have solid : u.isSpace 58 = false := by
          rw [u.space_ascii 58 (by decide)]
          rfl
        rw [weight_cons solid, weight_cons solid, more]
        omega
      · unfold Field.first at edited
        rw [mergeDepends_eq_none valid.colon readable] at edited
        cases edited

theorem lineWeight_mapM {fields : List Field} (valid : ∀ f ∈ fields, f.Valid)
    {edited : List (List PyString)} (found : fields.mapM (editedLines u pkg) = some edited) :
    lineWeight u edited.flatten = (fields.map (editedWeight u pkg)).sum ∧
      ∀ f ∈ fields, (additions pkg f).isSome = true → Readable u f.value := by
  induction fields generalizing edited with
  | nil =>
    cases found
    exact ⟨rfl, by simp⟩
  | cons f fields ih =>
    rw [List.forall_mem_cons] at valid
    rw [List.mapM_cons] at found
    cases first : editedLines u pkg f with
    | none => simp [first] at found
    | some lines =>
      cases rest : fields.mapM (editedLines u pkg) with
      | none => simp [first, rest] at found
      | some edited' =>
        simp only [first, rest, Option.bind_eq_bind, Option.bind_some, Option.pure_def,
          Option.some.injEq] at found
        obtain ⟨weighs, readable⟩ := lineWeight_editedLines valid.1 first
        obtain ⟨weighs', readable'⟩ := ih valid.2 rest
        subst found
        rw [List.flatten_cons, lineWeight_append, weighs, weighs', List.map_cons, List.sum_cons,
          List.forall_mem_cons]
        exact ⟨rfl, readable, readable'⟩

/-- The written text weighs what its edited fields weigh, and what is inserted. -/
theorem weight_editControl {text out minos : PyString} {fields : List Field}
    (parsed : parseControl text = some fields) (edited : editControl u text pkg minos = some out) :
    weight u out = (fields.map (editedWeight u pkg)).sum +
        lineWeight u (insertions pkg minos (hadDep pkg fields)) ∧
      ∀ f ∈ fields, (additions pkg f).isSome = true → Readable u f.value := by
  have valid := (parseControl_eq_some.mp parsed).2
  obtain ⟨before, after, rfl, place⟩ := exists_place fields
  cases place with
  | ends others =>
    rw [List.append_nil] at parsed valid ⊢
    rw [editControl_end parsed others] at edited
    obtain ⟨lines, found, rfl⟩ := Option.map_eq_some_iff.mp edited
    obtain ⟨weighs, readable⟩ := lineWeight_mapM valid found
    rw [weight_linesText, lineWeight_append, weighs]
    exact ⟨rfl, readable⟩
  | @after before after a own others =>
    rw [List.append_assoc, List.singleton_append] at parsed valid ⊢
    rw [List.forall_mem_append, List.forall_mem_cons] at valid
    rw [editControl_after parsed own others] at edited
    obtain ⟨lines, found, rest⟩ := Option.bind_eq_some_iff.mp edited
    obtain ⟨lines', found', ends⟩ := Option.bind_eq_some_iff.mp rest
    cases ends
    obtain ⟨weighs, readable⟩ := lineWeight_mapM valid.1 found
    obtain ⟨weighs', readable'⟩ := lineWeight_mapM valid.2.2 found'
    have kept : ¬Managed pkg a := not_managed_architecture own
    unfold Managed at kept
    rw [not_or, Option.isSome_iff_ne_none, not_not] at kept
    have itself : editedWeight u pkg a = weight u a.first + lineWeight u a.more := by
      unfold editedWeight
      rw [if_neg kept.1, kept.2]
      rfl
    -- The weights add up in whatever order the lines come.
    have first : ∀ rest : List PyString,
        lineWeight u (a.first :: rest) = weight u a.first + lineWeight u rest := fun _ => rfl
    constructor
    · rw [weight_linesText, lineWeight_append, lineWeight_append, lineWeight_append, first,
        List.map_append, List.sum_append, List.map_cons, List.sum_cons, weighs, weighs', itself]
      omega
    · rw [List.forall_mem_append, List.forall_mem_cons]
      refine ⟨readable, fun added => ?_, readable'⟩
      rw [kept.2] at added
      cases added

end

end StampMinos

end Xios
