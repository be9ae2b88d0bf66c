import Xios.Debs.Control
import Xios.Lib.Splitting

/-! The fields of a control file, each a line with the lines that go on with it. -/

namespace Xios

namespace StampMinos

/-- A line goes on with the line before it. -/
def Continues (ln : PyString) : Prop :=
  ln.head? = some 32 ∨ ln.head? = some 9
  deriving Decidable

/-- A field of a control file. -/
structure Field where
  name : PyString
  -- What follows the colon in the first line.
  value : PyString
  -- The lines that go on with the first one.
  more : List PyString
  deriving DecidableEq

namespace Field

def first (f : Field) : PyString :=
  f.name ++ 58 :: f.value

def lines (f : Field) : List PyString :=
  f.first :: f.more

def text (f : Field) : PyString :=
  [10].intercalate (f.value :: f.more)

/-- The lines of a field are read as that field. -/
structure Valid (f : Field) : Prop where
  colon : 58 ∉ f.name
  begins : ¬Continues f.first
  folded : ∀ ln ∈ f.more, Continues ln
  breaks : ∀ ln ∈ f.lines, 10 ∉ ln

end Field

/-- Read fields, with the lines before the first one that go on with something. -/
def parseFrom : List PyString → Option (List PyString × List Field)
  | [] => some ([], [])
  | ln :: rest => do
    let (more, fields) ← parseFrom rest
    if Continues ln then return (ln :: more, fields)
    let (name, value) ← PyText.cut 58 ln
    return ([], { name, value, more } :: fields)

def textLines (text : PyString) : List PyString :=
  (text.splitOn 10).rdropWhile (· = [])

def parseControl (text : PyString) : Option (List Field) :=
  match parseFrom (textLines text) with
  | some ([], fields) => some fields
  | _ => none

def linesText (lines : List PyString) : PyString :=
  [10].intercalate lines ++ [10]

def fieldLines (fields : List Field) : List PyString :=
  fields.flatMap Field.lines

variable {f : Field}

theorem Field.Valid.cut (valid : f.Valid) : PyText.cut 58 f.first = some (f.name, f.value) :=
  PyText.cut_append valid.colon

theorem Field.Valid.withMore (valid : f.Valid) {more : List PyString}
    (folded : ∀ ln ∈ more, Continues ln) (breaks : ∀ ln ∈ more, 10 ∉ ln) :
    Valid { f with more } := by
  refine ⟨valid.colon, valid.begins, folded, ?_⟩
  intro ln member
  rcases List.mem_cons.mp member with first | later
  · exact valid.breaks ln (by rw [first]; exact List.mem_cons_self)
  · exact breaks ln later

variable {fields : List Field}

theorem parseFrom_lines (valid : f.Valid) {rest : List PyString}
    (parsed : parseFrom rest = some ([], fields)) :
    parseFrom (f.lines ++ rest) = some ([], f :: fields) := by
  -- The lines that go on are collected before the line they go on with.
  have collected : ∀ more : List PyString, (∀ ln ∈ more, Continues ln) →
      parseFrom (more ++ rest) = some (more, fields) := by
    intro more folded
    induction more with
    | nil => exact parsed
    | cons ln more ih =>
      rw [List.forall_mem_cons] at folded
      rw [List.cons_append, parseFrom, ih folded.2]
      simp [folded.1]
  unfold Field.lines
  rw [List.cons_append, parseFrom, collected f.more valid.folded]
  simp [valid.begins, valid.cut]

theorem parseFrom_fieldLines (valid : ∀ f ∈ fields, f.Valid) :
    parseFrom (fieldLines fields) = some ([], fields) := by
  induction fields with
  | nil => rfl
  | cons f fields ih =>
    rw [List.forall_mem_cons] at valid
    exact parseFrom_lines valid.1 (ih valid.2)

theorem eq_of_cut {c : Nat} {s before after : PyString}
    (split : PyText.cut c s = some (before, after)) : c ∉ before ∧ s = before ++ c :: after := by
  unfold PyText.cut at split
  split at split
  · rename_i member
    rw [Option.some.injEq, Prod.mk.injEq] at split
    obtain ⟨rfl, rfl⟩ := split
    constructor
    · intro inside
      simpa using List.mem_takeWhile_imp inside
    · -- The rest begins with the character.
      have whole := List.takeWhile_append_dropWhile (p := (· ≠ c)) (l := s)
      cases rest : s.dropWhile (· ≠ c) with
      | nil =>
        rw [List.dropWhile_eq_nil_iff] at rest
        simpa using rest c member
      | cons d rest' =>
        have stops := List.head?_dropWhile_not (fun d => decide (d ≠ c)) s
        rw [rest] at stops
        have same : d = c := by simpa using stops
        rw [rest, same] at whole
        rw [same, List.drop_one, List.tail_cons]
        exact whole.symm
  · cases split

/-- The fields that are read write out to the lines they were read from. -/
theorem parseFrom_sound {lines more : List PyString}
    (parsed : parseFrom lines = some (more, fields)) (breaks : ∀ ln ∈ lines, 10 ∉ ln) :
    lines = more ++ fieldLines fields ∧ (∀ ln ∈ more, Continues ln) ∧
      ∀ f ∈ fields, f.Valid := by
  -- A line goes on with the field above it, or begins one with the lines below that go on.
  induction lines generalizing more fields with
  | nil =>
    cases parsed
    simp [fieldLines]
  | cons ln lines ih =>
    rw [List.forall_mem_cons] at breaks
    rw [parseFrom] at parsed
    cases rest : parseFrom lines with
    | none => simp [rest] at parsed
    | some pair =>
      obtain ⟨more', fields'⟩ := pair
      obtain ⟨whole, folded, valid⟩ := ih rest breaks.2
      simp only [rest, Option.bind_eq_bind, Option.bind_some] at parsed
      split at parsed
      · rename_i continues
        cases parsed
        refine ⟨by rw [whole]; rfl, ?_, valid⟩
        rw [List.forall_mem_cons]
        exact ⟨continues, folded⟩
      · rename_i begins
        cases split : PyText.cut 58 ln with
        | none => simp [split] at parsed
        | some parts =>
          simp only [split, Option.bind_some] at parsed
          cases parsed
          obtain ⟨colon, line⟩ := eq_of_cut split
          refine ⟨?_, by simp, ?_⟩
          · rw [whole, line]
            rfl
          · rw [List.forall_mem_cons]
            refine ⟨⟨colon, ?_, folded, ?_⟩, valid⟩
            · unfold Field.first
              rwa [← line]
            · unfold Field.lines Field.first
              rw [List.forall_mem_cons, ← line]
              exact ⟨breaks.1, fun ln member => breaks.2 ln (by
                rw [whole]
                exact List.mem_append_left _ member)⟩

theorem textLines_breaks (text : PyString) :
    (∀ ln ∈ textLines text, 10 ∉ ln) ∧ (textLines text).getLast? ≠ some [] := by
  unfold textLines
  constructor
  · intro ln member inside
    have piece := (List.rdropWhile_prefix _ _).subset member
    rw [List.splitOn_eq_splitOnP] at piece
    simpa using (Splitting.mem_piece_splitOnP piece inside).2
  · intro last
    rw [List.getLast?_eq_some_iff] at last
    obtain ⟨before, whole⟩ := last
    have stops := List.rdropWhile_last_not (fun ln => decide (ln = [])) (text.splitOn 10) (by
      rw [whole]
      simp)
    simp [whole] at stops

theorem textLines_linesText {lines : List PyString} (breaks : ∀ ln ∈ lines, 10 ∉ ln)
    (ends : lines.getLast? ≠ some []) : textLines (linesText lines) = lines := by
  -- Empty lines are dropped at the end, where no other line is empty.
  have settled : lines.rdropWhile (· = []) = lines := by
    rw [List.rdropWhile_eq_self_iff]
    intro nonempty last
    apply ends
    rw [List.getLast?_eq_some_getLast nonempty]
    simpa using last
  unfold textLines linesText
  rw [List.splitOn_eq_splitOnP, List.splitOnP_append_cons _ _ (by simp),
    ← List.splitOn_eq_splitOnP]
  cases lines with
  | nil => rfl
  | cons ln lines =>
    rw [List.splitOn_intercalate 10 breaks (List.cons_ne_nil _ _), List.splitOnP_nil,
      List.rdropWhile_concat_pos _ _ _ (by simp), settled]

theorem parseControl_eq_some {text : PyString} :
    parseControl text = some fields ↔
      textLines text = fieldLines fields ∧ ∀ f ∈ fields, f.Valid := by
  unfold parseControl
  constructor
  · intro parsed
    split at parsed
    · rename_i fields' found
      cases parsed
      obtain ⟨whole, -, valid⟩ := parseFrom_sound found (textLines_breaks text).1
      exact ⟨whole, valid⟩
    · cases parsed
  · rintro ⟨whole, valid⟩
    rw [whole, parseFrom_fieldLines valid]

theorem parseControl_linesText (valid : ∀ f ∈ fields, f.Valid) :
    parseControl (linesText (fieldLines fields)) = some fields := by
  rw [parseControl_eq_some]
  refine ⟨textLines_linesText ?_ ?_, valid⟩
  · intro ln member
    obtain ⟨f, inside, line⟩ := List.mem_flatMap.mp member
    exact (valid f inside).breaks ln line
  · intro last
    -- A line of a field has a colon, or white space to go on with.
    have member := List.mem_of_getLast? last
    obtain ⟨f, inside, line⟩ := List.mem_flatMap.mp member
    unfold Field.lines Field.first at line
    rcases List.mem_cons.mp line with begins | goes
    · simp at begins
    · have continues := (valid f inside).folded [] goes
      simp [Continues] at continues

end StampMinos

end Xios
