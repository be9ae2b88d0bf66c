import Xios.Debs.Merging
import Xios.Debs.Fields

/-! What editing a control file does to its fields. -/

namespace Xios

namespace StampMinos

section

variable (u : PyText) (pkg : Option PyString)

/-- A field that the editor leaves out or writes anew. -/
def Dropped (f : Field) : Prop :=
  f.name = py "MinimumOSVersion" ∨
    f.name = py "Provides" ∧ (lookup providesFix pkg).isSome = true
  deriving Decidable

def additions (f : Field) : Option (List PyString) :=
  if f.name = py "Depends" then lookup dependsAdd pkg else none

def editedLines (f : Field) : Option (List PyString) :=
  if Dropped pkg f then some f.more
  else
    match additions pkg f with
    | some adds => (mergeDepends u f.first adds).map (· :: f.more)
    | none => some f.lines

variable {u pkg}

theorem Field.Valid.lineKey {f : Field} (valid : f.Valid) :
    StampMinos.lineKey f.first = f.name := by
  have starts : ¬[32] <+: f.first := by
    rintro ⟨rest, whole⟩
    apply valid.begins
    rw [← whole]
    exact Or.inl rfl
  have before : ∀ c ∈ f.name, decide (c ≠ 58) = true := by
    intro c member
    rw [decide_eq_true_iff]
    rintro rfl
    exact valid.colon member
  unfold StampMinos.lineKey
  rw [if_pos ⟨by unfold Field.first; simp, starts⟩]
  unfold Field.first
  rw [List.takeWhile_append_of_pos before, List.takeWhile_cons_of_neg (by simp), List.append_nil]

theorem lineKey_continues {ln : PyString} (continues : Continues ln) :
    lineKey ln ≠ py "MinimumOSVersion" ∧ lineKey ln ≠ py "Provides" ∧
      lineKey ln ≠ py "Depends" ∧ lineKey ln ≠ py "Architecture" := by
  -- There is no key, or it begins with the tabulator.
  have shape : lineKey ln = [] ∨ (lineKey ln).head? = some 9 := by
    unfold lineKey
    split
    · rename_i keyed
      right
      cases ln with
      | nil => simp at keyed
      | cons c rest =>
        rcases continues with blank | tab
        · obtain rfl : c = 32 := by simpa using blank
          exact absurd ⟨rest, rfl⟩ keyed.2
        · obtain rfl : c = 9 := by simpa using tab
          rfl
    · exact Or.inl rfl
  refine ⟨?_, ?_, ?_, ?_⟩ <;>
  · intro same
    rw [same] at shape
    revert shape
    decide

theorem editLine_continues {ln : PyString} (continues : Continues ln) (st : Edit) :
    editLine u pkg st ln = some { st with out := st.out ++ [ln] } := by
  obtain ⟨minos, provides, depends, arch⟩ := lineKey_continues continues
  unfold editLine
  simp [minos, provides, depends, arch]

theorem foldlM_continues {more : List PyString} (folded : ∀ ln ∈ more, Continues ln) (st : Edit) :
    more.foldlM (editLine u pkg) st = some { st with out := st.out ++ more } := by
  induction more generalizing st with
  | nil => simp
  | cons ln more ih =>
    rw [List.forall_mem_cons] at folded
    rw [List.foldlM_cons, editLine_continues folded.1]
    dsimp only [Option.bind_eq_bind, Option.bind_some]
    rw [ih folded.2]
    simp

theorem editLine_first {f : Field} (valid : f.Valid) (st : Edit) :
    editLine u pkg st f.first =
      if Dropped pkg f then some st
      else match additions pkg f with
        | some adds => (mergeDepends u f.first adds).map fun ln => {
            out := st.out ++ [ln]
            arch := if f.name = py "Architecture" then some st.out.length else st.arch
            hadDep := true
          }
        | none => some {
            out := st.out ++ [f.first]
            arch := if f.name = py "Architecture" then some st.out.length else st.arch
            hadDep := st.hadDep
          } := by
  unfold editLine
  rw [valid.lineKey]
  by_cases dropped : Dropped pkg f
  · rw [if_pos dropped]
    rcases dropped with minos | provides
    · rw [if_pos minos]
    · rw [if_neg (by rw [provides.1]; decide), if_pos provides]
  · rw [if_neg dropped]
    unfold Dropped at dropped
    rw [not_or] at dropped
    rw [if_neg dropped.1, if_neg dropped.2]
    rfl

theorem name_of_dropped {f : Field} (dropped : Dropped pkg f) :
    f.name ≠ py "Architecture" ∧ f.name ≠ py "Depends" := by
  rcases dropped with minos | provides
  · rw [minos]
    decide
  · rw [provides.1]
    decide

theorem foldlM_lines {f : Field} (valid : f.Valid) (st : Edit) :
    f.lines.foldlM (editLine u pkg) st = (editedLines u pkg f).map fun lines => {
      out := st.out ++ lines
      arch := if f.name = py "Architecture" then some st.out.length else st.arch
      hadDep := st.hadDep || (additions pkg f).isSome
    } := by
  unfold Field.lines
  rw [List.foldlM_cons, editLine_first valid]
  unfold editedLines
  by_cases dropped : Dropped pkg f
  · -- The line is left out, and those that go on with it stay.
    rw [if_pos dropped, if_pos dropped]
    dsimp only [Option.bind_eq_bind, Option.bind_some]
    rw [foldlM_continues valid.folded]
    simp [name_of_dropped dropped, additions]
  · rw [if_neg dropped, if_neg dropped]
    cases additions pkg f with
    | none =>
      dsimp only [Option.bind_eq_bind, Option.bind_some]
      rw [foldlM_continues valid.folded]
      simp [Field.lines]
    | some adds =>
      dsimp only
      cases mergeDepends u f.first adds with
      | none => rfl
      | some ln =>
        dsimp only [Option.map_some, Option.bind_eq_bind, Option.bind_some]
        rw [foldlM_continues valid.folded]
        simp

variable (u pkg) in
theorem foldlM_fieldLines {fields : List Field} (valid : ∀ f ∈ fields, f.Valid) :
    ∃ arch : Edit → List (List PyString) → Option Nat,
      (∀ st, (fieldLines fields).foldlM (editLine u pkg) st =
        (fields.mapM (editedLines u pkg)).map fun edited => {
          out := st.out ++ edited.flatten
          arch := arch st edited
          hadDep := st.hadDep || fields.any fun f => (additions pkg f).isSome
        }) ∧
      ((∀ f ∈ fields, f.name ≠ py "Architecture") → ∀ st edited, arch st edited = st.arch) := by
  induction fields with
  | nil => exact ⟨fun st _ => st.arch, fun st => by simp [fieldLines], fun _ _ _ => rfl⟩
  | cons f fields ih =>
    rw [List.forall_mem_cons] at valid
    obtain ⟨arch, loop, still⟩ := ih valid.2
    -- The first field moves the place on to its line if it is the one that is looked for.
    refine ⟨fun st edited => arch {
        out := st.out ++ edited.head?.getD []
        arch := if f.name = py "Architecture" then some st.out.length else st.arch
        hadDep := st.hadDep || (additions pkg f).isSome
      } edited.tail, ?_, ?_⟩
    · intro st
      unfold fieldLines at loop ⊢
      rw [List.flatMap_cons, List.foldlM_append, foldlM_lines valid.1, List.mapM_cons]
      cases editedLines u pkg f with
      | none => rfl
      | some lines =>
        dsimp only [Option.map_some, Option.bind_eq_bind, Option.bind_some]
        rw [loop]
        cases fields.mapM (editedLines u pkg) with
        | none => rfl
        | some edited => simp [List.any_cons, Bool.or_assoc]
    · intro others st edited
      rw [List.forall_mem_cons] at others
      dsimp only
      rw [still others.2]
      exact if_neg others.1

def hadDep (pkg : Option PyString) (fields : List Field) : Bool :=
  fields.any fun f => (additions pkg f).isSome

theorem editControl_end {text minos : PyString} {fields : List Field}
    (parsed : parseControl text = some fields)
    (others : ∀ f ∈ fields, f.name ≠ py "Architecture") :
    editControl u text pkg minos = (fields.mapM (editedLines u pkg)).map fun edited =>
      linesText (edited.flatten ++ insertions pkg minos (hadDep pkg fields)) := by
  obtain ⟨whole, valid⟩ := parseControl_eq_some.mp parsed
  obtain ⟨arch, loop, still⟩ := foldlM_fieldLines u pkg valid
  have lines : (text.splitOn 10).rdropWhile (· = []) = fieldLines fields := whole
  unfold editControl
  dsimp only
  rw [lines, loop]
  cases fields.mapM (editedLines u pkg) with
  | none => rfl
  | some edited =>
    have none : arch {} edited = none := still others _ _
    simp [none, linesText, hadDep, -List.length_flatten]

theorem editedLines_architecture {a : Field} (own : a.name = py "Architecture") :
    editedLines u pkg a = some a.lines ∧ additions pkg a = none := by
  have addition : additions pkg a = none := by
    unfold additions
    rw [own]
    exact if_neg (by decide)
  unfold editedLines
  rw [if_neg fun dropped => (name_of_dropped dropped).1 own, addition]
  exact ⟨rfl, rfl⟩

/-- The editor line by line, when an Architecture field is where it inserts. -/
theorem editControl_after {text minos : PyString} {before after : List Field} {a : Field}
    (parsed : parseControl text = some (before ++ a :: after))
    (own : a.name = py "Architecture") (others : ∀ f ∈ after, f.name ≠ py "Architecture") :
    editControl u text pkg minos = do
      let edited ← before.mapM (editedLines u pkg)
      let edited' ← after.mapM (editedLines u pkg)
      return linesText (edited.flatten ++ a.first ::
        insertions pkg minos (hadDep pkg (before ++ a :: after)) ++ a.more ++
        edited'.flatten) := by
  obtain ⟨whole, valid⟩ := parseControl_eq_some.mp parsed
  rw [List.forall_mem_append, List.forall_mem_cons] at valid
  obtain ⟨arch, loop, -⟩ := foldlM_fieldLines u pkg valid.1
  obtain ⟨arch', loop', still⟩ := foldlM_fieldLines u pkg valid.2.2
  have lines : (text.splitOn 10).rdropWhile (· = []) =
      fieldLines before ++ (a.lines ++ fieldLines after) := by
    unfold textLines at whole
    rw [whole]
    unfold fieldLines
    rw [List.flatMap_append, List.flatMap_cons]
  have kept : editedLines u pkg a = some a.lines ∧ additions pkg a = none :=
    editedLines_architecture own
  unfold editControl
  dsimp only
  rw [lines, List.foldlM_append, loop]
  cases before.mapM (editedLines u pkg) with
  | none => rfl
  | some edited =>
    dsimp only [Option.map_some, Option.bind_eq_bind, Option.bind_some]
    rw [List.foldlM_append, foldlM_lines valid.2.1, kept.1, kept.2]
    dsimp only [Option.map_some, Option.bind_eq_bind, Option.bind_some]
    rw [loop']
    cases after.mapM (editedLines u pkg) with
    | none => rfl
    | some edited' =>
      dsimp only [Option.map_some, Option.bind_some]
      rw [still others]
      rw [if_pos own]
      -- The line of the architecture is the last one before the place.
      have first : (edited.flatten ++ a.lines ++ edited'.flatten).take (edited.flatten.length + 1) =
          edited.flatten ++ [a.first] := by
        unfold Field.lines
        rw [List.append_assoc, List.take_length_add_append]
        rfl
      have rest : (edited.flatten ++ a.lines ++ edited'.flatten).drop (edited.flatten.length + 1) =
          a.more ++ edited'.flatten := by
        unfold Field.lines
        rw [List.append_assoc, List.drop_length_add_append]
        rfl
      have same : hadDep pkg (before ++ a :: after) =
          (before.any (fun f => (additions pkg f).isSome) ||
            after.any fun f => (additions pkg f).isSome) := by
        unfold hadDep
        rw [List.any_append, List.any_cons, kept.2]
        rfl
      simp only [List.nil_append, Option.map_some, Option.getD_some, Option.isSome_none,
        Bool.false_or, Bool.or_false, Option.pure_def]
      rw [first, rest, same]
      unfold linesText
      simp

end

end StampMinos

end Xios
