import Mathlib.Data.List.Forall2
import Xios.Debs.EditSteps

/-! Editing a control file keeps its fields, apart from the ones that are managed. -/

namespace Xios

namespace StampMinos

section

variable (u : PyText) (pkg : Option PyString)

def editField (f : Field) : List Field :=
  if Dropped pkg f then []
  else
    match additions pkg f with
    | some adds => [{ f with value := merged u adds f.value }]
    | none => [f]

def editFields (fields : List Field) : List Field :=
  fields.flatMap (editField u pkg)

def minosFields (minos : PyString) : List Field :=
  if minos = [] then [] else [⟨py "MinimumOSVersion", 32 :: minos, []⟩]

def providesFields : List Field :=
  match lookup providesFix pkg with
  | some provides => [⟨py "Provides", 32 :: provides, []⟩]
  | none => []

def dependsFields (hadDep : Bool) : List Field :=
  match lookup dependsAdd pkg with
  | some adds => if hadDep then [] else [⟨py "Depends", 32 :: commaList adds, []⟩]
  | none => []

def insertedFields (minos : PyString) (hadDep : Bool) : List Field :=
  minosFields minos ++ providesFields pkg ++ dependsFields pkg hadDep

def writtenFields (minos : PyString) (before after : List Field) : List Field :=
  editFields u pkg before ++ insertedFields pkg minos (hadDep pkg (before ++ after)) ++
    editFields u pkg after

/-- A field that the editor does not only copy. -/
def Managed (f : Field) : Prop :=
  Dropped pkg f ∨ (additions pkg f).isSome = true
  deriving Decidable

/-- A field that is left out has no more lines, and one that is extended can be read. -/
def Workable (f : Field) : Prop :=
  (Dropped pkg f → f.more = []) ∧ ((additions pkg f).isSome = true → Readable u f.value)

/-- A dependency field has its old clauses and those it lacked. -/
def Extends (adds : List PyString) (f g : Field) : Prop :=
  clauses u g.text = clauses u f.text ++ (missing u adds f.text).map fun w => [w]

/-- The fields of a control file are kept, apart from the ones that are set or extended. -/
structure Preserves (minos : PyString) (fields written : List Field) : Prop where
  others : written.filter (¬Managed pkg ·) = fields.filter (¬Managed pkg ·)
  minos : written.filter (·.name = py "MinimumOSVersion") = minosFields minos
  provides : ∀ provides, lookup providesFix pkg = some provides →
    written.filter (·.name = py "Provides") = [⟨py "Provides", 32 :: provides, []⟩]
  depends : ∀ adds, lookup dependsAdd pkg = some adds →
    if fields.filter (·.name = py "Depends") = [] then
      written.filter (·.name = py "Depends") = [⟨py "Depends", 32 :: commaList adds, []⟩]
    else List.Forall₂ (Extends u adds) (fields.filter (·.name = py "Depends"))
      (written.filter (·.name = py "Depends"))

variable {u pkg}

variable {f : Field}

theorem editedLines_eq (valid : f.Valid) (workable : Workable u pkg f) :
    editedLines u pkg f = some (fieldLines (editField u pkg f)) := by
  unfold editedLines editField
  by_cases dropped : Dropped pkg f
  · rw [if_pos dropped, if_pos dropped, workable.1 dropped]
    rfl
  · rw [if_neg dropped, if_neg dropped]
    cases added : additions pkg f with
    | none => simp [fieldLines]
    | some adds =>
      dsimp only
      unfold Field.first
      rw [mergeDepends_of_readable valid.colon (workable.2 (by rw [added]; rfl))]
      simp [fieldLines, Field.lines, Field.first]

theorem mapM_editedLines {fields : List Field} (valid : ∀ f ∈ fields, f.Valid)
    (workable : ∀ f ∈ fields, Workable u pkg f) :
    ∃ edited, fields.mapM (editedLines u pkg) = some edited ∧
      edited.flatten = fieldLines (editFields u pkg fields) := by
  induction fields with
  | nil => exact ⟨[], rfl, rfl⟩
  | cons f fields ih =>
    rw [List.forall_mem_cons] at valid workable
    obtain ⟨edited, found, lines⟩ := ih valid.2 workable.2
    refine ⟨fieldLines (editField u pkg f) :: edited, ?_, ?_⟩
    · rw [List.mapM_cons, editedLines_eq valid.1 workable.1, found]
      rfl
    · rw [List.flatten_cons, lines]
      unfold fieldLines editFields
      rw [List.flatMap_cons, List.flatMap_append]

theorem fieldLines_insertedFields (minos : PyString) (had : Bool) :
    fieldLines (insertedFields pkg minos had) = insertions pkg minos had := by
  have minosKey : py "MinimumOSVersion: " = py "MinimumOSVersion" ++ [58, 32] := by decide +kernel
  have providesKey : py "Provides: " = py "Provides" ++ [58, 32] := by decide +kernel
  have dependsKey : py "Depends: " = py "Depends" ++ [58, 32] := by decide +kernel
  unfold insertedFields insertions minosFields providesFields dependsFields fieldLines
  rw [minosKey, providesKey, dependsKey]
  by_cases absent : minos = [] <;> cases lookup providesFix pkg <;>
    cases lookup dependsAdd pkg <;> cases had <;>
    simp [absent, Field.lines, Field.first]

variable {minos : PyString} {had : Bool}

theorem mem_insertedFields (member : f ∈ insertedFields pkg minos had) :
    f = ⟨py "MinimumOSVersion", 32 :: minos, []⟩ ∨
      (∃ provides, lookup providesFix pkg = some provides ∧
        f = ⟨py "Provides", 32 :: provides, []⟩) ∨
      ∃ adds, lookup dependsAdd pkg = some adds ∧ had = false ∧
        f = ⟨py "Depends", 32 :: commaList adds, []⟩ := by
  unfold insertedFields at member
  rw [List.mem_append, List.mem_append] at member
  rcases member with (minos' | provides) | depends
  · unfold minosFields at minos'
    split at minos'
    · cases minos'
    · exact Or.inl (List.mem_singleton.mp minos')
  · unfold providesFields at provides
    split at provides
    · rename_i value found
      exact Or.inr (Or.inl ⟨value, found, List.mem_singleton.mp provides⟩)
    · cases provides
  · unfold dependsFields at depends
    split at depends
    · rename_i adds found
      cases had with
      | true => cases depends
      | false => exact Or.inr (Or.inr ⟨adds, found, rfl, List.mem_singleton.mp depends⟩)
    · cases depends

theorem valid_insertedFields (plain : 10 ∉ minos) (had : Bool) :
    ∀ f ∈ insertedFields pkg minos had, f.Valid := by
  have single : ∀ {name value : PyString}, 58 ∉ name → 10 ∉ name → ¬Continues (name ++ [58]) →
      10 ∉ value → (⟨name, 32 :: value, []⟩ : Field).Valid := by
    intro name value colon clean begins plain
    refine ⟨colon, ?_, by simp, ?_⟩
    · unfold Continues at begins ⊢
      unfold Field.first
      cases name <;> simp_all
    · unfold Field.lines Field.first
      simp [clean, plain]
  have table : ∀ entry ∈ providesFix, 10 ∉ entry.2 := by decide +kernel
  have table' : ∀ entry ∈ dependsAdd, 10 ∉ commaList entry.2 := by decide +kernel
  intro f member
  rcases mem_insertedFields member with rfl | ⟨value, found, rfl⟩ | ⟨adds, found, -, rfl⟩
  · exact single (by decide +kernel) (by decide +kernel) (by decide +kernel) plain
  · obtain ⟨name, -, row⟩ := Option.bind_eq_some_iff.mp found
    obtain ⟨before, after, whole, -⟩ := List.lookup_eq_some_iff.mp row
    exact single (by decide +kernel) (by decide +kernel) (by decide +kernel)
      (table (name, value) (by rw [whole]; simp))
  · obtain ⟨name, -, row⟩ := Option.bind_eq_some_iff.mp found
    obtain ⟨before, after, whole, -⟩ := List.lookup_eq_some_iff.mp row
    exact single (by decide +kernel) (by decide +kernel) (by decide +kernel)
      (table' (name, adds) (by rw [whole]; simp))

variable {adds : List PyString}

theorem break_notMem_merged (found : lookup dependsAdd pkg = some adds) {value : PyString}
    (clean : 10 ∉ value) : 10 ∉ merged u adds value := by
  have words : ∀ {ws : List PyString}, (∀ w ∈ ws, Plain u w) → 10 ∉ commaList ws := by
    intro ws plain member
    rcases mem_commaList member with comma | blank | ⟨w, inside, there⟩
    · cases comma
    · cases blank
    · have solid := ((plain w inside).solid 10 there).1
      rw [isSpace_break] at solid
      cases solid
  unfold merged
  rw [List.mem_append, not_or]
  constructor
  · exact fun member => clean ((List.rdropWhile_prefix _ _).subset member)
  · split
    · simp
    · rw [List.mem_append, not_or]
      refine ⟨by decide, words fun w member => ?_⟩
      exact plain_dependsAdd found w (List.mem_of_mem_filter member)

theorem valid_editField {g : Field} (valid : f.Valid) (member : g ∈ editField u pkg f) :
    g.Valid := by
  unfold editField at member
  split at member
  · cases member
  · split at member
    · rename_i adds added
      unfold additions at added
      split at added
      · rw [List.mem_singleton.mp member]
        have lines := valid.breaks
        unfold Field.lines Field.first at lines
        rw [List.forall_mem_cons] at lines
        simp only [List.mem_append, List.mem_cons, not_or] at lines
        refine ⟨valid.colon, ?_, valid.folded, ?_⟩
        · have begins := valid.begins
          unfold Continues Field.first at begins ⊢
          cases same : f.name <;> simp_all
        · unfold Field.lines Field.first
          rw [List.forall_mem_cons]
          simp only [List.mem_append, List.mem_cons, not_or]
          exact ⟨⟨lines.1.1, by decide, break_notMem_merged added lines.1.2.2⟩, lines.2⟩
      · cases added
    · rw [List.mem_singleton.mp member]
      exact valid

theorem valid_editFields {fields : List Field} (valid : ∀ f ∈ fields, f.Valid) :
    ∀ g ∈ editFields u pkg fields, g.Valid := by
  intro g member
  obtain ⟨f, inside, became⟩ := List.mem_flatMap.mp member
  exact valid_editField (valid f inside) became

theorem names_ne : py "Provides" ≠ py "MinimumOSVersion" ∧ py "Depends" ≠ py "MinimumOSVersion" ∧
    py "Depends" ≠ py "Provides" := by
  decide +kernel

theorem filter_editFields_others (fields : List Field) :
    (editFields u pkg fields).filter (¬Managed pkg ·) = fields.filter (¬Managed pkg ·) := by
  induction fields with
  | nil => rfl
  | cons f fields ih =>
    unfold editFields at ih ⊢
    rw [List.flatMap_cons, List.filter_append, ih, List.filter_cons]
    unfold editField
    by_cases dropped : Dropped pkg f
    · simp [dropped, Managed]
    · cases added : additions pkg f with
      | none => simp [dropped, added, Managed]
      | some adds =>
        have managed : Managed pkg { f with value := merged u adds f.value } := by
          right
          change (additions pkg f).isSome = true
          rw [added]
          rfl
        have managed' : Managed pkg f := managed
        simp [dropped, managed, managed']

theorem filter_editFields_minos (fields : List Field) :
    (editFields u pkg fields).filter (·.name = py "MinimumOSVersion") = [] := by
  rw [List.filter_eq_nil_iff]
  intro g member
  obtain ⟨f, -, became⟩ := List.mem_flatMap.mp member
  unfold editField at became
  split at became
  · cases became
  · rename_i kept
    have other : f.name ≠ py "MinimumOSVersion" := fun same => kept (Or.inl same)
    split at became
    · rw [List.mem_singleton.mp became]
      simpa using other
    · rw [List.mem_singleton.mp became]
      simpa using other

theorem filter_editFields_provides (fixed : (lookup providesFix pkg).isSome = true)
    (fields : List Field) :
    (editFields u pkg fields).filter (·.name = py "Provides") = [] := by
  rw [List.filter_eq_nil_iff]
  intro g member
  obtain ⟨f, -, became⟩ := List.mem_flatMap.mp member
  unfold editField at became
  split at became
  · cases became
  · rename_i kept
    have other : f.name ≠ py "Provides" := fun same => kept (Or.inr ⟨same, fixed⟩)
    split at became
    · rw [List.mem_singleton.mp became]
      simpa using other
    · rw [List.mem_singleton.mp became]
      simpa using other

theorem not_dropped_depends (depends : f.name = py "Depends") : ¬Dropped pkg f := by
  unfold Dropped
  rw [depends]
  rintro (minos | provides)
  · exact names_ne.2.1 minos
  · exact names_ne.2.2 provides.1

theorem filter_editFields_depends (found : lookup dependsAdd pkg = some adds)
    (fields : List Field) :
    (editFields u pkg fields).filter (·.name = py "Depends") =
      (fields.filter (·.name = py "Depends")).map fun f =>
        { f with value := merged u adds f.value } := by
  induction fields with
  | nil => rfl
  | cons f fields ih =>
    unfold editFields at ih ⊢
    rw [List.flatMap_cons, List.filter_append, ih, List.filter_cons]
    unfold editField
    by_cases depends : f.name = py "Depends"
    · have added : additions pkg f = some adds := by
        unfold additions
        rw [if_pos depends, found]
      rw [if_neg (not_dropped_depends depends), added]
      simp [depends]
    · have none : additions pkg f = none := if_neg depends
      rw [none]
      by_cases dropped : Dropped pkg f <;> simp [dropped, depends]

theorem managed_insertedFields (member : f ∈ insertedFields pkg minos had) : Managed pkg f := by
  rcases mem_insertedFields member with rfl | ⟨provides, found, rfl⟩ | ⟨adds, found, -, rfl⟩
  · exact Or.inl (Or.inl rfl)
  · exact Or.inl (Or.inr ⟨rfl, by rw [found]; rfl⟩)
  · right
    unfold additions
    rw [if_pos rfl, found]
    rfl

theorem filter_insertedFields_others (minos : PyString) (had : Bool) :
    (insertedFields pkg minos had).filter (¬Managed pkg ·) = [] := by
  rw [List.filter_eq_nil_iff]
  intro f member
  simpa using managed_insertedFields member

theorem more_insertedFields (member : f ∈ insertedFields pkg minos had) : f.more = [] := by
  rcases mem_insertedFields member with rfl | ⟨provides, found, rfl⟩ | ⟨adds, found, -, rfl⟩ <;>
    rfl

variable (pkg) in
theorem filter_insertedFields (minos : PyString) (had : Bool) :
    (insertedFields pkg minos had).filter (·.name = py "MinimumOSVersion") = minosFields minos ∧
      (insertedFields pkg minos had).filter (·.name = py "Provides") = providesFields pkg ∧
      (insertedFields pkg minos had).filter (·.name = py "Depends") = dependsFields pkg had := by
  obtain ⟨first, second, third⟩ := names_ne
  unfold insertedFields minosFields providesFields dependsFields
  by_cases absent : minos = [] <;> cases lookup providesFix pkg <;>
    cases lookup dependsAdd pkg <;> cases had <;>
    simp [absent, first, second, third, first.symm, second.symm, third.symm]

theorem hadDep_eq (found : lookup dependsAdd pkg = some adds) (fields : List Field) :
    hadDep pkg fields = true ↔ fields.filter (·.name = py "Depends") ≠ [] := by
  unfold hadDep additions
  rw [List.any_eq_true, Ne, List.filter_eq_nil_iff, found]
  simp

/-- A field is extended by what it does not mention yet. -/
theorem extends_merged (plain : ∀ w ∈ adds, Plain u w)
    (complete : f.more ≠ [] → missing u adds f.value = []) :
    Extends u adds f { f with value := merged u adds f.value } := by
  unfold Extends Field.text
  cases same : f.more with
  | nil =>
    rw [List.intercalate_singleton, List.intercalate_singleton]
    exact clauses_merged plain f.value
  | cons next more =>
    -- A folded field lacks nothing in its first line.
    have none := complete (by rw [same]; exact List.cons_ne_nil _ _)
    rw [List.intercalate_cons_cons, List.intercalate_cons_cons, List.append_assoc,
      List.append_assoc, List.singleton_append]
    generalize [10].intercalate (next :: more) = rest
    have lacks : missing u adds (f.value ++ 10 :: rest) = [] := by
      have fewer := missing_folded (u := u) adds f.value rest
      rw [none] at fewer
      exact List.sublist_nil.mp fewer
    have value : merged u adds f.value = u.rstrip f.value := by
      unfold merged
      rw [if_pos none, List.append_nil]
    rw [lacks, value, List.map_nil, List.append_nil]
    -- Only white space at the end of the first line is lost, and its clauses are the same.
    obtain ⟨before, last, first, after, whole, further, joined⟩ :=
      clauses_space (isSpace_break (u := u)) f.value rest
    obtain ⟨before', last', first', after', whole', further', joined'⟩ :=
      clauses_space (isSpace_break (u := u)) (u.rstrip f.value) rest
    rw [clauses_rstrip, whole] at whole'
    rw [further] at further'
    obtain ⟨rfl, ends⟩ := List.append_inj' whole' rfl
    obtain ⟨rfl, rfl⟩ := List.cons.inj further'
    obtain ⟨rfl, -⟩ := List.cons.inj ends
    rw [joined, joined']

theorem filter_writtenFields_depends (found : lookup dependsAdd pkg = some adds)
    (minos : PyString) (before after : List Field) :
    (writtenFields u pkg minos before after).filter (·.name = py "Depends") =
      ((before.filter (·.name = py "Depends")).map fun f =>
        { f with value := merged u adds f.value }) ++
      dependsFields pkg (hadDep pkg (before ++ after)) ++
      ((after.filter (·.name = py "Depends")).map fun f =>
        { f with value := merged u adds f.value }) := by
  unfold writtenFields
  rw [List.filter_append, List.filter_append, filter_editFields_depends found,
    filter_editFields_depends found, (filter_insertedFields pkg minos _).2.2]

variable (u pkg) in
theorem hadDep_writtenFields (minos : PyString) (before after : List Field) :
    hadDep pkg (writtenFields u pkg minos before after) = (lookup dependsAdd pkg).isSome := by
  cases found : lookup dependsAdd pkg with
  | none =>
    unfold hadDep additions
    rw [found, Option.isSome_none, List.any_eq_false]
    simp
  | some adds =>
    rw [Option.isSome_some, hadDep_eq found, filter_writtenFields_depends found]
    intro none
    rw [List.append_eq_nil_iff, List.append_eq_nil_iff, List.map_eq_nil_iff,
      List.map_eq_nil_iff] at none
    -- Without a dependency field before, one is inserted.
    have absent : hadDep pkg (before ++ after) = false := by
      rw [← Bool.not_eq_true, hadDep_eq found, List.filter_append, none.1.1, none.2]
      exact not_not_intro rfl
    have inserted := none.1.2
    rw [absent] at inserted
    unfold dependsFields at inserted
    rw [found] at inserted
    cases inserted

/-- The written fields are the old ones with the additions merged. -/
theorem preserves_written {before after : List Field}
    (complete : ∀ f ∈ before ++ after, ∀ adds, additions pkg f = some adds → f.more ≠ [] →
      missing u adds f.value = []) :
    Preserves u pkg minos (before ++ after) (writtenFields u pkg minos before after) := by
  obtain ⟨ofMinos, ofProvides, ofDepends⟩ :=
    filter_insertedFields pkg minos (hadDep pkg (before ++ after))
  constructor
  · unfold writtenFields
    rw [List.filter_append, List.filter_append, filter_editFields_others,
      filter_editFields_others, filter_insertedFields_others, List.append_nil,
      List.filter_append]
  · unfold writtenFields
    rw [List.filter_append, List.filter_append, filter_editFields_minos,
      filter_editFields_minos, ofMinos, List.nil_append, List.append_nil]
  · intro provides found
    have fixed : (lookup providesFix pkg).isSome = true := by rw [found]; rfl
    unfold writtenFields
    rw [List.filter_append, List.filter_append, filter_editFields_provides fixed,
      filter_editFields_provides fixed, ofProvides, List.nil_append, List.append_nil]
    unfold providesFields
    rw [found]
  · intro adds found
    have had := hadDep_eq found (before ++ after)
    rw [filter_writtenFields_depends found]
    unfold dependsFields
    rw [found]
    dsimp only
    -- A field of dependencies is only inserted if there was none.
    split
    · rename_i none
      have absent : hadDep pkg (before ++ after) = false := by
        rw [← Bool.not_eq_true, had]
        exact not_not_intro none
      rw [List.filter_append, List.append_eq_nil_iff] at none
      rw [absent, none.1, none.2]
      rfl
    · rename_i some
      rw [if_pos (had.mpr some), List.append_nil, ← List.map_append, ← List.filter_append,
        List.forall₂_map_right_iff, List.forall₂_same]
      intro f member
      rw [List.mem_filter, decide_eq_true_iff] at member
      apply extends_merged (plain_dependsAdd found) (complete f member.1 adds _)
      rw [additions, if_pos member.2, found]

theorem valid_writtenFields (plain : 10 ∉ minos) {before after : List Field}
    (valid : ∀ f ∈ before ++ after, f.Valid) :
    ∀ f ∈ writtenFields u pkg minos before after, f.Valid := by
  rw [List.forall_mem_append] at valid
  unfold writtenFields
  rw [List.forall_mem_append, List.forall_mem_append]
  exact ⟨⟨valid_editFields valid.1, valid_insertedFields plain _⟩, valid_editFields valid.2⟩

end

end StampMinos

end Xios
