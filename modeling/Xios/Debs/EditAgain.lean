import Xios.Debs.EditLaws

/-! A control file that is edited can be read, and is not changed by another edit. -/

namespace Xios

namespace StampMinos

/-- The fields before the place where fields are inserted, and those after it. -/
inductive Place : List Field → List Field → Prop
  | after {before after : List Field} {a : Field} (own : a.name = py "Architecture")
      (others : ∀ f ∈ after, f.name ≠ py "Architecture") : Place (before ++ [a]) after
  | ends {fields : List Field} (others : ∀ f ∈ fields, f.name ≠ py "Architecture") :
      Place fields []

theorem exists_place (fields : List Field) :
    ∃ before after, fields = before ++ after ∧ Place before after := by
  induction fields with
  | nil => exact ⟨[], [], rfl, .ends (by simp)⟩
  | cons f fields ih =>
    obtain ⟨before, after, rfl, place⟩ := ih
    cases place with
    | @after before after a own others =>
      have place : Place (f :: before ++ [a]) after := .after own others
      exact ⟨_, after, rfl, place⟩
    | ends others =>
      by_cases own : f.name = py "Architecture"
      · have place : Place ([] ++ [f]) before := .after own others
        exact ⟨[f], before, by simp, place⟩
      · refine ⟨f :: before, [], rfl, .ends ?_⟩
        rw [List.forall_mem_cons]
        exact ⟨own, others⟩

section

variable (u : PyText) (pkg : Option PyString)

/-- The fields of a control file can be edited without a line that goes on losing its field. -/
structure Editable (minos : PyString) (fields : List Field) : Prop where
  dropped : ∀ f ∈ fields, Dropped pkg f → f.more = []
  readable : ∀ f ∈ fields, (additions pkg f).isSome = true → Readable u f.value
  -- Dependencies are added to the first line of a field only.
  complete : ∀ f ∈ fields, ∀ adds, additions pkg f = some adds → f.more ≠ [] →
    missing u adds f.value = []
  -- Fields are inserted after the first line of the last architecture.
  unsplit : insertions pkg minos (hadDep pkg fields) ≠ [] →
    ∀ a, (fields.filter (·.name = py "Architecture")).getLast? = some a → a.more = []
  -- Without an architecture, the minimum version is put after other fields.
  last : (∀ f ∈ fields, f.name ≠ py "Architecture") → (lookup dependsAdd pkg).isSome = true →
    hadDep pkg fields = false → minos = []

variable {u pkg}

variable {minos : PyString} {fields : List Field}

theorem Editable.workable (editable : Editable u pkg minos fields) :
    ∀ f ∈ fields, Workable u pkg f :=
  fun f member => ⟨editable.dropped f member, editable.readable f member⟩

theorem not_managed_architecture {a : Field} (own : a.name = py "Architecture") :
    ¬Managed pkg a := by
  unfold Managed Dropped additions
  rw [own]
  rintro ((minos | provides) | depends)
  · exact absurd minos (by decide +kernel)
  · exact absurd provides.1 (by decide +kernel)
  · rw [if_neg (by decide +kernel)] at depends
    cases depends

variable {f : Field}

theorem editField_of_not_managed (kept : ¬Managed pkg f) : editField u pkg f = [f] := by
  unfold Managed at kept
  rw [not_or, Option.isSome_iff_ne_none, not_not] at kept
  unfold editField
  rw [if_neg kept.1, kept.2]

variable {before after : List Field}

theorem getLast?_architecture {b : Field} (own : b.name = py "Architecture")
    (others : ∀ f ∈ after, f.name ≠ py "Architecture") :
    ((before ++ b :: after).filter (·.name = py "Architecture")).getLast? = some b := by
  have none : after.filter (·.name = py "Architecture") = [] := by
    rw [List.filter_eq_nil_iff]
    simpa using others
  rw [List.filter_append, List.filter_cons_of_pos (by simpa using own), none, List.getLast?_concat]

/-- What is inserted stands behind one place, and all other fields are kept. -/
theorem editControl_place {text : PyString}
    (parsed : parseControl text = some (before ++ after)) (place : Place before after)
    (workable : ∀ f ∈ before ++ after, Workable u pkg f)
    (unsplit : insertions pkg minos (hadDep pkg (before ++ after)) ≠ [] → ∀ a,
      ((before ++ after).filter (·.name = py "Architecture")).getLast? = some a → a.more = []) :
    editControl u text pkg minos =
      some (linesText (fieldLines (writtenFields u pkg minos before after))) := by
  have valid := (parseControl_eq_some.mp parsed).2
  unfold writtenFields
  rw [← fieldLines_insertedFields] at unsplit
  cases place with
  | ends others =>
    rw [List.append_nil] at parsed workable valid
    obtain ⟨edited, found, lines⟩ := mapM_editedLines valid workable
    rw [editControl_end parsed others, found, Option.map_some, lines,
      ← fieldLines_insertedFields, List.append_nil]
    simp [fieldLines, editFields]
  | @after before after a own others =>
    rw [List.append_assoc, List.singleton_append] at parsed workable valid unsplit
    rw [List.forall_mem_append, List.forall_mem_cons] at workable valid
    obtain ⟨edited, found, lines⟩ := mapM_editedLines valid.1 workable.1
    obtain ⟨edited', found', lines'⟩ := mapM_editedLines valid.2.2 workable.2.2
    rw [editControl_after parsed own others, found, found']
    dsimp only [Option.bind_eq_bind, Option.bind_some, Option.pure_def]
    rw [lines, lines', ← fieldLines_insertedFields, List.append_assoc before,
      List.singleton_append]
    -- The lines of the architecture stay together if there is nothing between them.
    have together : a.first :: fieldLines (insertedFields pkg minos
        (hadDep pkg (before ++ a :: after))) ++ a.more =
        a.lines ++ fieldLines (insertedFields pkg minos (hadDep pkg (before ++ a :: after))) := by
      by_cases empty : fieldLines (insertedFields pkg minos
          (hadDep pkg (before ++ a :: after))) = []
      · rw [empty, List.append_nil]
        rfl
      · unfold Field.lines
        rw [unsplit empty a (getLast?_architecture own others), List.append_nil]
        rfl
    have itself : editFields u pkg (before ++ [a]) = editFields u pkg before ++ [a] := by
      unfold editFields
      rw [List.flatMap_append, List.flatMap_singleton,
        editField_of_not_managed (not_managed_architecture own)]
    rw [List.append_assoc (fieldLines _), together, itself]
    simp [fieldLines]

theorem editField_again {g : Field} (workable : Workable u pkg f) (member : g ∈ editField u pkg f) :
    editField u pkg g = [g] ∧ Workable u pkg g := by
  unfold editField at member
  split at member
  · cases member
  · rename_i kept
    split at member
    · rename_i adds added
      rw [List.mem_singleton.mp member]
      have plain : ∀ w ∈ adds, Plain u w := by
        unfold additions at added
        split at added
        · exact plain_dependsAdd added
        · cases added
      -- The name is the same, so it is not left out, and the same words are added.
      have kept' : ¬Dropped pkg { f with value := merged u adds f.value } := kept
      have added' : additions pkg { f with value := merged u adds f.value } = some adds := added
      constructor
      · unfold editField
        rw [if_neg kept', added']
        dsimp only
        rw [merged_merged plain]
      · refine ⟨fun dropped => absurd dropped kept', fun _ => ?_⟩
        exact readable_merged plain (workable.2 (by rw [added]; rfl))
    · rename_i none
      rw [List.mem_singleton.mp member]
      refine ⟨?_, workable⟩
      unfold editField
      rw [if_neg kept, none]

theorem editFields_again (workable : ∀ f ∈ fields, Workable u pkg f) :
    editFields u pkg (editFields u pkg fields) = editFields u pkg fields ∧
      ∀ g ∈ editFields u pkg fields, Workable u pkg g := by
  have each : ∀ g ∈ editFields u pkg fields, editField u pkg g = [g] ∧ Workable u pkg g := by
    intro g member
    obtain ⟨f, inside, became⟩ := List.mem_flatMap.mp member
    exact editField_again (workable f inside) became
  refine ⟨?_, fun g member => (each g member).2⟩
  calc editFields u pkg (editFields u pkg fields)
      = (editFields u pkg fields).flatMap fun g => [g] :=
        List.flatMap_congr fun g member => (each g member).1
    _ = editFields u pkg fields := List.flatMap_singleton' _

theorem workable_insertedFields {had : Bool} (member : f ∈ insertedFields pkg minos had) :
    Workable u pkg f := by
  refine ⟨fun _ => more_insertedFields member, fun added => ?_⟩
  rcases mem_insertedFields member with rfl | ⟨provides, -, rfl⟩ | ⟨adds, found, -, rfl⟩
  · unfold additions at added
    rw [if_neg names_ne.2.1.symm] at added
    cases added
  · unfold additions at added
    rw [if_neg names_ne.2.2.symm] at added
    cases added
  · exact readable_commaList (plain_dependsAdd found)

theorem editFields_insertedFields (minos : PyString) (had : Bool) :
    editFields u pkg (insertedFields pkg minos had) = dependsFields pkg had := by
  -- The minimum version and what is provided are left out, to be inserted again.
  have gone : editFields u pkg (minosFields minos ++ providesFields pkg) = [] := by
    unfold editFields
    rw [List.flatMap_eq_nil_iff]
    intro f member
    unfold editField
    apply if_pos
    have inside : f ∈ insertedFields pkg minos true := by
      unfold insertedFields
      exact List.mem_append_left _ member
    rcases mem_insertedFields inside with rfl | ⟨provides, found, rfl⟩ | ⟨adds, -, had, -⟩
    · exact Or.inl rfl
    · exact Or.inr ⟨rfl, by rw [found]; rfl⟩
    · cases had
  have stays : editFields u pkg (dependsFields pkg had) = dependsFields pkg had := by
    unfold dependsFields
    cases found : lookup dependsAdd pkg with
    | none => rfl
    | some adds =>
      cases had with
      | true => rfl
      | false =>
        have kept : ¬Dropped pkg ⟨py "Depends", 32 :: commaList adds, []⟩ :=
          not_dropped_depends rfl
        have added : additions pkg ⟨py "Depends", 32 :: commaList adds, []⟩ = some adds := by
          unfold additions
          rw [if_pos rfl, found]
        have same := merged_commaList (u := u) (plain_dependsAdd found) (dependsAdd_ne_nil found)
        simp [editFields, editField, kept, added, same]
  unfold insertedFields
  unfold editFields at gone stays ⊢
  rw [List.flatMap_append, gone, stays, List.nil_append]

theorem editFields_writtenFields (minos : PyString)
    (workable : ∀ f ∈ before ++ after, Workable u pkg f) :
    (∀ f ∈ writtenFields u pkg minos before after, Workable u pkg f) ∧
      editFields u pkg (writtenFields u pkg minos before after) = editFields u pkg before ++
        dependsFields pkg (hadDep pkg (before ++ after)) ++ editFields u pkg after := by
  rw [List.forall_mem_append] at workable
  obtain ⟨same, works⟩ := editFields_again workable.1
  obtain ⟨same', works'⟩ := editFields_again workable.2
  unfold writtenFields
  rw [List.forall_mem_append, List.forall_mem_append]
  refine ⟨⟨⟨works, fun f member => workable_insertedFields member⟩, works'⟩, ?_⟩
  have parts : ∀ first second : List Field, editFields u pkg (first ++ second) =
      editFields u pkg first ++ editFields u pkg second :=
    fun _ _ => List.flatMap_append
  rw [parts, parts, same, same', editFields_insertedFields]

theorem insertedFields_isSome (minos : PyString) :
    insertedFields pkg minos (lookup dependsAdd pkg).isSome =
      minosFields minos ++ providesFields pkg := by
  unfold insertedFields dependsFields
  cases lookup dependsAdd pkg with
  | none => simp
  | some adds => simp

theorem providesFix_eq_none (some : (lookup dependsAdd pkg).isSome = true) :
    lookup providesFix pkg = none := by
  have table : ∀ entry ∈ dependsAdd, providesFix.lookup entry.1 = none := by decide +kernel
  obtain ⟨adds, found⟩ := Option.isSome_iff_exists.mp some
  obtain ⟨name, same, row⟩ := Option.bind_eq_some_iff.mp found
  obtain ⟨before, after, whole, -⟩ := List.lookup_eq_some_iff.mp row
  rw [same]
  exact table (name, adds) (by rw [whole]; simp)

theorem writtenFields_ends (workable : ∀ f ∈ fields, Workable u pkg f) :
    writtenFields u pkg minos (writtenFields u pkg minos fields []) [] =
      editFields u pkg fields ++ dependsFields pkg (hadDep pkg fields) ++
        (minosFields minos ++ providesFields pkg) := by
  have edited : editFields u pkg (writtenFields u pkg minos fields []) = _ :=
    (editFields_writtenFields minos (by rwa [List.append_nil])).2
  have had := hadDep_writtenFields u pkg minos fields []
  generalize writtenFields u pkg minos fields [] = written at edited had ⊢
  unfold writtenFields
  rw [edited, List.append_nil, List.append_nil, had, insertedFields_isSome]
  simp [editFields]

theorem writtenFields_after (workable : ∀ f ∈ before ++ after, Workable u pkg f) :
    writtenFields u pkg minos (editFields u pkg before)
      (insertedFields pkg minos (hadDep pkg (before ++ after)) ++ editFields u pkg after) =
      writtenFields u pkg minos before after := by
  have had := hadDep_writtenFields u pkg minos before after
  obtain ⟨same, -⟩ := editFields_again (List.forall_mem_append.mp workable).1
  obtain ⟨same', -⟩ := editFields_again (List.forall_mem_append.mp workable).2
  unfold writtenFields at had ⊢
  rw [← List.append_assoc, had, insertedFields_isSome, same]
  have parts : ∀ first second : List Field, editFields u pkg (first ++ second) =
      editFields u pkg first ++ editFields u pkg second :=
    fun _ _ => List.flatMap_append
  rw [parts, same', editFields_insertedFields]
  unfold insertedFields
  simp only [List.append_assoc]

theorem name_editField {g : Field} (member : g ∈ editField u pkg f) : g.name = f.name := by
  unfold editField at member
  split at member
  · cases member
  · split at member <;> rw [List.mem_singleton.mp member]

theorem Preserves.architectures {written : List Field}
    (preserves : Preserves u pkg minos fields written) :
    written.filter (·.name = py "Architecture") = fields.filter (·.name = py "Architecture") := by
  have inside : ∀ fields : List Field, (fields.filter (¬Managed pkg ·)).filter
      (·.name = py "Architecture") = fields.filter (·.name = py "Architecture") := by
    intro fields
    rw [List.filter_filter]
    apply List.filter_congr
    intro f _
    by_cases own : f.name = py "Architecture"
    · simp [own, not_managed_architecture own]
    · simp [own]
  rw [← inside written, preserves.others, inside]

theorem name_editFields (others : ∀ f ∈ fields, f.name ≠ py "Architecture") :
    ∀ g ∈ editFields u pkg fields, g.name ≠ py "Architecture" := by
  intro g member
  obtain ⟨f, inside, became⟩ := List.mem_flatMap.mp member
  rw [name_editField became]
  exact others f inside

theorem name_insertedFields (minos : PyString) (had : Bool) :
    ∀ g ∈ insertedFields pkg minos had, g.name ≠ py "Architecture" := by
  intro g member own
  exact not_managed_architecture own (managed_insertedFields member)

/-- What was inserted once is found again in the same place. -/
theorem place_again (place : Place before after)
    (editable : Editable u pkg minos (before ++ after)) : ∃ before' after',
      Place before' after' ∧ writtenFields u pkg minos before after = before' ++ after' ∧
        writtenFields u pkg minos before' after' = writtenFields u pkg minos before after := by
  have workable := editable.workable
  cases place with
  | ends others =>
    rw [List.append_nil] at workable
    refine ⟨_, [], .ends ?_, (List.append_nil _).symm, ?_⟩
    · unfold writtenFields
      rw [List.forall_mem_append, List.forall_mem_append]
      exact ⟨⟨name_editFields others, name_insertedFields minos _⟩, by simp [editFields]⟩
    · rw [writtenFields_ends workable]
      unfold writtenFields insertedFields
      rw [List.append_nil]
      -- The fields are inserted in the same order if the dependencies are the only one.
      cases found : lookup dependsAdd pkg with
      | none => simp [dependsFields, found, editFields]
      | some adds =>
        have some : (lookup dependsAdd pkg).isSome = true := by rw [found]; rfl
        have provides : providesFields pkg = [] := by
          unfold providesFields
          rw [providesFix_eq_none some]
        cases had : hadDep pkg before with
        | true => simp [dependsFields, found, editFields]
        | false =>
          have absent := editable.last (by rwa [List.append_nil]) some (by rwa [List.append_nil])
          simp [minosFields, absent, provides, editFields]
  | @after before after a own others =>
    have itself : editFields u pkg (before ++ [a]) = editFields u pkg before ++ [a] := by
      unfold editFields
      rw [List.flatMap_append, List.flatMap_singleton,
        editField_of_not_managed (not_managed_architecture own)]
    refine ⟨editFields u pkg (before ++ [a]), _, ?_, ?_, writtenFields_after workable⟩
    · rw [itself]
      refine .after own ?_
      rw [List.forall_mem_append]
      exact ⟨name_insertedFields minos _, name_editFields others⟩
    · unfold writtenFields
      rw [List.append_assoc]

theorem insertions_again (again : insertions pkg minos
      (hadDep pkg (writtenFields u pkg minos before after)) ≠ []) (had : Bool) :
    insertions pkg minos had ≠ [] := by
  rw [hadDep_writtenFields] at again
  intro none
  apply again
  rw [← fieldLines_insertedFields] at none ⊢
  unfold insertedFields at none
  rw [insertedFields_isSome]
  unfold fieldLines at none ⊢
  rw [List.flatMap_append, List.append_eq_nil_iff] at none
  exact none.1

theorem editControl_of_editable {text : PyString} (parsed : parseControl text = some fields)
    (plain : 10 ∉ minos) (editable : Editable u pkg minos fields) :
    ∃ out written, editControl u text pkg minos = some out ∧
      editControl u out pkg minos = some out ∧ parseControl out = some written ∧
      Preserves u pkg minos fields written := by
  obtain ⟨before, after, rfl, place⟩ := exists_place fields
  have valid := (parseControl_eq_some.mp parsed).2
  have preserves : Preserves u pkg minos (before ++ after)
      (writtenFields u pkg minos before after) := preserves_written editable.complete
  have parsed' : parseControl (linesText (fieldLines (writtenFields u pkg minos before after))) =
      some (writtenFields u pkg minos before after) :=
    parseControl_linesText (valid_writtenFields plain valid)
  refine ⟨_, _, editControl_place parsed place editable.workable editable.unsplit, ?_, parsed',
    preserves⟩
  -- The second edit finds the same place in what the first one wrote.
  obtain ⟨before', after', place', parts, same⟩ := place_again place editable
  have works := (editFields_writtenFields minos editable.workable).1
  have architectures := preserves.architectures
  have inserted : insertions pkg minos (hadDep pkg (writtenFields u pkg minos before after)) ≠ [] →
      ∀ had, insertions pkg minos had ≠ [] := insertions_again
  rw [parts] at parsed' works architectures inserted
  rw [parts, editControl_place parsed' place' works, same, parts]
  intro again a final
  rw [architectures] at final
  exact editable.unsplit (inserted again _) a final

end

end StampMinos

end Xios
