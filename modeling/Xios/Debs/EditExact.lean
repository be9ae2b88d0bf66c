import Xios.Debs.EditWeight

/-! Editing a control file twice, and reading it after, shows whether it could be edited. -/

namespace Xios

namespace StampMinos

section

variable {u : PyText} {pkg : Option PyString}

theorem managed_iff {f : Field} : Managed pkg f ↔ f.name = py "MinimumOSVersion" ∨
    f.name = py "Provides" ∧ (lookup providesFix pkg).isSome = true ∨
    f.name = py "Depends" ∧ (lookup dependsAdd pkg).isSome = true := by
  unfold Managed Dropped additions
  rw [or_assoc]
  by_cases depends : f.name = py "Depends" <;> simp [depends]

variable (pkg) in
theorem sum_managed (w : Field → Nat) (fields : List Field) :
    (fields.map w).sum = ((fields.filter (¬Managed pkg ·)).map w).sum +
      ((fields.filter (·.name = py "MinimumOSVersion")).map w).sum +
      (if (lookup providesFix pkg).isSome then
        ((fields.filter (·.name = py "Provides")).map w).sum else 0) +
      if (lookup dependsAdd pkg).isSome then
        ((fields.filter (·.name = py "Depends")).map w).sum else 0 := by
  obtain ⟨first, second, third⟩ := names_ne
  induction fields with
  | nil => simp
  | cons f fields ih =>
    have managed : Managed pkg f ↔ _ := managed_iff
    rw [List.map_cons, List.sum_cons, ih, List.filter_cons, List.filter_cons, List.filter_cons,
      List.filter_cons]
    -- A field with a managed name has no other one.
    by_cases minos : f.name = py "MinimumOSVersion"
    · rw [minos] at managed
      simp [managed, minos, first.symm, second.symm]
      omega
    · by_cases provides : f.name = py "Provides"
      · rw [provides] at managed
        by_cases fixed : (lookup providesFix pkg).isSome = true <;>
        · simp [managed, provides, fixed, first, third.symm]
          omega
      · by_cases depends : f.name = py "Depends"
        · rw [depends] at managed
          by_cases added : (lookup dependsAdd pkg).isSome = true <;>
          · simp [managed, depends, added, second, third]
            omega
        · simp [managed, minos, provides, depends]
          omega

variable {minos : PyString} {fields written : List Field}

theorem sum_depends (preserves : Preserves u pkg minos fields written) :
    (if (lookup dependsAdd pkg).isSome then
        ((written.filter (·.name = py "Depends")).map (fieldWeight u)).sum else 0) ≤
      (if (lookup dependsAdd pkg).isSome then
        ((fields.filter (·.name = py "Depends")).map (editedWeight u pkg)).sum else 0) +
      ((dependsFields pkg (hadDep pkg fields)).map (fieldWeight u)).sum := by
  cases found : lookup dependsAdd pkg with
  | none => simp
  | some adds =>
    rw [if_pos (by rfl), if_pos (by rfl)]
    have depends := preserves.depends adds found
    have had := hadDep_eq found fields
    split at depends
    · rename_i none
      have absent : hadDep pkg fields = false := by
        rw [← Bool.not_eq_true, had]
        exact not_not_intro none
      rw [depends, none, absent]
      unfold dependsFields
      rw [found]
      simp
    · -- Each field that is written extends the one in its place.
      have each : ∀ {fs gs : List Field}, List.Forall₂ (Extends u adds) fs gs →
          (∀ f ∈ fs, f.name = py "Depends") → (∀ g ∈ gs, g.name = py "Depends") →
          (gs.map (fieldWeight u)).sum ≤ (fs.map (editedWeight u pkg)).sum := by
        intro fs gs related own own'
        induction related with
        | nil => exact Nat.le_refl _
        | cons extended related ih =>
          rw [List.forall_mem_cons] at own own'
          rw [List.map_cons, List.sum_cons, List.map_cons, List.sum_cons]
          exact Nat.add_le_add (fieldWeight_extends found own.1 own'.1 extended)
            (ih own.2 own'.2)
      apply Nat.le_add_right_of_le
      apply each depends
      · intro f member
        simpa using (List.mem_filter.mp member).2
      · intro g member
        simpa using (List.mem_filter.mp member).2

variable {text out : PyString}

/-- A field that is left out had no more lines. -/
theorem lineWeight_dropped (parsed : parseControl text = some fields)
    (edited : editControl u text pkg minos = some out) (parsed' : parseControl out = some written)
    (preserves : Preserves u pkg minos fields written) :
    ∀ f ∈ fields, Dropped pkg f → lineWeight u f.more = 0 := by
  have before := (weight_editControl parsed edited).1
  have after : weight u out = (written.map (fieldWeight u)).sum := by
    rw [← lineWeight_textLines, (parseControl_eq_some.mp parsed').1, lineWeight_fieldLines]
  have others : (fields.filter (¬Managed pkg ·)).map (editedWeight u pkg) =
      (fields.filter (¬Managed pkg ·)).map (fieldWeight u) := by
    apply List.map_congr_left
    intro f member
    have kept : ¬Managed pkg f := by simpa using (List.mem_filter.mp member).2
    unfold Managed at kept
    rw [not_or, Option.isSome_iff_ne_none, not_not] at kept
    unfold editedWeight
    rw [if_neg kept.1, kept.2]
  have provides : (if (lookup providesFix pkg).isSome then
      ((written.filter (·.name = py "Provides")).map (fieldWeight u)).sum else 0) =
      ((providesFields pkg).map (fieldWeight u)).sum := by
    unfold providesFields
    cases found : lookup providesFix pkg with
    | none => rfl
    | some provides =>
      rw [if_pos (by rfl), preserves.provides provides found]
  have depends := sum_depends preserves
  rw [after, sum_managed pkg (fieldWeight u), preserves.others, preserves.minos,
    provides, sum_managed pkg (editedWeight u pkg), others,
    ← fieldLines_insertedFields, lineWeight_fieldLines] at before
  unfold insertedFields at before
  rw [List.map_append, List.sum_append, List.map_append, List.sum_append] at before
  -- What is left of these fields would weigh something that no field that is written does.
  intro f member dropped
  have own : editedWeight u pkg f = lineWeight u f.more := by
    unfold editedWeight
    rw [if_pos dropped]
  rw [← own]
  rcases dropped with minos | ⟨provides, fixed⟩
  · have inside : editedWeight u pkg f ∈
        (fields.filter (·.name = py "MinimumOSVersion")).map (editedWeight u pkg) :=
      List.mem_map_of_mem (by simp [member, minos])
    have part := List.le_sum_of_mem inside
    omega
  · have inside : editedWeight u pkg f ∈
        (fields.filter (·.name = py "Provides")).map (editedWeight u pkg) :=
      List.mem_map_of_mem (by simp [member, provides])
    have part := List.le_sum_of_mem inside
    rw [if_pos fixed] at before
    omega

theorem workable_of_preserves (parsed : parseControl text = some fields)
    (filled : ∀ f ∈ fields, ∀ ln ∈ f.more, ∃ c ∈ ln, u.isSpace c = false)
    (edited : editControl u text pkg minos = some out) (parsed' : parseControl out = some written)
    (preserves : Preserves u pkg minos fields written) : ∀ f ∈ fields, Workable u pkg f := by
  intro f member
  refine ⟨fun dropped => ?_, (weight_editControl parsed edited).2 f member⟩
  have none := lineWeight_dropped parsed edited parsed' preserves f member dropped
  have solid := filled f member
  cases same : f.more with
  | nil => rfl
  | cons ln more =>
    rw [same] at none solid
    obtain ⟨c, inside, kept⟩ := solid ln List.mem_cons_self
    unfold lineWeight at none
    rw [List.map_cons, List.sum_cons, Nat.add_eq_zero_iff] at none
    have clean := List.countP_eq_zero.mp none.1 c inside
    rw [kept] at clean
    exact absurd rfl clean

/-- Text inserted into a folded Architecture field would split it. -/
theorem unsplit_of_preserves (parsed : parseControl text = some fields) (plain : 10 ∉ minos)
    (workable : ∀ f ∈ fields, Workable u pkg f) (edited : editControl u text pkg minos = some out)
    (parsed' : parseControl out = some written) (preserves : Preserves u pkg minos fields written)
    (inserts : insertions pkg minos (hadDep pkg fields) ≠ []) (a : Field)
    (final : (fields.filter (·.name = py "Architecture")).getLast? = some a) : a.more = [] := by
  have valid := (parseControl_eq_some.mp parsed).2
  obtain ⟨before, after, rfl, place⟩ := exists_place fields
  cases place with
  | ends others =>
    have none : before.filter (·.name = py "Architecture") = [] := by
      rw [List.filter_eq_nil_iff]
      simpa using others
    rw [List.append_nil, none] at final
    cases final
  | @after before after b own others =>
    rw [List.append_assoc, List.singleton_append] at *
    rw [List.forall_mem_append, List.forall_mem_cons] at workable valid
    rw [getLast?_architecture own others, Option.some.injEq] at final
    subst final
    obtain ⟨lines, found, whole⟩ := mapM_editedLines valid.1 workable.1
    obtain ⟨lines', found', whole'⟩ := mapM_editedLines valid.2.2 workable.2.2
    rw [editControl_after parsed own others, found, found'] at edited
    dsimp only [Option.bind_eq_bind, Option.bind_some, Option.pure_def] at edited
    rw [whole, whole', Option.some.injEq] at edited
    -- The lines that went on with the architecture go on with the last field that is inserted.
    rw [← fieldLines_insertedFields] at inserts edited
    have some : insertedFields pkg minos (hadDep pkg (before ++ b :: after)) ≠ [] := by
      intro none
      rw [none] at inserts
      exact inserts rfl
    have inserted : ∀ f ∈ insertedFields pkg minos (hadDep pkg (before ++ b :: after)),
        f.more = [] := fun f member => more_insertedFields member
    have managed : ∀ f ∈ insertedFields pkg minos (hadDep pkg (before ++ b :: after)),
        Managed pkg f := fun f member => managed_insertedFields member
    have readable : ∀ f ∈ insertedFields pkg minos (hadDep pkg (before ++ b :: after)),
        f.Valid := valid_insertedFields plain _
    obtain ⟨front, l, split⟩ := (List.eq_nil_or_concat' _).resolve_left some
    rw [split] at edited inserted managed readable
    rw [List.forall_mem_append, List.forall_mem_singleton] at inserted managed readable
    have lines : linesText (fieldLines (editFields u pkg before ++ { b with more := [] } ::
        (front ++ { l with more := b.more } :: editFields u pkg after))) = out := by
      rw [← edited]
      congr 1
      simp [fieldLines, Field.lines, Field.first, inserted.2]
    have valid' : ∀ f ∈ editFields u pkg before ++ { b with more := [] } ::
        (front ++ { l with more := b.more } :: editFields u pkg after), f.Valid := by
      rw [List.forall_mem_append, List.forall_mem_cons, List.forall_mem_append,
        List.forall_mem_cons]
      refine ⟨valid_editFields valid.1, valid.2.1.withMore (by simp) (by simp), readable.1, ?_,
        valid_editFields valid.2.2⟩
      apply readable.2.withMore valid.2.1.folded
      exact fun ln member => valid.2.1.breaks ln (List.mem_cons_of_mem _ member)
    rw [← lines, parseControl_linesText valid', Option.some.injEq] at parsed'
    -- The architecture is not managed, so it is preserved with all of its lines.
    have kept : ¬Managed pkg { b with more := [] } := not_managed_architecture own
    have kept' : ¬Managed pkg b := not_managed_architecture own
    have gone : Managed pkg { l with more := b.more } := managed.2
    have none : front.filter (¬Managed pkg ·) = [] := by
      rw [List.filter_eq_nil_iff]
      simpa using managed.1
    have same := preserves.others
    rw [← parsed', List.filter_append, List.filter_append, filter_editFields_others,
      List.filter_cons_of_pos (by simpa using kept), List.filter_append, none,
      List.filter_cons_of_neg (by simpa using gone), filter_editFields_others,
      List.filter_cons_of_pos (by simpa using kept'), List.append_cancel_left_eq] at same
    have heads := (List.cons.inj same).1
    rw [← heads]

theorem weight_filled {more : List PyString} (folded : more ≠ [])
    (filled : ∀ ln ∈ more, ∃ c ∈ ln, u.isSpace c = false) :
    weight u ([10].intercalate more) ≠ 0 := by
  obtain ⟨next, more, rfl⟩ := List.exists_cons_of_ne_nil folded
  obtain ⟨c, inside, kept⟩ := filled next List.mem_cons_self
  intro none
  rw [weight_intercalate] at none
  unfold lineWeight at none
  rw [List.map_cons, List.sum_cons, Nat.add_eq_zero_iff] at none
  have clean := List.countP_eq_zero.mp none.1 c inside
  rw [kept] at clean
  exact absurd rfl clean

theorem missing_of_extends {f : Field} {adds : List PyString} (plain : ∀ w ∈ adds, Plain u w)
    (extended : Extends u adds f { f with value := merged u adds f.value })
    (folded : f.more ≠ []) (filled : ∀ ln ∈ f.more, ∃ c ∈ ln, u.isSpace c = false) :
    missing u adds f.value = [] := by
  have fewer := missing_text (u := u) adds f
  unfold Extends at extended
  generalize lacks : missing u adds f.text = missing' at extended fewer
  unfold Field.text at extended lacks
  obtain ⟨next, more, same⟩ := List.exists_cons_of_ne_nil folded
  rw [same] at extended lacks filled
  rw [List.intercalate_cons_cons, List.append_assoc, List.singleton_append] at extended lacks
  rw [List.intercalate_cons_cons, List.append_assoc, List.singleton_append] at extended
  -- The lines that go on have a clause besides the one that goes on with the first line.
  have weighs : weight u ([10].intercalate (next :: more)) ≠ 0 :=
    weight_filled (List.cons_ne_nil _ _) filled
  generalize [10].intercalate (next :: more) = rest at extended lacks weighs
  obtain ⟨before, last, first, later, whole, further, joined⟩ :=
    clauses_space (isSpace_break (u := u)) f.value rest
  obtain ⟨before', last', first', later', whole', further', joined'⟩ :=
    clauses_space (isSpace_break (u := u)) (merged u adds f.value) rest
  rw [further] at further'
  obtain ⟨rfl, rfl⟩ := List.cons.inj further'
  rw [clauses_merged plain, whole] at whole'
  rcases List.eq_nil_or_concat' (missing u adds f.value) with none | ⟨lacked, w, some⟩
  · exact none
  · exfalso
    rw [some, List.map_append, ← List.append_assoc] at whole'
    obtain ⟨rfl, ends⟩ := List.append_inj' whole' rfl
    obtain ⟨rfl, -⟩ := List.cons.inj ends
    rw [joined, joined', List.append_assoc, List.append_assoc, List.append_assoc,
      List.append_cancel_left_eq] at extended
    simp only [List.cons_append, List.nil_append, List.cons.injEq] at extended
    obtain ⟨goes, rotates⟩ := extended
    obtain rfl : first = [] := by simpa using goes
    -- So the words that it lacked are the clauses after the first line, put before these.
    have rotates' : (missing u adds f.value).map (fun w => [w]) ++ later =
        later ++ missing'.map fun w => [w] := by
      rw [← rotates, some]
      simp
    have same' : missing' = missing u adds f.value := by
      have lengths := congrArg List.length rotates'
      rw [List.length_append, List.length_append, List.length_map, List.length_map] at lengths
      exact fewer.eq_of_length (by omega)
    rw [same'] at lacks
    cases later with
    | nil =>
      have total := weight_succ (u := u) rest
      rw [further] at total
      apply weighs
      simpa using total
    | cons clause later =>
      cases absent : missing u adds f.value with
      | nil => simp [absent] at some
      | cons w' others =>
        rw [absent, List.map_cons, List.cons_append, List.cons_append, List.cons.injEq]
          at rotates'
        have lacked' : w' ∈ missing u adds (f.value ++ 10 :: rest) := by
          rw [lacks, absent]
          exact List.mem_cons_self
        unfold missing at lacked'
        rw [List.mem_filter, decide_eq_true_iff] at lacked'
        apply lacked'.2
        apply mentioned_of_mem_clauses (plain w' lacked'.1)
        rw [joined, ← rotates'.1]
        simp

theorem written_eq {before after : List Field}
    (parsed : parseControl text = some (before ++ after)) (place : Place before after)
    (plain : 10 ∉ minos) (workable : ∀ f ∈ before ++ after, Workable u pkg f)
    (unsplit : insertions pkg minos (hadDep pkg (before ++ after)) ≠ [] → ∀ a,
      ((before ++ after).filter (·.name = py "Architecture")).getLast? = some a → a.more = [])
    (edited : editControl u text pkg minos = some out)
    (parsed' : parseControl out = some written) :
    written = writtenFields u pkg minos before after := by
  have valid := (parseControl_eq_some.mp parsed).2
  rw [editControl_place parsed place workable unsplit, Option.some.injEq] at edited
  rw [← edited, parseControl_linesText (valid_writtenFields plain valid)] at parsed'
  exact (Option.some.inj parsed').symm

theorem last_of_again (parsed : parseControl text = some fields) (plain : 10 ∉ minos)
    (workable : ∀ f ∈ fields, Workable u pkg f) (edited : editControl u text pkg minos = some out)
    (again : editControl u out pkg minos = some out) (parsed' : parseControl out = some written)
    (others : ∀ f ∈ fields, f.name ≠ py "Architecture")
    (adds : (lookup dependsAdd pkg).isSome = true) (had : hadDep pkg fields = false) :
    minos = [] := by
  -- Nothing is split without an architecture.
  have unsplit : ∀ {fields : List Field}, (∀ f ∈ fields, f.name ≠ py "Architecture") → ∀ a,
      ((fields ++ ([] : List Field)).filter (·.name = py "Architecture")).getLast? = some a →
        a.more = [] := by
    intro fields others a final
    have none : (fields ++ ([] : List Field)).filter (·.name = py "Architecture") = [] := by
      rw [List.append_nil, List.filter_eq_nil_iff]
      simpa using others
    rw [none] at final
    cases final
  rw [← List.append_nil fields] at parsed workable
  obtain rfl := written_eq parsed (.ends others) plain workable (fun _ => unsplit others) edited
    parsed'
  have works := (editFields_writtenFields minos workable).1
  rw [List.append_nil] at workable
  have others' : ∀ f ∈ writtenFields u pkg minos fields [], f.name ≠ py "Architecture" := by
    unfold writtenFields
    rw [List.forall_mem_append, List.forall_mem_append]
    exact ⟨⟨name_editFields others, name_insertedFields minos _⟩, by simp [editFields]⟩
  rw [← List.append_nil (writtenFields u pkg minos fields [])] at works
  have same := written_eq (by rwa [List.append_nil]) (.ends others') plain works
    (fun _ => unsplit others') again parsed'
  rw [writtenFields_ends workable, had] at same
  unfold writtenFields insertedFields at same
  rw [List.append_nil, had, List.append_assoc (editFields u pkg fields)] at same
  obtain ⟨words, found⟩ := Option.isSome_iff_exists.mp adds
  have provides : providesFields pkg = [] := by
    unfold providesFields
    rw [providesFix_eq_none adds]
  have nothing : editFields u pkg [] = [] := rfl
  rw [nothing, List.append_nil, provides, List.append_assoc, List.append_assoc,
    List.append_cancel_left_eq, List.append_nil] at same
  -- The minimum version is not the dependencies.
  by_contra filled
  unfold dependsFields minosFields at same
  rw [found, if_neg filled] at same
  have names := congrArg Field.name (List.cons.inj same).1
  exact names_ne.2.1 names.symm

/-- Editing a control file twice is the same as once, and preserves its fields, just if no managed
field is folded where it is edited, and no folded architecture is split. -/
theorem editControl_preserves_iff {text minos : PyString} {fields : List Field}
    (parsed : parseControl text = some fields)
    (filled : ∀ f ∈ fields, ∀ ln ∈ f.more, ∃ c ∈ ln, u.isSpace c = false) (plain : 10 ∉ minos) :
    (∃ out written, editControl u text pkg minos = some out ∧
      editControl u out pkg minos = some out ∧ parseControl out = some written ∧
      Preserves u pkg minos fields written) ↔ Editable u pkg minos fields := by
  constructor
  · rintro ⟨out, written, edited, again, parsed', preserves⟩
    have workable := workable_of_preserves parsed filled edited parsed' preserves
    have unsplit := unsplit_of_preserves parsed plain workable edited parsed' preserves
    refine ⟨fun f member => (workable f member).1, fun f member => (workable f member).2, ?_,
      unsplit, last_of_again parsed plain workable edited again parsed'⟩
    intro f member adds added folded
    obtain ⟨before, after, rfl, place⟩ := exists_place fields
    obtain rfl := written_eq parsed place plain workable unsplit edited parsed'
    unfold additions at added
    split at added
    · rename_i own
      -- The dependency fields that are written are the old ones with the merged values.
      have inside : f ∈ (before ++ after).filter (·.name = py "Depends") := by
        rw [List.mem_filter, decide_eq_true_iff]
        exact ⟨member, own⟩
      have depends := preserves.depends adds added
      have had : hadDep pkg (before ++ after) = true := by
        rw [hadDep_eq added]
        exact List.ne_nil_of_mem inside
      rw [if_neg (List.ne_nil_of_mem inside), filter_writtenFields_depends added, had] at depends
      unfold dependsFields at depends
      rw [added] at depends
      dsimp only at depends
      rw [if_pos rfl, List.append_nil, ← List.map_append, ← List.filter_append,
        List.forall₂_map_right_iff, List.forall₂_same] at depends
      exact missing_of_extends (plain_dependsAdd added) (depends f inside) folded
        (filled f member)
    · cases added
  · exact editControl_of_editable parsed plain

end

theorem editControl_preserves_replaced : ∃ out written,
    editControl PyText.ascii
      (linesText [py "Package: libgjs0", py "Architecture: all", py "MinimumOSVersion: 12.0",
        py "Depends: libffi8"]) (some (py "libgjs0")) (py "14.0") = some out ∧
    editControl PyText.ascii out (some (py "libgjs0")) (py "14.0") = some out ∧
    parseControl out = some written ∧
    Preserves PyText.ascii (some (py "libgjs0")) (py "14.0")
      [⟨py "Package", py " libgjs0", []⟩, ⟨py "Architecture", py " all", []⟩,
        ⟨py "MinimumOSVersion", py " 12.0", []⟩, ⟨py "Depends", py " libffi8", []⟩] written := by
  refine (editControl_preserves_iff (by decide +kernel) (by simp) (by decide +kernel)).mpr
    ⟨by simp, ?_, by simp, ?_, ?_⟩
  · unfold Readable
    decide +kernel
  · intro _ a final
    have whole : ([⟨py "Package", py " libgjs0", []⟩, ⟨py "Architecture", py " all", []⟩,
        ⟨py "MinimumOSVersion", py " 12.0", []⟩, ⟨py "Depends", py " libffi8", []⟩].filter
          fun f : Field => f.name = py "Architecture").getLast? =
        some ⟨py "Architecture", py " all", []⟩ := by decide +kernel
    rw [whole] at final
    cases final
    rfl
  · intro others
    exact absurd rfl (others ⟨py "Architecture", py " all", []⟩ (by simp))

/-- Dependencies are added in the middle of a field that goes on in another line. -/
theorem editControl_folded_depends : ∃ fields,
    parseControl (linesText [py "Package: libgjs0", py "Architecture: all",
      py "Depends: libffi8,", py " libglib2.0-0"]) = some fields ∧
    (∀ f ∈ fields, ∀ ln ∈ f.more, ∃ c ∈ ln, PyText.ascii.isSpace c = false) ∧
    ¬∃ out written,
      editControl PyText.ascii
        (linesText [py "Package: libgjs0", py "Architecture: all", py "Depends: libffi8,",
          py " libglib2.0-0"]) (some (py "libgjs0")) (py "14.0") = some out ∧
      editControl PyText.ascii out (some (py "libgjs0")) (py "14.0") = some out ∧
      parseControl out = some written ∧
      Preserves PyText.ascii (some (py "libgjs0")) (py "14.0") fields written := by
  refine ⟨[⟨py "Package", py " libgjs0", []⟩, ⟨py "Architecture", py " all", []⟩,
    ⟨py "Depends", py " libffi8,", [py " libglib2.0-0"]⟩], by decide +kernel,
    by decide +kernel, ?_⟩
  rintro ⟨out, written, edited, -, parsed, preserves⟩
  have found : editControl PyText.ascii
      (linesText [py "Package: libgjs0", py "Architecture: all", py "Depends: libffi8,",
        py " libglib2.0-0"]) (some (py "libgjs0")) (py "14.0") =
      some (linesText [py "Package: libgjs0", py "Architecture: all",
        py "MinimumOSVersion: 14.0", py "Depends: libffi8,, libcairo-gobject2",
        py " libglib2.0-0"]) := by
    decide +kernel
  rw [found] at edited
  cases edited
  have read : parseControl (linesText [py "Package: libgjs0", py "Architecture: all",
      py "MinimumOSVersion: 14.0", py "Depends: libffi8,, libcairo-gobject2",
      py " libglib2.0-0"]) =
      some [⟨py "Package", py " libgjs0", []⟩, ⟨py "Architecture", py " all", []⟩,
        ⟨py "MinimumOSVersion", py " 14.0", []⟩,
        ⟨py "Depends", py " libffi8,, libcairo-gobject2", [py " libglib2.0-0"]⟩] := by
    decide +kernel
  rw [read] at parsed
  cases parsed
  -- What is added and what goes on become one clause.
  have depends := preserves.depends [py "libcairo-gobject2"] (by decide +kernel)
  rw [if_neg (by decide +kernel)] at depends
  have old : [⟨py "Package", py " libgjs0", []⟩, ⟨py "Architecture", py " all", []⟩,
      ⟨py "Depends", py " libffi8,", [py " libglib2.0-0"]⟩].filter
        (fun f : Field => f.name = py "Depends") =
      [⟨py "Depends", py " libffi8,", [py " libglib2.0-0"]⟩] := by
    decide +kernel
  have new : [⟨py "Package", py " libgjs0", []⟩, ⟨py "Architecture", py " all", []⟩,
      ⟨py "MinimumOSVersion", py " 14.0", []⟩,
      ⟨py "Depends", py " libffi8,, libcairo-gobject2", [py " libglib2.0-0"]⟩].filter
        (fun f : Field => f.name = py "Depends") =
      [⟨py "Depends", py " libffi8,, libcairo-gobject2", [py " libglib2.0-0"]⟩] := by
    decide +kernel
  rw [old, new, List.forall₂_cons] at depends
  have extended := depends.1
  unfold Extends at extended
  revert extended
  decide +kernel

end StampMinos

end Xios
