import Xios.Lib.Splitting
import Xios.Repo.Make
import Xios.Repo.MergeLaws

/-! An index has one stanza for each package, that of its newest file, and is read back. -/

namespace Xios

namespace MakeRepo

open MergePackages Comparison

theorem mapM_eq_ok {α β : Type} {f : α → Except Failure β} {l : List α} {r : List β} :
    l.mapM f = .ok r ↔ l.map f = r.map .ok := by
  induction l generalizing r with
  | nil =>
    rw [List.mapM_nil, List.map_nil, eq_comm (a := []), List.map_eq_nil_iff]
    exact ⟨fun same => (Except.ok.inj same).symm, fun empty => congrArg _ empty.symm⟩
  | cons a l ih =>
    rw [List.mapM_cons, List.map_cons]
    cases first : f a with
    | error e =>
      refine iff_of_false nofun ?_
      cases r <;> simp
    | ok b =>
      cases rest : l.mapM f with
      | error e =>
        refine iff_of_false nofun ?_
        cases r with
        | nil => simp
        | cons c r =>
          intro same
          have whole := ih.mpr (List.cons.inj same).2
          rw [rest] at whole
          cases whole
      | ok bs =>
        have found := ih.mp rest
        show (Except.ok (b :: bs) : Except Failure (List β)) = .ok r ↔ _
        rw [found]
        cases r with
        | nil => simp
        | cons c r =>
          rw [List.map_cons, List.cons.injEq, Except.ok.injEq, Except.ok.injEq, List.cons.injEq,
            List.map_inj_right fun _ _ => Except.ok.inj]

namespace Control

variable {fields : List Field} {name value : PyString}

theorem values_order (fields : List Field) : (ofFields fields).values (py "__order__") = none := by
  simp [ofFields]

theorem mem_of_values (found : (ofFields fields).values name = some value) :
    (name, value) ∈ fields := by
  have plain : name ≠ py "__order__" := by
    rintro rfl
    rw [values_order] at found
    cases found
  unfold ofFields at found
  simp only [Function.update_of_ne plain] at found
  induction fields using List.reverseRecOn with
  | nil => cases found
  | append_singleton front field ih =>
    rw [List.foldl_append, List.foldl_cons, List.foldl_nil] at found
    rw [List.mem_append, List.mem_singleton]
    by_cases same : name = field.1
    · subst same
      rw [Function.update_self] at found
      exact .inr (Prod.ext rfl (Option.some.inj found).symm)
    · rw [Function.update_of_ne same] at found
      exact .inl (ih found)

theorem exists_value (member : name ∈ fields.map Prod.fst) (plain : name ≠ py "__order__") :
    ∃ value, (ofFields fields).values name = some value := by
  unfold ofFields
  simp only [Function.update_of_ne plain]
  induction fields using List.reverseRecOn with
  | nil => cases member
  | append_singleton front field ih =>
    rw [List.foldl_append, List.foldl_cons, List.foldl_nil]
    by_cases same : name = field.1
    · exact ⟨field.2, by rw [same, Function.update_self]⟩
    · rw [Function.update_of_ne same]
      apply ih
      simpa [same] using member

theorem fields_ofFields : (ofFields fields).fields = fields.map (fun f => (f.1, some f.2)) ↔
    ∀ f ∈ fields, f.1 ≠ py "__order__" ∧ ∀ g ∈ fields, g.1 = f.1 → g.2 = f.2 := by
  have pairs : (ofFields fields).fields = fields.map fun f => (f.1, (ofFields fields).values f.1) :=
    List.map_map
  rw [pairs, List.map_inj_left]
  simp only [Prod.mk.injEq, true_and]
  constructor
  · intro found f member
    refine ⟨?_, fun g other same => ?_⟩
    · intro name
      have value := found f member
      rw [name, values_order] at value
      cases value
    · have value := found g other
      rw [same, found f member] at value
      exact (Option.some.inj value).symm
  · intro single f member
    obtain ⟨value, found⟩ := exists_value (List.mem_map_of_mem member) (single f member).1
    rw [found]
    exact congrArg some ((single f member).2 _ (mem_of_values found) rfl)

end Control

/-- A field whose line is read as it is written. -/
structure Plain (field : Field) : Prop where
  name : ∀ c ∈ field.1, PyText.isLineBreak c = false
  gapless : ¬[58, 32] <:+: field.1
  value : ∀ c ∈ field.2, PyText.isLineBreak c = false

theorem line_eq (field : Field) : line field = field.1 ++ 58 :: 32 :: field.2 := by
  unfold line
  rw [List.append_assoc]
  rfl

theorem line_ne_nil (field : Field) : line field ≠ [] := by
  rw [line_eq]
  simp

variable {continues : Nat → Bool}

theorem plain_of_mem_readFields {text : PyString} {field : Field}
    (member : field ∈ readFields continues text) :
    Plain field ∧ field.1.head?.any continues = false := by
  obtain ⟨ln, inside, found⟩ := List.mem_filterMap.mp member
  split at found
  · cases found
  · rename_i starts
    obtain ⟨whole, gapless⟩ := PyText.cutPair_eq_some found
    have single : ∀ c ∈ ln, PyText.isLineBreak c = false := fun c => PyText.of_mem_lines inside
    subst whole
    refine ⟨⟨fun c member => single c (by simp [member]), gapless,
      fun c member => single c (by simp [member])⟩, ?_⟩
    cases named : field.1 with
    | nil => rfl
    | cons c name =>
      rw [named] at starts
      simpa using starts

theorem Plain.line_single {field : Field} (plain : Plain field) :
    ∀ c ∈ line field, PyText.isLineBreak c = false := by
  intro c member
  rw [line_eq, List.mem_append, List.mem_cons, List.mem_cons] at member
  rcases member with inside | rfl | rfl | inside
  · exact plain.name c inside
  · rfl
  · rfl
  · exact plain.value c inside

variable {fields : List Field}

theorem lines_stanza (plain : ∀ f ∈ fields, Plain f) :
    PyText.lines (stanza fields) = fields.map line := by
  apply PyText.lines_intercalate
  · exact List.forall_mem_map.mpr fun f _ => line_ne_nil f
  · exact List.forall_mem_map.mpr fun f member => (plain f member).line_single

theorem readFields_stanza (plain : ∀ f ∈ fields, Plain f) :
    readFields continues (stanza fields) =
      fields.filter fun f => !(line f).head?.any continues := by
  unfold readFields
  rw [lines_stanza plain, List.filterMap_map, ← List.filterMap_eq_filter]
  apply List.filterMap_congr
  intro f member
  have cut : PyText.cutPair 58 32 (line f) = some f := by
    rw [line_eq]
    exact PyText.cutPair_append (by decide) f.2 (plain f member).gapless
  dsimp only [Function.comp_apply]
  rw [cut]
  cases continued : (line f).head?.any continues <;> simp [Option.guard, continued]

def reread (fields : List Field) : List Field :=
  fields.filter fun f => !(line f).head?.any fun c => c = 32 || c = 9

theorem parseBlock_stanza (plain : ∀ f ∈ fields, Plain f)
    (named : ∃ f ∈ fields, f.1 = py "Package") :
    parseBlock (stanza fields) = .ok (.ofFields (reread fields)) := by
  obtain ⟨f, member, name⟩ := named
  have kept : f ∈ reread fields := by
    rw [reread, List.mem_filter, line_eq, name]
    exact ⟨member, rfl⟩
  obtain ⟨value, found⟩ := Control.exists_value
    (show py "Package" ∈ _ from List.mem_map.mpr ⟨f, kept, name⟩) (by decide)
  unfold parseBlock
  rw [readFields_stanza plain]
  exact if_neg (by rw [← reread, found]; simp)

theorem parseBlock_stripOf (block : PyString) :
    parseBlock (PyText.stripOf 10 block) = parseBlock block := by
  unfold parseBlock readFields
  rw [PyText.lines_stripOf (by decide)]

variable {u : PyText} {pkgs : List Entry}

/-- A written index is read back as its own stanzas. -/
theorem parsePackagesText_text (plain : ∀ p ∈ pkgs, ∀ f ∈ p.fields, Plain f)
    (named : ∀ p ∈ pkgs, ∃ f ∈ p.fields, f.1 = py "Package") :
    parsePackagesText u (packagesText pkgs) =
      .ok (pkgs.map fun p => .ofFields (reread p.fields)) := by
  unfold parsePackagesText
  rw [mapM_eq_ok]
  obtain rfl | nonempty := eq_or_ne pkgs []
  · -- The only block of an empty index is blank.
    have blank : u.isSpace 10 = true := u.space_ascii 10 (by decide)
    have single : PyText.splitPairs 10 (packagesText []) = [[10]] := rfl
    simp [single, blank]
  · have sound : ∀ p ∈ pkgs, ¬[10, 10] <:+: stanza p.fields ∧ (stanza p.fields).head? ≠ some 10 ∧
        (stanza p.fields).getLast? ≠ some 10 ∧ stanza p.fields ≠ [] := by
      intro p member
      obtain ⟨f, inside, -⟩ := named p member
      apply PyText.gapless_intercalate
      · exact List.ne_nil_of_mem (List.mem_map_of_mem inside)
      · exact List.forall_mem_map.mpr fun f _ => line_ne_nil f
      · refine List.forall_mem_map.mpr fun f inside break_ => ?_
        have single := (plain p member f inside).line_single 10 break_
        cases single
    have blocks : (PyText.splitPairs 10 (packagesText pkgs)).map (PyText.stripOf 10) =
        pkgs.map fun p => stanza p.fields := by
      apply PyText.splitPairs_intercalate
      · rwa [Ne, List.map_eq_nil_iff]
      · exact List.forall_mem_map.mpr fun p member => (sound p member).1
      · exact List.forall_mem_map.mpr fun p member => (sound p member).2.1
      · exact List.forall_mem_map.mpr fun p member => (sound p member).2.2.1
      · exact List.forall_mem_map.mpr fun p member => (sound p member).2.2.2
    -- No block is blank, since a package is named in it.
    have solid : ∀ block ∈ PyText.splitPairs 10 (packagesText pkgs),
        (!block.all u.isSpace) = true := by
      intro block member
      have stripped : PyText.stripOf 10 block ∈ pkgs.map fun p => stanza p.fields := by
        rw [← blocks]
        exact List.mem_map_of_mem member
      obtain ⟨p, inside, same⟩ := List.mem_map.mp stripped
      obtain ⟨f, found, name⟩ := named p inside
      have shown : 80 ∈ stanza p.fields := by
        have ln : line f ∈ PyText.lines (stanza p.fields) := by
          rw [lines_stanza (plain p inside)]
          exact List.mem_map_of_mem found
        refine (Splitting.mem_piece_splitOnP (List.mem_of_mem_filter ln) ?_).1
        rw [line_eq, name]
        exact List.mem_append_left _ (by decide)
      rw [same] at shown
      have letter : u.isSpace 80 = false := u.space_ascii 80 (by decide)
      rw [Bool.not_eq_true', List.all_eq_false]
      exact ⟨80, (PyText.stripOf_isInfix 10 block).subset shown, by simp [letter]⟩
    rw [List.filter_eq_self.mpr solid]
    calc (PyText.splitPairs 10 (packagesText pkgs)).map parseBlock
        = ((PyText.splitPairs 10 (packagesText pkgs)).map (PyText.stripOf 10)).map parseBlock := by
          rw [List.map_map]
          exact List.map_congr_left fun block _ => (parseBlock_stripOf block).symm
      _ = (pkgs.map fun p => Control.ofFields (reread p.fields)).map .ok := by
          rw [blocks, List.map_map, List.map_map]
          exact List.map_congr_left fun p member => parseBlock_stanza (plain p member)
            (named p member)

theorem fields_reread (blank : ∀ f ∈ fields, f.1.head? ≠ some 32) :
    (Control.ofFields (reread fields)).fields = fields.map (fun f => (f.1, some f.2)) ↔
      ∀ f ∈ fields, f.1.head? ≠ some 9 ∧ f.1 ≠ py "__order__" ∧
        ∀ g ∈ fields, g.1 = f.1 → g.2 = f.2 := by
  have starts : ∀ f ∈ fields, (!(line f).head?.any fun c => c = 32 || c = 9) = true ↔
      f.1.head? ≠ some 9 := by
    intro f member
    have other := blank f member
    rw [line_eq]
    cases name : f.1 with
    | nil => simp
    | cons c rest => simp_all
  constructor
  · intro same
    -- Nothing is missing, so that nothing was taken for a continuation.
    have whole : reread fields = fields := by
      have size : (reread fields).length = fields.length := by
        simpa [Control.fields, Control.ofFields] using congrArg List.length same
      exact List.filter_sublist.eq_of_length size
    rw [whole, Control.fields_ofFields] at same
    intro f member
    have kept : f ∈ reread fields := by rwa [whole]
    exact ⟨(starts f member).mp (List.mem_filter.mp kept).2, same f member⟩
  · intro single
    have whole : reread fields = fields :=
      List.filter_eq_self.mpr fun f member => (starts f member).mpr (single f member).1
    rw [whole, Control.fields_ofFields]
    exact fun f member => (single f member).2

section

variable (tree : Tree) (fn : PyString)

def package : PyString :=
  ((controlDict (tree.deb fn)).values (py "Package")).getD []

def version : PyString :=
  (controlDict (tree.deb fn)).version

/--
No name of a field begins with a tab or is that of the order of the fields, and a field that is
written after those of the file has no other value in the file.
-/
def Rereadable : Prop :=
  ∀ name ∈ (controlDict (tree.deb fn)).order,
    name.head? ≠ some 9 ∧ name ≠ py "__order__" ∧
      ∀ value, (name, value) ∈ repoFields tree fn (package tree fn) →
        (controlDict (tree.deb fn)).values name = some value

end

variable {tree : Tree} {fn : PyString} {ctrl : Control} {name : PyString}

theorem values_normalizeSection (other : name ≠ py "Section") :
    (normalizeSection u ctrl).values name = ctrl.values name := by
  unfold normalizeSection
  dsimp only
  split <;> split <;> simp [Control.set, Function.update_of_ne other]

theorem order_normalizeSection : (normalizeSection u ctrl).order = ctrl.order := by
  unfold normalizeSection
  dsimp only
  split <;> split <;> rfl

theorem values_publish {key : PyString} (other : name ≠ key) :
    (publish tree ctrl key).values name = ctrl.values name := by
  unfold publish
  dsimp only
  split <;> exact Function.update_of_ne other _ _

theorem mem_order_publish {key : PyString} :
    name ∈ (publish tree ctrl key).order ↔ name ∈ ctrl.order ∨ name = key := by
  unfold publish
  dsimp only
  split
  · rename_i present
    exact (or_iff_left_of_imp fun same => same ▸ present).symm
  · rw [List.mem_append, List.mem_singleton]
    rfl

/-- The names whose values are replaced before a stanza is written. -/
def normalized : List PyString :=
  [py "Section", py "Maintainer", py "Author"]

theorem values_normalize (other : name ∉ normalized) :
    (normalizePublisher tree (normalizeSection u ctrl)).values name = ctrl.values name := by
  simp only [normalized, List.mem_cons, List.not_mem_nil, or_false, not_or] at other
  show (publish tree (publish tree _ _) _).values name = _
  rw [values_publish other.2.2, values_publish other.2.1, values_normalizeSection other.1]

theorem mem_order_normalize :
    name ∈ (normalizePublisher tree (normalizeSection u ctrl)).order ↔
      name ∈ ctrl.order ∨ name = py "Maintainer" ∨ name = py "Author" := by
  show name ∈ (publish tree (publish tree _ _) _).order ↔ _
  rw [mem_order_publish, mem_order_publish, order_normalizeSection, or_assoc]

variable {entry : Entry}

theorem readDeb_eq_ok (read : readDeb u tree fn = .ok entry) :
    (controlDict (tree.deb fn)).values (py "Package") = some entry.pid ∧ entry.fn = fn ∧
      entry.ctrl = normalizePublisher tree (normalizeSection u (controlDict (tree.deb fn))) ∧
      entry.fields = written tree fn entry.pid entry.ctrl := by
  unfold readDeb at read
  dsimp only at read
  split at read
  · cases read
  · rename_i name named
    unfold checkedPackageName at read
    split at read
    · change (if _ then _ else _) = _ at read
      split at read
      · cases read
      · cases read
        exact ⟨named, rfl, rfl, rfl⟩
    · cases read

theorem package_eq (read : readDeb u tree fn = .ok entry) : package tree fn = entry.pid := by
  unfold package
  rw [(readDeb_eq_ok read).1]
  rfl

theorem version_eq (read : readDeb u tree fn = .ok entry) :
    entry.ctrl.version = version tree fn := by
  unfold version Control.version
  rw [(readDeb_eq_ok read).2.2.1, values_normalize (by decide)]

/-- The names of the fields that are written after those of a package file. -/
def repoNames : List PyString :=
  [py "Filename", py "Size", py "MD5sum", py "SHA1", py "SHA256", py "Icon", py "Depiction",
    py "SileoDepiction", py "Native Depiction"]

theorem map_repoFields (tree : Tree) (fn pid : PyString) :
    (repoFields tree fn pid).map Prod.fst = repoNames :=
  rfl

theorem mem_repoNames {pid value : PyString} (member : (name, value) ∈ repoFields tree fn pid) :
    name ∈ repoNames := by
  rw [← map_repoFields tree fn pid]
  exact List.mem_map_of_mem member

variable {f : Field}

theorem mem_written (read : readDeb u tree fn = .ok entry) : f ∈ entry.fields ↔
    (f.1 ∈ entry.ctrl.order ∧ f.2 = entry.ctrl.text tree.repr f.1) ∨
      f ∈ repoFields tree fn entry.pid ∨
      (entry.ctrl.values (py "Homepage")).isNone ∧
        f = (py "Homepage", (tree.homepage entry.pid).getD tree.baseUrl) := by
  rw [(readDeb_eq_ok read).2.2.2, written, List.mem_append, List.mem_append, or_assoc]
  apply or_congr
  · rw [List.mem_map]
    constructor
    · rintro ⟨name, member, rfl⟩
      exact ⟨member, rfl⟩
    · exact fun known => ⟨f.1, known.1, Prod.ext rfl known.2.symm⟩
  · apply or_congr_right
    split <;> simp_all

theorem mem_order (read : readDeb u tree fn = .ok entry) : name ∈ entry.ctrl.order ↔
    name ∈ (controlDict (tree.deb fn)).order ∨ name = py "Maintainer" ∨ name = py "Author" := by
  rw [(readDeb_eq_ok read).2.2.1, mem_order_normalize]

theorem name_cases (read : readDeb u tree fn = .ok entry) (member : f ∈ entry.fields) :
    f.1 ∈ (controlDict (tree.deb fn)).order ∨
      f.1 ∈ py "Maintainer" :: py "Author" :: py "Homepage" :: repoNames := by
  rcases (mem_written read).mp member with ⟨named, -⟩ | added | ⟨-, rfl⟩
  · rcases (mem_order read).mp named with own | same | same
    · exact .inl own
    · exact .inr (by simp [same])
    · exact .inr (by simp [same])
  · exact .inr (by simp [mem_repoNames added])
  · exact .inr (by simp)

theorem name_written (read : readDeb u tree fn = .ok entry) (member : f ∈ entry.fields) :
    (∀ c ∈ f.1, PyText.isLineBreak c = false) ∧ ¬[58, 32] <:+: f.1 ∧ f.1.head? ≠ some 32 := by
  rcases name_cases read member with own | added
  · obtain ⟨field, found, same⟩ := List.mem_map.mp own
    obtain ⟨plain, starts⟩ := plain_of_mem_readFields found
    rw [← same]
    refine ⟨plain.name, plain.gapless, fun space => ?_⟩
    rw [space] at starts
    cases starts
  · have sound : ∀ name ∈ py "Maintainer" :: py "Author" :: py "Homepage" :: repoNames,
        (∀ c ∈ name, PyText.isLineBreak c = false) ∧ ¬[58, 32] <:+: name ∧
          name.head? ≠ some 32 := by decide +kernel
    exact sound _ added

theorem package_written (read : readDeb u tree fn = .ok entry) :
    (py "Package", entry.pid) ∈ entry.fields := by
  have named := (readDeb_eq_ok read).1
  rw [mem_written read]
  refine .inl ⟨(mem_order read).mpr (.inl ?_), ?_⟩
  · exact List.mem_map_of_mem (Control.mem_of_values named)
  · show entry.pid = (entry.ctrl.values (py "Package")).getD _
    rw [(readDeb_eq_ok read).2.2.1, values_normalize (by decide), named]
    rfl

/-- When the stanzas can be read back, in terms of the control file. -/
theorem rereadable_iff (read : readDeb u tree fn = .ok entry) :
    (∀ f ∈ entry.fields, f.1.head? ≠ some 9 ∧ f.1 ≠ py "__order__" ∧
      ∀ g ∈ entry.fields, g.1 = f.1 → g.2 = f.2) ↔ Rereadable tree fn := by
  -- A value of the file is written as it is if a field of that name follows.
  have text : ∀ name ∈ repoNames, ∀ value,
      (controlDict (tree.deb fn)).values name = some value →
        entry.ctrl.text tree.repr name = value := by
    intro name member value found
    have apart : ∀ name ∈ repoNames, name ∉ normalized := by decide +kernel
    unfold Control.text
    rw [(readDeb_eq_ok read).2.2.1, values_normalize (apart name member), found]
    rfl
  unfold Rereadable
  rw [package_eq read]
  constructor
  · intro single name member
    have base : (name, entry.ctrl.text tree.repr name) ∈ entry.fields :=
      (mem_written read).mpr (.inl ⟨(mem_order read).mpr (.inl member), rfl⟩)
    obtain ⟨tab, plain, same⟩ := single _ base
    refine ⟨tab, plain, fun value added => ?_⟩
    obtain ⟨own, found⟩ := Control.exists_value member plain
    have equal : value = entry.ctrl.text tree.repr name :=
      same (name, value) ((mem_written read).mpr (.inr (.inl added))) rfl
    rw [equal, text name (mem_repoNames added) own found]
    exact found
  · intro clear
    -- What follows the fields of the file agrees with them.
    have agrees : ∀ name ∈ entry.ctrl.order, ∀ value,
        (name, value) ∈ repoFields tree fn entry.pid →
          entry.ctrl.text tree.repr name = value := by
      intro name member value added
      have apart : ∀ name ∈ repoNames, name ≠ py "Maintainer" ∧ name ≠ py "Author" := by
        decide +kernel
      have other := apart name (mem_repoNames added)
      have own := ((mem_order read).mp member).resolve_right (not_or.mpr other)
      exact text name (mem_repoNames added) value ((clear name own).2.2 value added)
    -- The home page follows only if the file has none.
    have homeless : (entry.ctrl.values (py "Homepage")).isNone → py "Homepage" ∉ entry.ctrl.order := by
      intro missing member
      have own := ((mem_order read).mp member).resolve_right (by decide)
      obtain ⟨value, found⟩ := Control.exists_value own (by decide)
      rw [(readDeb_eq_ok read).2.2.1, values_normalize (by decide)] at missing
      unfold controlDict at missing
      rw [found] at missing
      cases missing
    have foreign : py "Homepage" ∉ repoNames := by decide
    have distinct : repoNames.Nodup := by decide +kernel
    intro f member
    have named : f.1.head? ≠ some 9 ∧ f.1 ≠ py "__order__" := by
      rcases name_cases read member with own | added
      · exact ⟨(clear f.1 own).1, (clear f.1 own).2.1⟩
      · have sound : ∀ name ∈ py "Maintainer" :: py "Author" :: py "Homepage" :: repoNames,
            name.head? ≠ some 9 ∧ name ≠ py "__order__" := by decide +kernel
        exact sound _ added
    refine ⟨named.1, named.2, fun g other same => ?_⟩
    rcases (mem_written read).mp member with ⟨base, shown⟩ | added | ⟨missing, home⟩
    · rcases (mem_written read).mp other with ⟨-, shown'⟩ | added' | ⟨missing, home⟩
      · rw [shown, shown', same]
      · rw [shown, agrees f.1 base g.2 (by rw [← same]; exact added')]
      · rw [← same, home] at base
        exact absurd base (homeless missing)
    · have named' := mem_repoNames added
      rcases (mem_written read).mp other with ⟨base', shown'⟩ | added' | ⟨-, home⟩
      · rw [shown', agrees g.1 base' f.2 (by rw [same]; exact added)]
      · rw [List.inj_on_of_nodup_map (map_repoFields tree fn entry.pid ▸ distinct) added' added same]
      · rw [← same, home] at named'
        exact absurd named' foreign
    · rcases (mem_written read).mp other with ⟨base', -⟩ | added' | ⟨-, home'⟩
      · rw [same, home] at base'
        exact absurd base' (homeless missing)
      · have named' := mem_repoNames added'
        rw [same, home] at named'
        exact absurd named' foreign
      · rw [home, home']

section

variable (u) (aptPkg : Option AptPkg)

/-- What is known of the newest files among the first ones. -/
structure IsLatest (pkgs : List Entry) (n : Nat) (latestIdx : LatestIdx) : Prop where
  -- Each package has one.
  covers : ∀ i < n, ∀ p, pkgs[i]? = some p → ∃ e, latestIdx.get p.pid = some e
  -- No other file of the package is newer, and those before are older.
  newest : ∀ pid e, latestIdx.get pid = some e → e.2 < n ∧ ∃ q, pkgs[e.2]? = some q ∧ q.pid = pid ∧
    ∀ i < n, ∀ p, pkgs[i]? = some p → p.pid = pid →
      0 ≤ compareVersions u aptPkg q.ctrl.version p.ctrl.version ∧
        (i < e.2 → 0 < compareVersions u aptPkg q.ctrl.version p.ctrl.version)

/-- The order in which package files are read. -/
def Before (a b : PyString) : Prop :=
  compareFilenames u aptPkg a b < 0 ∨ compareFilenames u aptPkg a b = 0 ∧ a ≤ b

variable (tree)

/-- Whether a file is indexed rather than another one of its package. -/
def Outranks (a b : PyString) : Prop :=
  0 < compareVersions u aptPkg (version tree a) (version tree b) ∨
    compareVersions u aptPkg (version tree a) (version tree b) = 0 ∧ Before u aptPkg a b

/-- A package file of a directory that outranks all others of its package. -/
def Newest (listing : List PyString) (fn : PyString) : Prop :=
  fn ∈ listing ∧ isDeb fn = true ∧
    ∀ other ∈ listing, isDeb other = true → package tree other = package tree fn → other ≠ fn →
      Outranks u tree aptPkg fn other

end

section

variable {aptPkg : Option AptPkg} {n : Nat} {latestIdx : LatestIdx} {p q : Entry}

theorem IsLatest.set (latest : IsLatest u aptPkg pkgs n latestIdx) (here : pkgs[n]? = some p)
    (newer : ∀ i < n, ∀ q, pkgs[i]? = some q → q.pid = p.pid →
      0 < compareVersions u aptPkg p.ctrl.version q.ctrl.version) :
    IsLatest u aptPkg pkgs (n + 1) (latestIdx.set (p.pid, n)) := by
  constructor
  · intro i below q found
    rw [Dict.get_set]
    split
    · exact ⟨_, rfl⟩
    · rename_i other
      have old : i < n := by
        refine Nat.lt_of_le_of_ne (Nat.le_of_lt_succ below) ?_
        rintro rfl
        exact other (congrArg Entry.pid (Option.some.inj (here.symm.trans found)))
      exact latest.covers i old q found
  · intro pid e known
    rw [Dict.get_set] at known
    split at known
    · rename_i same
      cases known
      refine ⟨Nat.lt_succ_self n, p, here, same, fun i below q found owned => ?_⟩
      obtain old | rfl := Nat.lt_succ_iff_lt_or_eq.mp below
      · have more := newer i old q found (owned.trans same.symm)
        exact ⟨more.le, fun _ => more⟩
      · obtain rfl := Option.some.inj (here.symm.trans found)
        rw [isPreorder_compareVersions.refl]
        exact ⟨le_refl 0, fun less => absurd less (Nat.lt_irrefl i)⟩
    · rename_i other
      obtain ⟨below, q, found, owned, most⟩ := latest.newest pid e known
      refine ⟨Nat.lt_succ_of_lt below, q, found, owned, fun i small p' found' owned' => ?_⟩
      obtain old | rfl := Nat.lt_succ_iff_lt_or_eq.mp small
      · exact most i old p' found' owned'
      · obtain rfl := Option.some.inj (here.symm.trans found')
        exact absurd owned' other

theorem IsLatest.next (latest : IsLatest u aptPkg pkgs n latestIdx) (here : pkgs[n]? = some p) :
    IsLatest u aptPkg pkgs (n + 1) (noteLatest u aptPkg pkgs latestIdx (p, n)) := by
  have preorder : IsPreorder (compareVersions u aptPkg) := isPreorder_compareVersions
  unfold noteLatest
  split
  · -- The package is new.
    rename_i missing
    refine latest.set here fun i below q found owned => ?_
    obtain ⟨e, known⟩ := latest.covers i below q found
    rw [owned, missing] at known
    cases known
  · rename_i k i known
    obtain ⟨below, q, found, owned, most⟩ := latest.newest _ _ known
    rw [found]
    change IsLatest _ _ _ _ (if compareVersions u aptPkg p.ctrl.version q.ctrl.version > 0 then _ else _)
    split
    · rename_i newer
      refine latest.set here fun i' below' q' found' owned' => ?_
      have least := (most i' below' q' found' owned').1
      by_contra older
      have back : compareVersions u aptPkg q'.ctrl.version q.ctrl.version ≤ 0 := by
        by_contra more
        have := (preorder.pos_iff _ _).mp (Int.not_le.mp more)
        omega
      exact absurd newer (Int.not_lt.mpr (preorder.trans _ _ _ (Int.not_lt.mp older) back))
    · rename_i older
      constructor
      · intro i' below' q' found'
        obtain old | rfl := Nat.lt_succ_iff_lt_or_eq.mp below'
        · exact latest.covers i' old q' found'
        · obtain rfl := Option.some.inj (here.symm.trans found')
          exact ⟨_, known⟩
      · intro pid e known'
        obtain ⟨below', q', found', owned', most'⟩ := latest.newest pid e known'
        refine ⟨Nat.lt_succ_of_lt below', q', found', owned', fun j small p' there same => ?_⟩
        obtain old | rfl := Nat.lt_succ_iff_lt_or_eq.mp small
        · exact most' j old p' there same
        · obtain rfl := Option.some.inj (here.symm.trans there)
          rw [← same, known] at known'
          cases known'
          obtain rfl := Option.some.inj (found.symm.trans found')
          refine ⟨Int.not_lt.mp fun less => older ((preorder.pos_iff _ _).mpr less), fun less => ?_⟩
          exact absurd (Nat.lt_trans less below) (Nat.lt_irrefl j)

theorem isLatest_foldl {front rest : List Entry} (whole : pkgs = front ++ rest)
    (latest : IsLatest u aptPkg pkgs front.length latestIdx) :
    IsLatest u aptPkg pkgs pkgs.length
      ((rest.zipIdx front.length).foldl (noteLatest u aptPkg pkgs) latestIdx) := by
  induction rest generalizing front latestIdx with
  | nil =>
    rw [List.append_nil] at whole
    subst whole
    exact latest
  | cons p rest ih =>
    have here : pkgs[front.length]? = some p := by simp [whole]
    rw [List.zipIdx_cons, List.foldl_cons]
    have next := latest.next here
    rw [← List.length_concat (a := p)] at next ⊢
    exact ih (by simpa using whole) next

theorem isLatest_all (u : PyText) (aptPkg : Option AptPkg) (pkgs : List Entry) :
    IsLatest u aptPkg pkgs pkgs.length
      (pkgs.zipIdx.foldl (noteLatest u aptPkg pkgs) (Dict.empty _)) :=
  isLatest_foldl (List.nil_append pkgs).symm ⟨fun _ below => absurd below (Nat.not_lt_zero _), nofun⟩

theorem kept_iff {a : Entry × Nat} (member : a ∈ pkgs.zipIdx) :
    a.2 ∈ (pkgs.zipIdx.foldl (noteLatest u aptPkg pkgs) (Dict.empty _)).entries.map Prod.snd ↔
      ∃ e, (pkgs.zipIdx.foldl (noteLatest u aptPkg pkgs) (Dict.empty _)).get a.1.pid = some e ∧
        e.2 = a.2 := by
  have latest := isLatest_all u aptPkg pkgs
  generalize pkgs.zipIdx.foldl (noteLatest u aptPkg pkgs) (Dict.empty _) = latestIdx at latest ⊢
  have here := List.mem_zipIdx_iff_getElem?.mp member
  rw [List.mem_map]
  constructor
  · rintro ⟨e, inside, place⟩
    have known : latestIdx.get e.1 = some e := Dict.get_eq_some.mpr ⟨inside, rfl⟩
    obtain ⟨-, q, found, owned, -⟩ := latest.newest e.1 e known
    rw [place, here] at found
    obtain rfl := Option.some.inj found
    exact ⟨e, by rw [owned, known], place⟩
  · rintro ⟨e, known, place⟩
    exact ⟨e, (Dict.get_eq_some.mp known).1, place⟩

theorem nodup_newest : ((newest u aptPkg pkgs).map Entry.pid).Nodup := by
  have places : (pkgs.zipIdx.map Prod.snd).Nodup := by
    rw [List.zipIdx_map_snd]
    exact List.nodup_range' ..
  unfold newest
  rw [List.map_map, List.Nodup, List.pairwise_map]
  refine ((List.pairwise_map.mp places).filter _).imp_of_mem fun {a b} first second differ same => ?_
  rw [List.mem_filter, decide_eq_true_iff] at first second
  obtain ⟨e, known, place⟩ := (kept_iff first.1).mp first.2
  obtain ⟨e', known', place'⟩ := (kept_iff second.1).mp second.2
  rw [show a.1.pid = b.1.pid from same, known'] at known
  cases known
  exact differ (place.symm.trans place')

theorem exists_newest (member : p ∈ pkgs) : ∃ q ∈ newest u aptPkg pkgs, q.pid = p.pid := by
  have latest := isLatest_all u aptPkg pkgs
  obtain ⟨i, below, found⟩ := List.mem_iff_getElem.mp member
  obtain ⟨e, known⟩ := latest.covers i below p (List.getElem?_eq_some_iff.mpr ⟨below, found⟩)
  obtain ⟨-, q, there, owned, -⟩ := latest.newest _ e known
  have place : (q, e.2) ∈ pkgs.zipIdx := List.mem_zipIdx_iff_getElem?.mpr there
  refine ⟨q, ?_, owned⟩
  unfold newest
  refine List.mem_map.mpr ⟨(q, e.2), List.mem_filter.mpr ⟨place, ?_⟩, rfl⟩
  rw [decide_eq_true_iff, kept_iff place]
  exact ⟨e, by rw [owned, known], rfl⟩

theorem newest_spec (sorted : pkgs.Pairwise fun a b => Before u aptPkg a.fn b.fn)
    (kept : q ∈ newest u aptPkg pkgs) : q ∈ pkgs ∧
    ∀ p ∈ pkgs, p.pid = q.pid → 0 ≤ compareVersions u aptPkg q.ctrl.version p.ctrl.version ∧
      (0 < compareVersions u aptPkg q.ctrl.version p.ctrl.version ∨ p = q ∨
        Before u aptPkg q.fn p.fn) := by
  have latest := isLatest_all u aptPkg pkgs
  unfold newest at kept
  obtain ⟨⟨q, j⟩, inside, rfl⟩ := List.mem_map.mp kept
  rw [List.mem_filter, decide_eq_true_iff] at inside
  have here := List.mem_zipIdx_iff_getElem?.mp inside.1
  obtain ⟨e, known, rfl⟩ := (kept_iff inside.1).mp inside.2
  obtain ⟨-, q', found, -, most⟩ := latest.newest _ e known
  obtain rfl := Option.some.inj (here.symm.trans found)
  refine ⟨List.mem_of_getElem? here, fun p member owned => ?_⟩
  obtain ⟨i, below, there⟩ := List.mem_iff_getElem.mp member
  obtain ⟨least, strict⟩ := most i below p (List.getElem?_eq_some_iff.mpr ⟨below, there⟩) owned
  obtain ⟨below', here'⟩ := List.getElem?_eq_some_iff.mp here
  refine ⟨least, ?_⟩
  obtain less | rfl | more := Nat.lt_trichotomy i e.2
  · exact .inl (strict less)
  · exact .inr (.inl (there.symm.trans here'))
  · have order := List.pairwise_iff_getElem.mp sorted e.2 i below' below more
    rw [here', there] at order
    exact .inr (.inr order)

theorem Outranks.asymm {a b : PyString} (first : Outranks u tree aptPkg a b)
    (second : Outranks u tree aptPkg b a) : a = b := by
  have versions : IsPreorder (compareVersions u aptPkg) := isPreorder_compareVersions
  have names : IsPreorder (compareFilenames u aptPkg) := isPreorder_compareFilenames
  have forth := versions.pos_iff (version tree a) (version tree b)
  have back := versions.pos_iff (version tree b) (version tree a)
  have forth' := names.pos_iff a b
  have back' := names.pos_iff b a
  unfold Outranks Before at first second
  rcases first with newer | ⟨same, before⟩
  · omega
  · rcases second with newer | ⟨same', before'⟩
    · omega
    · rcases before with less | ⟨equal, le⟩
      · omega
      · rcases before' with less | ⟨-, le'⟩
        · omega
        · exact le_antisymm le le'

variable {listing : List PyString}

theorem mem_debs : fn ∈ debs u aptPkg listing ↔ fn ∈ listing ∧ isDeb fn = true := by
  unfold debs
  rw [List.mem_filter, List.mem_insertionSort, List.mem_insertionSort]

theorem pairwise_debs : (debs u aptPkg listing).Pairwise (Before u aptPkg) := by
  have preorder : IsPreorder (compareFilenames u aptPkg) := isPreorder_compareFilenames
  unfold debs
  refine (List.Pairwise.filter _ ?_)
  have sorted : (listing.insertionSort (· ≤ ·)).Pairwise (· ≤ ·) :=
    List.pairwise_insertionSort (· ≤ ·) listing
  refine (pairwise_insertionSort_of_pairwise (fun a b => ?_) preorder.trans sorted).imp ?_
  · have := preorder.pos_iff a b
    omega
  · intro a b order
    unfold Before
    obtain less | same := Int.lt_or_eq_of_le order.1
    · exact .inl less
    · exact .inr ⟨same, order.2 ((preorder.eq_zero_iff a b).mp same).le⟩

variable {index : List Entry}

theorem main_eq_ok (made : main u aptPkg tree listing = .ok index) :
    ∃ pkgs, (debs u aptPkg listing).map (readDeb u tree) = pkgs.map .ok ∧
      newest u aptPkg pkgs = index := by
  unfold main at made
  cases guarded : guardShrink u tree (listing.insertionSort (· ≤ ·)) with
  | error e =>
    rw [guarded] at made
    cases made
  | ok _ =>
    rw [guarded] at made
    cases all : (debs u aptPkg listing).mapM (readDeb u tree) with
    | error e =>
      change ((debs u aptPkg listing).mapM (readDeb u tree) >>= _) = _ at made
      rw [all] at made
      cases made
    | ok pkgs =>
      change ((debs u aptPkg listing).mapM (readDeb u tree) >>= _) = _ at made
      rw [all] at made
      exact ⟨pkgs, mapM_eq_ok.mp all, Except.ok.inj made⟩

theorem main_perm {listing' : List PyString} (same : listing'.Perm listing) :
    main u aptPkg tree listing' = main u aptPkg tree listing := by
  have sorted : listing'.insertionSort (· ≤ ·) = listing.insertionSort (· ≤ ·) := by
    refine List.Perm.eq_of_pairwise' (List.pairwise_insertionSort (· ≤ ·) listing')
      (List.pairwise_insertionSort (· ≤ ·) listing) ?_
    exact (List.perm_insertionSort _ _).trans (same.trans (List.perm_insertionSort _ _).symm)
  unfold main debs
  rw [sorted]

/-- The index has one entry for each package, and that is the newest one listed. -/
theorem index_spec (made : main u aptPkg tree listing = .ok index) :
    (index.map Entry.pid).Nodup ∧
      (∀ entry ∈ index, readDeb u tree entry.fn = .ok entry ∧
        Newest u tree aptPkg listing entry.fn) ∧
      ∀ fn ∈ listing, isDeb fn = true → ∃ entry ∈ index, entry.pid = package tree fn ∧
        0 ≤ compareVersions u aptPkg (version tree entry.fn) (version tree fn) := by
  obtain ⟨pkgs, read, rfl⟩ := main_eq_ok made
  have source : ∀ p ∈ pkgs, p.fn ∈ debs u aptPkg listing ∧ readDeb u tree p.fn = .ok p := by
    intro p member
    have inside : Except.ok p ∈ (debs u aptPkg listing).map (readDeb u tree) := by
      rw [read]
      exact List.mem_map_of_mem member
    obtain ⟨fn, listed, found⟩ := List.mem_map.mp inside
    rw [(readDeb_eq_ok found).2.1]
    exact ⟨listed, found⟩
  have target : ∀ fn ∈ debs u aptPkg listing, ∃ p ∈ pkgs, readDeb u tree fn = .ok p := by
    intro fn listed
    have inside : readDeb u tree fn ∈ pkgs.map Except.ok := by
      rw [← read]
      exact List.mem_map_of_mem listed
    obtain ⟨p, member, found⟩ := List.mem_map.mp inside
    exact ⟨p, member, found.symm⟩
  have sorted : pkgs.Pairwise fun a b => Before u aptPkg a.fn b.fn := by
    have order : ((debs u aptPkg listing).map (readDeb u tree)).Pairwise fun x y =>
        ∀ p q, x = .ok p → y = .ok q → Before u aptPkg p.fn q.fn := by
      refine List.pairwise_map.mpr (pairwise_debs.imp ?_)
      intro a b before p q first second
      rw [(readDeb_eq_ok first).2.1, (readDeb_eq_ok second).2.1]
      exact before
    rw [read, List.pairwise_map] at order
    exact order.imp fun before => before _ _ rfl rfl
  refine ⟨nodup_newest, fun entry kept => ?_, fun fn listed deb => ?_⟩
  · obtain ⟨member, most⟩ := newest_spec sorted kept
    obtain ⟨listed, found⟩ := source entry member
    have listed' := mem_debs.mp listed
    refine ⟨found, listed'.1, listed'.2, fun other listed'' deb same differ => ?_⟩
    obtain ⟨p, member', found'⟩ := target other (mem_debs.mpr ⟨listed'', deb⟩)
    rw [package_eq found, package_eq found'] at same
    have wins := most p member' same
    rw [version_eq found, version_eq found', (readDeb_eq_ok found').2.1] at wins
    rcases wins with ⟨least, newer | rfl | before⟩
    · exact .inl newer
    · exact absurd (readDeb_eq_ok found').2.1.symm differ
    · obtain more | same := Int.lt_or_eq_of_le least
      · exact .inl more
      · exact .inr ⟨same.symm, before⟩
  · obtain ⟨p, member, found⟩ := target fn (mem_debs.mpr ⟨listed, deb⟩)
    obtain ⟨q, kept, owned⟩ := exists_newest member
    obtain ⟨inside, most⟩ := newest_spec sorted kept
    refine ⟨q, kept, by rw [package_eq found, owned], ?_⟩
    rw [← version_eq found, ← version_eq (source q inside).2]
    exact (most p member owned.symm).1

theorem newest_iff (made : main u aptPkg tree listing = .ok index) :
    Newest u tree aptPkg listing fn ↔ ∃ entry ∈ index, entry.fn = fn := by
  obtain ⟨-, known, covered⟩ := index_spec made
  constructor
  · rintro ⟨listed, deb, most⟩
    obtain ⟨entry, member, owned, -⟩ := covered fn listed deb
    refine ⟨entry, member, ?_⟩
    by_contra differ
    obtain ⟨read, listed', deb', most'⟩ := known entry member
    rw [← package_eq read] at owned
    exact differ ((most' fn listed deb owned.symm (Ne.symm differ)).asymm
      (most entry.fn listed' deb' owned differ))
  · rintro ⟨entry, member, rfl⟩
    exact (known entry member).2

/-- No value in the stanzas of an index has a line break. -/
def SingleLine (index : List Entry) : Prop :=
  ∀ entry ∈ index, ∀ field ∈ entry.fields, ∀ c ∈ field.2, PyText.isLineBreak c = false

/-- An index is read back as the fields that were written, in their order. -/
def ReadBack (u : PyText) (index : List Entry) : Prop :=
  ∃ stanzas, parsePackagesText u (packagesText index) = .ok stanzas ∧
    stanzas.map Control.fields = index.map fun entry => entry.fields.map fun f => (f.1, some f.2)

/--
An index has one stanza for each package, of a file that no other file of the package is newer
than, whatever the order of the directory. If its values stand in one line each, it is read back
exactly if all files in it can be.
-/
theorem newest_index (made : main u aptPkg tree listing = .ok index) :
    (index.map Entry.pid).Nodup ∧
      (∀ entry ∈ index, entry.fn ∈ listing ∧ isDeb entry.fn = true ∧
        readDeb u tree entry.fn = .ok entry ∧ (py "Package", entry.pid) ∈ entry.fields) ∧
      (∀ fn ∈ listing, isDeb fn = true → ∃ entry ∈ index, entry.pid = package tree fn ∧
        0 ≤ compareVersions u aptPkg (version tree entry.fn) (version tree fn)) ∧
      (∀ listing', listing'.Perm listing → main u aptPkg tree listing' = .ok index) ∧
      (SingleLine index →
        (ReadBack u index ↔ ∀ fn, Newest u tree aptPkg listing fn → Rereadable tree fn)) := by
  obtain ⟨single, known, covered⟩ := index_spec made
  refine ⟨single, fun entry member => ?_, covered, fun listing' same => ?_, fun lines => ?_⟩
  · obtain ⟨read, listed, deb, -⟩ := known entry member
    exact ⟨listed, deb, read, package_written read⟩
  · rw [main_perm same, made]
  · have plain : ∀ entry ∈ index, ∀ f ∈ entry.fields, Plain f := by
      intro entry member f inside
      obtain ⟨name, gapless, -⟩ := name_written (known entry member).1 inside
      exact ⟨name, gapless, lines entry member f inside⟩
    have named : ∀ entry ∈ index, ∃ f ∈ entry.fields, f.1 = py "Package" :=
      fun entry member => ⟨_, package_written (known entry member).1, rfl⟩
    have parsed := parsePackagesText_text (u := u) plain named
    -- Reading back the text is reading back each stanza.
    calc _ ↔ ∀ entry ∈ index, (Control.ofFields (reread entry.fields)).fields =
          entry.fields.map fun f => (f.1, some f.2) := by
          simp [ReadBack, parsed, List.map_map, List.map_inj_left]
      _ ↔ ∀ entry ∈ index, Rereadable tree entry.fn := by
          refine forall₂_congr fun entry member => ?_
          have read := (known entry member).1
          rw [fields_reread fun f inside => (name_written read inside).2.2, rereadable_iff read]
      _ ↔ ∀ fn, Newest u tree aptPkg listing fn → Rereadable tree fn := by
          constructor
          · intro all fn newest
            obtain ⟨entry, member, rfl⟩ := (newest_iff made).mp newest
            exact all entry member
          · exact fun all entry member => all _ (known entry member).2

end

def filesOf (control : PyString → String) : Tree where
  deb fn :=
    { control := py (control fn)
      data := none
      size := 3
      md5 := py "900150983cd24fb0"
      sha1 := py "a9993e364706816a"
      sha256 := py "ba7816bf8f01cfea" }
  homepage _ := none
  previous := none
  allowShrink := false
  baseUrl := py "https://repo.example"
  publisher := py "Publisher"
  repr name := name

def swappedFiles : Tree :=
  filesOf fun fn => if fn = py "foo_1.0_arm.deb" then "Package: foo\nVersion: 1.1\n"
    else "Package: foo\nVersion: 1.0\n"

theorem newest_index_swapped :
    ∃ index, main .ascii none swappedFiles [py "foo_1.1_arm.deb", py "foo_1.0_arm.deb"] = .ok index ∧
      index.map Entry.fn = [py "foo_1.0_arm.deb"] ∧ (index.map Entry.pid).Nodup ∧
      main .ascii none swappedFiles [py "foo_1.0_arm.deb", py "foo_1.1_arm.deb"] = .ok index := by
  have run : ((main .ascii none swappedFiles
      [py "foo_1.1_arm.deb", py "foo_1.0_arm.deb"]).toOption.map fun index =>
        index.map Entry.fn) = some [py "foo_1.0_arm.deb"] := by decide +kernel
  cases made : main .ascii none swappedFiles [py "foo_1.1_arm.deb", py "foo_1.0_arm.deb"] with
  | error e =>
    rw [made] at run
    cases run
  | ok index =>
    rw [made] at run
    have spec := newest_index made
    exact ⟨index, rfl, Option.some.inj run, spec.1, spec.2.2.2.1 _ (.swap ..)⟩

/-- The index of one file has plain fields, and is not read back. -/
def Misread (control : String) : Prop :=
  ∃ index, main .ascii none (filesOf fun _ => control) [py "foo_1.0_arm.deb"] = .ok index ∧
    SingleLine index ∧ (∀ entry ∈ index, ∀ field ∈ entry.fields, field.2 ≠ []) ∧
    ¬ReadBack .ascii index

theorem misread_of_run {control : String}
    (run : ((main .ascii none (filesOf fun _ => control) [py "foo_1.0_arm.deb"]).toOption.any
      fun index => index.all (fun entry => entry.fields.all fun field =>
          field.2.all (fun c => !PyText.isLineBreak c) && field.2 ≠ []) &&
        (parsePackagesText .ascii (packagesText index)).toOption.all fun stanzas =>
          stanzas.map Control.fields ≠
            index.map fun entry => entry.fields.map fun f => (f.1, some f.2)) = true) :
    Misread control := by
  unfold Misread
  cases made : main .ascii none (filesOf fun _ => control) [py "foo_1.0_arm.deb"] with
  | error e =>
    rw [made] at run
    cases run
  | ok index =>
    rw [made] at run
    have parts := (Bool.and_eq_true ..).mp run
    have lines := List.all_eq_true.mp parts.1
    refine ⟨index, rfl, fun entry inside field own c char => ?_, fun entry inside field own => ?_, ?_⟩
    · have := List.all_eq_true.mp (lines entry inside) field own
      simp_all
    · have := List.all_eq_true.mp (lines entry inside) field own
      simp_all
    · rintro ⟨stanzas, parsed, same⟩
      have differ := parts.2
      rw [parsed] at differ
      simp [Except.toOption, same] at differ

/-- A field that is written after those of the file, and a line after a tab that looks like a
field, are not read back. -/
theorem not_newest_index :
    Misread "Package: foo\nVersion: 1.0\nDepiction: https://foo.example\n" ∧
      Misread "Package: foo\nVersion: 1.0\nDescription: a tool\n\tsee: the manual\n" :=
  ⟨misread_of_run (by decide +kernel), misread_of_run (by decide +kernel)⟩

end MakeRepo

end Xios
