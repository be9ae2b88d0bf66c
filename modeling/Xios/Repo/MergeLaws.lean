import Xios.Repo.Merge
import Xios.Repo.VersionsLaws

/-! A merge of package indexes publishes the newest stanzas, each package once and in order. -/

namespace Xios

namespace MergePackages

open Comparison

section

variable {u : PyText}

theorem Stanza.eq_of_text {a b : Stanza u} (same : a.text = b.text) : a = b := by
  obtain ⟨text, package, _, _, _, _, _, named, _⟩ := a
  obtain ⟨text', package', _, _, _, _, _, named', _⟩ := b
  subst same
  obtain rfl : package = package' := Option.some.inj (named.symm.trans named')
  rfl

theorem Stanza.text_ne_nil (stanza : Stanza u) : stanza.text ≠ [] := by
  intro empty
  have solid := stanza.solid
  rw [empty] at solid
  cases solid

variable {stanza : Stanza u}

theorem readStanza_eq {block : Block} (stripped : PyText.stripOf 10 block.1 = stanza.text) :
    readStanza u block = some stanza := by
  have solid := stanza.solid
  have named := stanza.named
  have nonempty := stanza.nonempty
  rw [← stripped] at solid named
  unfold readStanza
  rw [dif_neg (by simpa using solid)]
  split
  · rename_i missing
    rw [missing] at named
    cases named
  · rename_i package found
    obtain rfl : package = stanza.package := Option.some.inj (found.symm.trans named)
    rw [dif_neg nonempty]
    exact congrArg some (Stanza.eq_of_text stripped)

theorem splitPairs_serialize (index : List (Stanza u)) (nonempty : index ≠ []) :
    (PyText.splitPairs 10 (serialize index)).map (PyText.stripOf 10) = index.map Stanza.text := by
  apply PyText.splitPairs_intercalate
  · rwa [Ne, List.map_eq_nil_iff]
  · exact List.forall_mem_map.mpr fun stanza _ => stanza.gapless
  · exact List.forall_mem_map.mpr fun stanza _ => stanza.begins
  · exact List.forall_mem_map.mpr fun stanza _ => stanza.ends
  · exact List.forall_mem_map.mpr fun stanza _ => stanza.text_ne_nil

theorem clean_serialize (index : List (Stanza u)) : 13 ∉ serialize index := by
  unfold serialize
  induction index with
  | nil => simp
  | cons stanza index ih =>
    have clean := stanza.clean
    cases index with
    | nil => simp [clean]
    | cons next index =>
      rw [List.map_cons, List.map_cons, List.intercalate_cons_cons]
      simp only [List.map_cons, List.mem_append, not_or] at ih
      simp only [List.mem_append, not_or]
      exact ⟨⟨⟨clean, by simp⟩, ih.1⟩, ih.2⟩

theorem stanzas_serialize (index : List (Stanza u)) : stanzas u (serialize index) = index := by
  unfold stanzas blocks
  cases index with
  | nil =>
    -- The only block of an empty index is blank.
    simp [serialize, PyText.readLines, PyText.splitPairs, readStanza, PyText.stripOf]
  | cons stanza index =>
    apply PyText.filterMap_attachWith (f := PyText.stripOf 10) (g := Stanza.text)
    · exact fun _ _ => readStanza_eq
    · rw [PyText.readLines_eq (clean_serialize _)]
      exact splitPairs_serialize _ (List.cons_ne_nil _ _)

variable {aptPkg : Option AptPkg}

theorem isPreorder_compareVersions : IsPreorder (compareVersions u aptPkg) := by
  cases aptPkg with
  | none => exact Versions.isPreorder_compareDebVersions u
  | some apt => exact apt.isPreorder

/-- An `apt_pkg` that compares versions as the code does without it. -/
instance : Inhabited AptPkg :=
  ⟨⟨Versions.compareDebVersions .ascii, Versions.isPreorder_compareDebVersions .ascii⟩⟩

theorem isPreorder_compareFilenames : IsPreorder (compareFilenames u aptPkg) := by
  have versions : Std.TransCmp (Versions.filenameOrder (compareVersions u aptPkg)) :=
    Versions.transCmp_filenameOrder isPreorder_compareVersions
  have transitive := transCmp_comap (Versions.filenameOrder (compareVersions u aptPkg))
    Versions.filenameSplit
  have parts : ∀ a b, (compareFilenames u aptPkg a b).sign =
      sign (Versions.filenameOrder (compareVersions u aptPkg) (Versions.filenameSplit a)
        (Versions.filenameSplit b)) := fun a b => Versions.sign_filenames _ _ _
  exact .of_sign parts

theorem map_text_eq_some (base : Option (Stanza u)) (stanza : Stanza u) :
    base.map Stanza.text = some stanza.text ↔ base = some stanza := by
  cases base with
  | none => simp
  | some other => simpa using ⟨Stanza.eq_of_text, congrArg Stanza.text⟩

variable {mine other : Option (Stanza u)}

theorem resolve_mem {base : Option (Stanza u)}
    (published : (resolve u aptPkg base mine other).stanza = some stanza) :
    mine = some stanza ∨ other = some stanza := by
  unfold resolve at published
  cases mine with
  | none =>
    cases other with
    | none => cases published
    | some other => grind [Resolution.stanza]
  | some mine =>
    cases other with
    | none => grind [Resolution.stanza]
    | some other => grind [Resolution.stanza]

theorem resolve_eq_none {base : Option (Stanza u)} (present : mine.isSome ∨ other.isSome) :
    (resolve u aptPkg base mine other).stanza = none ↔
      ∃ stanza, base = some stanza ∧
        (mine = some stanza ∧ other = none ∨ mine = none ∧ other = some stanza) := by
  cases mine with
  | none =>
    cases other with
    | none => simp at present
    | some other =>
      have same := map_text_eq_some base other
      grind [resolve, Resolution.stanza]
  | some mine =>
    cases other with
    | none =>
      have same := map_text_eq_some base mine
      grind [resolve, Resolution.stanza]
    | some other => grind [resolve, Resolution.stanza]

theorem resolve_newest {base : Option (Stanza u)} {mine other : Stanza u}
    (published : (resolve u aptPkg base (some mine) (some other)).stanza = some stanza) :
    0 ≤ compareVersions u aptPkg stanza.version mine.version ∧
      0 ≤ compareVersions u aptPkg stanza.version other.version := by
  have preorder : IsPreorder (compareVersions u aptPkg) := isPreorder_compareVersions
  have opposite := preorder.pos_iff mine.version other.version
  have equal := preorder.eq_zero_iff mine.version other.version
  have reflM := preorder.refl mine.version
  have reflO := preorder.refl other.version
  grind [resolve, Resolution.stanza, Stanza.eq_of_text]

theorem resolve_message {base : Option (Stanza u)} :
    (resolve u aptPkg base mine other).message.isSome ↔
      ∃ m o, mine = some m ∧ other = some o ∧ compareVersions u aptPkg m.version o.version = 0 ∧
        m.sha256 ≠ o.sha256 := by
  cases mine with
  | none => cases other <;> grind [resolve, Resolution.message]
  | some mine =>
    cases other with
    | none => grind [resolve, Resolution.message]
    | some other => grind [resolve, Resolution.message, Stanza.eq_of_text]

theorem resolve_edit {mine other : Stanza u} (payload : mine.sha256 = other.sha256) :
    (0 ≤ compareVersions u aptPkg other.version mine.version →
      (resolve u aptPkg (some mine) (some mine) (some other)).stanza = some other) ∧
    (0 ≤ compareVersions u aptPkg mine.version other.version →
      (resolve u aptPkg (some other) (some mine) (some other)).stanza = some mine) := by
  have preorder : IsPreorder (compareVersions u aptPkg) := isPreorder_compareVersions
  have opposite := preorder.pos_iff mine.version other.version
  have identical : mine.text = other.text → mine = other := Stanza.eq_of_text
  constructor
  · intro newer
    have same := map_text_eq_some (some mine) mine
    grind [resolve, Resolution.stanza]
  · intro newer
    have same := map_text_eq_some (some other) mine
    grind [resolve, Resolution.stanza]

/-- Both sides have a package without a version difference, and no side is the one to follow. -/
def Ambiguous (aptPkg : Option AptPkg) (base mine other : Option (Stanza u)) : Prop :=
  ∃ m o, mine = some m ∧ other = some o ∧ compareVersions u aptPkg m.version o.version = 0 ∧
    (base ≠ mine ∧ base ≠ other ∨ m.sha256 ≠ o.sha256)

theorem resolve_swap {base : Option (Stanza u)} (clear : ¬Ambiguous aptPkg base mine other) :
    (resolve u aptPkg base mine other).stanza = (resolve u aptPkg base other mine).stanza := by
  cases mine with
  | none => cases other <;> grind [resolve]
  | some mine =>
    cases other with
    | none => grind [resolve]
    | some other =>
      have preorder : IsPreorder (compareVersions u aptPkg) := isPreorder_compareVersions
      have opposite := preorder.pos_iff mine.version other.version
      have equal := preorder.eq_zero_iff mine.version other.version
      have identical : mine.text = other.text → mine = other := Stanza.eq_of_text
      have first := map_text_eq_some base mine
      have second := map_text_eq_some base other
      by_cases same : mine = other
      · rw [same]
      · grind [resolve, Resolution.stanza, Ambiguous]

def published (aptPkg : Option AptPkg) (base ours theirs : Index u) (package : PyString) :
    Option (Stanza u) :=
  (resolve u aptPkg (base.get package) (ours.get package) (theirs.get package)).stanza

variable {base ours theirs : Index u}

theorem package_of_published {package : PyString}
    (found : published aptPkg base ours theirs package = some stanza) :
    stanza.package = package := by
  obtain mine | other := resolve_mem found
  · exact (Dict.get_eq_some.mp mine).2
  · exact (Dict.get_eq_some.mp other).2

theorem mem_packages {package : PyString} :
    package ∈ packages ours theirs ↔
      (ours.get package).isSome ∨ (theirs.get package).isSome := by
  have present : ∀ index : Index u,
      (index.get package).isSome ↔ package ∈ index.entries.map Stanza.package := by
    intro index
    rw [← not_iff_not, ← Dict.get_eq_none]
    simp
  unfold packages
  rw [(List.perm_insertionSort _ _).mem_iff, List.mem_dedup, List.mem_append, present, present]

theorem mem_ordered :
    stanza ∈ ordered aptPkg base ours theirs ↔
      published aptPkg base ours theirs stanza.package = some stanza := by
  unfold ordered resolutions
  rw [(List.perm_insertionSort _ _).mem_iff, List.mem_filterMap]
  simp only [List.mem_map]
  constructor
  · rintro ⟨-, ⟨package, -, rfl⟩, found⟩
    have own : stanza.package = package := package_of_published found
    rwa [own]
  · intro found
    refine ⟨_, ⟨stanza.package, mem_packages.mpr ?_, rfl⟩, found⟩
    obtain mine | other := resolve_mem found
    · exact Or.inl (Option.isSome_of_eq_some mine)
    · exact Or.inr (Option.isSome_of_eq_some other)

theorem nodup_ordered : ((ordered aptPkg base ours theirs).map Stanza.package).Nodup := by
  have once : (packages ours theirs).Nodup :=
    (List.perm_insertionSort _ _).nodup_iff.mpr (List.nodup_dedup _)
  unfold ordered
  rw [((List.perm_insertionSort _ _).map _).nodup_iff]
  unfold List.Nodup resolutions
  rw [List.pairwise_map, List.pairwise_filterMap, List.pairwise_map]
  -- Different packages publish stanzas of different packages.
  refine once.imp fun {p q} differ a first b second same => differ ?_
  calc
    p = a.package := (package_of_published first).symm
    _ = b.package := same
    _ = q := package_of_published second

theorem pairwise_ordered : (ordered aptPkg base ours theirs).Pairwise fun a b =>
    compareFilenames u aptPkg a.sortKey b.sortKey ≤ 0 := by
  have preorder : IsPreorder (compareFilenames u aptPkg) := isPreorder_compareFilenames
  have total : Std.Total fun a b : Stanza u =>
      compareFilenames u aptPkg a.sortKey b.sortKey ≤ 0 := by
    refine ⟨fun a b => ?_⟩
    have opposite := preorder.pos_iff a.sortKey b.sortKey
    omega
  have trans : IsTrans (Stanza u) fun a b =>
      compareFilenames u aptPkg a.sortKey b.sortKey ≤ 0 :=
    ⟨fun _ _ _ => preorder.trans _ _ _⟩
  exact List.pairwise_insertionSort _ _

theorem conflicts_ne_nil : conflicts aptPkg base ours theirs ≠ [] ↔
    ∃ package mine other, ours.get package = some mine ∧ theirs.get package = some other ∧
      compareVersions u aptPkg mine.version other.version = 0 ∧ mine.sha256 ≠ other.sha256 := by
  unfold conflicts resolutions
  rw [Ne, List.filterMap_map, List.filterMap_eq_nil_iff]
  simp only [Function.comp_apply, not_forall, ← ne_eq, Option.ne_none_iff_isSome]
  constructor
  · rintro ⟨package, -, stated⟩
    exact ⟨package, resolve_message.mp stated⟩
  · rintro ⟨package, conflict⟩
    refine ⟨package, mem_packages.mpr ?_, resolve_message.mpr conflict⟩
    obtain ⟨mine, -, present, -⟩ := conflict
    exact Or.inl (Option.isSome_of_eq_some present)

/-- The merged index of three, with the status the program exits with. -/
structure IsMerge (aptPkg : Option AptPkg) (base ours theirs : Index u)
    (merged : List (Stanza u)) (exit : Nat) : Prop where
  -- Each package is there at most once, with a stanza of one of the sides.
  once : (merged.map Stanza.package).Nodup
  occurs : ∀ stanza ∈ merged, stanza ∈ ours.entries ∨ stanza ∈ theirs.entries
  -- A package of both sides is no older than on either.
  newest : ∀ stanza ∈ merged, ∀ mine other, ours.get stanza.package = some mine →
    theirs.get stanza.package = some other →
    0 ≤ compareVersions u aptPkg stanza.version mine.version ∧
      0 ≤ compareVersions u aptPkg stanza.version other.version
  -- A package is dropped if one side lacks it and the other left it as it was.
  drops : ∀ package, (ours.get package).isSome ∨ (theirs.get package).isSome →
    ((∀ stanza ∈ merged, stanza.package ≠ package) ↔
      ∃ stanza, base.get package = some stanza ∧
        (ours.get package = some stanza ∧ theirs.get package = none ∨
          ours.get package = none ∧ theirs.get package = some stanza))
  -- The exit status tells of equal versions with different payloads.
  status : exit = 1 ↔ ∃ package mine other, ours.get package = some mine ∧
    theirs.get package = some other ∧
    compareVersions u aptPkg mine.version other.version = 0 ∧ mine.sha256 ≠ other.sha256
  -- A change of one side that keeps the payload, and does not lower the version, is kept.
  edits : ∀ package mine other, ours.get package = some mine → theirs.get package = some other →
    mine.sha256 = other.sha256 →
    (base.get package = some mine →
      0 ≤ compareVersions u aptPkg other.version mine.version → other ∈ merged) ∧
    (base.get package = some other →
      0 ≤ compareVersions u aptPkg mine.version other.version → mine ∈ merged)
  -- Stanzas are in the order of the names of their files.
  order : merged.Pairwise fun a b => compareFilenames u aptPkg a.sortKey b.sortKey ≤ 0

/-- The ordered result has what a merge has to have. -/
theorem isMerge_ordered {exit : Nat}
    (status : exit = 1 ↔ conflicts aptPkg base ours theirs ≠ []) :
    IsMerge aptPkg base ours theirs (ordered aptPkg base ours theirs) exit where
  once := nodup_ordered
  occurs stanza member := by
    obtain mine | other := resolve_mem (mem_ordered.mp member)
    · exact Or.inl (Dict.get_eq_some.mp mine).1
    · exact Or.inr (Dict.get_eq_some.mp other).1
  newest stanza member mine other present present' := by
    have found := mem_ordered.mp member
    unfold published at found
    rw [present, present'] at found
    exact resolve_newest found
  drops package present := by
    have dropped : published aptPkg base ours theirs package = none ↔ _ := resolve_eq_none present
    rw [← dropped]
    constructor
    · intro absent
      by_contra there
      obtain ⟨stanza, found⟩ := Option.ne_none_iff_exists'.mp there
      have own := package_of_published found
      refine absent stanza (mem_ordered.mpr ?_) own
      rwa [own]
    · rintro none stanza member rfl
      rw [mem_ordered.mp member] at none
      cases none
  status := status.trans conflicts_ne_nil
  edits package mine other present present' payload := by
    obtain ⟨-, rfl⟩ := Dict.get_eq_some.mp present
    have same : other.package = mine.package := (Dict.get_eq_some.mp present').2
    constructor
    · intro unchanged newer
      rw [mem_ordered, same]
      unfold published
      rw [unchanged, present, present']
      exact (resolve_edit payload).1 newer
    · intro unchanged newer
      rw [mem_ordered]
      unfold published
      rw [unchanged, present, present']
      exact (resolve_edit payload).2 newer
  order := pairwise_ordered

end

section

variable (u : PyText) (aptPkg : Option AptPkg)

theorem main_writes (files : PyString → Option PyString) (basePath oursPath theirsPath : PyString)
    (rest : List PyString) :
    let outcome := main u aptPkg (basePath :: oursPath :: theirsPath :: rest) files
    let base := parse u (files basePath)
    let ours := parse u (files oursPath)
    let theirs := parse u (files theirsPath)
    outcome.files oursPath = some (serialize (ordered aptPkg base ours theirs)) ∧
      (outcome.exit = 1 ↔ conflicts aptPkg base ours theirs ≠ []) := by
  unfold main
  dsimp only
  split
  · rename_i conflict
    exact ⟨Function.update_self .., iff_of_true rfl conflict⟩
  · rename_i clear
    exact ⟨Function.update_self .., iff_of_false (by simp) clear⟩

/--
A run writes the merged index of the three it was given.

Exchanging the sides gives the same stanzas for packages that are not ambiguous.
-/
theorem merge_packages (files : PyString → Option PyString)
    (basePath oursPath theirsPath : PyString) (rest : List PyString) :
    let base := parse u (files basePath)
    let ours := parse u (files oursPath)
    let theirs := parse u (files theirsPath)
    let outcome := main u aptPkg (basePath :: oursPath :: theirsPath :: rest) files
    let exchanged := main u aptPkg (basePath :: theirsPath :: oursPath :: rest) files
    ∃ text text', outcome.files oursPath = some text ∧ exchanged.files theirsPath = some text' ∧
      IsMerge aptPkg base ours theirs (stanzas u text) outcome.exit ∧
      ∀ stanza : Stanza u, ¬Ambiguous aptPkg (base.get stanza.package) (ours.get stanza.package)
        (theirs.get stanza.package) → (stanza ∈ stanzas u text ↔ stanza ∈ stanzas u text') := by
  intro base ours theirs outcome exchanged
  obtain ⟨written, status⟩ := main_writes u aptPkg files basePath oursPath theirsPath rest
  obtain ⟨written', -⟩ := main_writes u aptPkg files basePath theirsPath oursPath rest
  refine ⟨_, _, written, written', ?_, ?_⟩
  · rw [stanzas_serialize]
    exact isMerge_ordered status
  · intro stanza clear
    rw [stanzas_serialize, stanzas_serialize, mem_ordered, mem_ordered]
    unfold published
    rw [resolve_swap clear]

end

def threeFiles (base ours theirs : PyString) (path : PyString) : Option PyString :=
  if path = py "O" then some base
  else if path = py "A" then some ours
  else if path = py "B" then some theirs
  else none

def foo (version sha256 : String) : PyString :=
  py "Package: foo" ++ 10 :: py "Version: " ++ py version ++ 10 :: py "SHA256: " ++ py sha256

def stored (directory package : String) : PyString :=
  py "Package: " ++ py package ++ 10 :: py "Filename: " ++ py directory ++ py "/" ++ py package ++
    py "_1_all.deb"

/--
What does not hold of every merge.

A package that only their side built again, at the same version, is merged to what our side has. An
edit that keeps the payload and lowers the version is not kept. Files in different directories are
not sorted by their paths.
-/
theorem not_merge_packages :
    (let files := threeFiles (foo "1.0" "a") (foo "1.0" "a") (foo "1.0" "c");
      (main .ascii none [py "O", py "A", py "B"] files).files (py "A") ≠
        (main .ascii none [py "O", py "B", py "A"] files).files (py "B")) ∧
    (let files := threeFiles (foo "1.1" "a") (foo "1.1" "a") (foo "1.0" "a");
      (main .ascii none [py "O", py "A", py "B"] files).files (py "A") ≠
        some (foo "1.0" "a" ++ [10])) ∧
    (let files := threeFiles [] (stored "z" "a") (stored "y" "b");
      ∃ text, (main .ascii none [py "O", py "A", py "B"] files).files (py "A") = some text ∧
        ¬(stanzas .ascii text).Pairwise fun a b =>
          Versions.compareDebFilenames .ascii a.filename b.filename ≤ 0) := by
  refine ⟨by decide +kernel, by decide +kernel,
    stored "z" "a" ++ [10, 10] ++ stored "y" "b" ++ [10], by decide +kernel, by decide +kernel⟩

end MergePackages

end Xios
