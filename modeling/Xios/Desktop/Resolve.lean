import Mathlib.Data.List.Perm.Basic
import Xios.Desktop.EntryLaws
import Xios.Desktop.ShellText

/-! Desktop entries that `xios_desktop_entry_resolve` finds for an application. -/

namespace Xios

open CText

def desktopSuffix : List UInt8 :=
  CText.ascii ".desktop"

def applicationSuffixes : List (List UInt8) :=
  [CText.ascii "/usr/local/share/applications", CText.ascii "/usr/share/applications"]

def applicationRoot (jbroot : CString) (suffix : List UInt8) : List UInt8 :=
  if jbroot.bytes ≠ [] ∧ jbroot.bytes ≠ [47] then jbroot.bytes ++ suffix else suffix

/-- Such a directory in a buffer for paths, cut to what fits. -/
def printRoot (jbroot : CString) (suffix : List UInt8) : List UInt8 :=
  (applicationRoot jbroot suffix).take (pathMax - 1)

def directMatch (fs : FileSystem) (appId : CString) (requireTrusted : Bool) (root : List UInt8) :
    Option DesktopEntry :=
  let path := root ++ 47 :: (appId.bytes ++ desktopSuffix)
  if pathMax ≤ path.length then none
  else
    match desktopEntryParse fs path root requireTrusted with
    | .error _ => none
    | .ok candidate => if candidate.appId.bytes ≠ appId.bytes then none else some candidate

/-- Look for the application in the files of a directory, with what has been found so far. -/
def scanNames (fs : FileSystem) (appId : CString) (requireTrusted : Bool) (root : List UInt8) :
    Option DesktopEntry → List (List UInt8) → Except String (Option DesktopEntry)
  | found, [] => .ok found
  | found, name :: names =>
    if name.length ≤ 8 ∨ ¬desktopSuffix <:+ name then
      scanNames fs appId requireTrusted root found names
    else
      let path := root ++ 47 :: name
      if pathMax ≤ path.length then scanNames fs appId requireTrusted root found names
      else
        match desktopEntryParse fs path root requireTrusted with
        | .error _ => scanNames fs appId requireTrusted root found names
        | .ok candidate =>
          if candidate.appId.bytes ≠ appId.bytes then
            scanNames fs appId requireTrusted root found names
          -- A second entry ends the search.
          else if found.isSome then .error "app id is ambiguous"
          else scanNames fs appId requireTrusted root (some candidate) names

/-- Look for the application in one directory after the other. -/
def scanRoots (fs : FileSystem) (appId : CString) (requireTrusted : Bool) :
    Option DesktopEntry → List (List UInt8) → Except String (Option DesktopEntry)
  | found, [] => .ok found
  | found, root :: roots =>
    match fs.readdir root with
    | none => scanRoots fs appId requireTrusted found roots
    | some names => do
      let found ← scanNames fs appId requireTrusted root found names
      scanRoots fs appId requireTrusted found roots

def desktopEntryResolve (fs : FileSystem) (appId jbroot : CString) (requireTrusted : Bool) :
    Except String DesktopEntry :=
  if !appIdValid appId.bytes then .error "invalid app id"
  else
    let roots := applicationSuffixes.map (printRoot jbroot)
    match roots.findSome? (directMatch fs appId requireTrusted) with
    | some entry => .ok entry
    | none => do
      let found ← scanRoots fs appId requireTrusted none roots
      match found with
      | none => .error "no trusted desktop entry for app id"
      | some entry => .ok entry

def entryAt (fs : FileSystem) (appId : CString) (requireTrusted : Bool) (root name : List UInt8) :
    Option DesktopEntry :=
  (desktopEntryParse fs (root ++ 47 :: name) root requireTrusted).toOption.filter
    fun entry => entry.appId.bytes = appId.bytes

def desktopNames (fs : FileSystem) (root : List UInt8) : List (List UInt8) :=
  ((fs.readdir root).getD []).filter fun name => 8 < name.length ∧ desktopSuffix <:+ name

def entriesFor (fs : FileSystem) (appId : CString) (requireTrusted : Bool)
    (roots : List (List UInt8)) : List DesktopEntry :=
  roots.flatMap fun root => (desktopNames fs root).filterMap (entryAt fs appId requireTrusted root)

def applicationRoots (jbroot : CString) : List (List UInt8) :=
  applicationSuffixes.map (applicationRoot jbroot)

theorem desktopEntryParse_long (fs : FileSystem) {path : List UInt8} (long : pathMax ≤ path.length)
    (root : List UInt8) (requireTrusted : Bool) :
    ∃ message, desktopEntryParse fs path root requireTrusted = .error message := by
  have refused : ∃ message, openDesktop fs path root requireTrusted = .error message := by
    obtain ⟨reason, unopened⟩ := fs.fopen_long path long
    obtain ⟨reason', unresolved⟩ := fs.realpath_long path long
    unfold openDesktop
    rw [unopened, unresolved]
    split
    · exact ⟨_, rfl⟩
    · split
      · exact ⟨_, rfl⟩
      · split
        · exact ⟨_, rfl⟩
        · exact ⟨_, rfl⟩
  obtain ⟨message, refused⟩ := refused
  exact ⟨message, by rw [desktopEntryParse, refused]⟩

variable {fs : FileSystem} {root : List UInt8} {requireTrusted : Bool} {entry : DesktopEntry}

theorem desktopEntryParse_eq_ok {path : List UInt8}
    (parsed : desktopEntryParse fs path root requireTrusted = .ok entry) :
    entry.desktopPath = .print path ∧ appIdValid entry.appId.bytes = true := by
  unfold desktopEntryParse at parsed
  split at parsed
  · cases parsed
  · unfold parseContent at parsed
    dsimp only at parsed
    split at parsed
    · cases parsed
    · split at parsed
      · cases parsed
      · split at parsed
        · cases parsed
        · rename_i valid
          obtain rfl := Except.ok.inj parsed
          exact ⟨rfl, by simpa using valid⟩

variable {name : List UInt8}

theorem entryAt_long (fs : FileSystem) (appId : CString) (requireTrusted : Bool)
    (long : pathMax ≤ (root ++ 47 :: name).length) :
    entryAt fs appId requireTrusted root name = none := by
  obtain ⟨message, refused⟩ := desktopEntryParse_long fs long root requireTrusted
  rw [entryAt, refused]
  rfl

theorem directMatch_eq (fs : FileSystem) (appId : CString) (requireTrusted : Bool)
    (root : List UInt8) :
    directMatch fs appId requireTrusted root =
      entryAt fs appId requireTrusted root (appId.bytes ++ desktopSuffix) := by
  unfold directMatch
  dsimp only
  split
  · rename_i long
    exact (entryAt_long fs appId requireTrusted long).symm
  · unfold entryAt
    cases
      desktopEntryParse fs (root ++ 47 :: (appId.bytes ++ desktopSuffix)) root requireTrusted with
    | error message => rfl
    | ok candidate => by_cases same : candidate.appId.bytes = appId.bytes <;>
      simp [Except.toOption, Option.filter, same]

/-- What is left of a search once all that matches is known: at most one entry. -/
def searched (all : List DesktopEntry) : Except String (Option DesktopEntry) :=
  match all with
  | [] => .ok none
  | [entry] => .ok (some entry)
  | _ => .error "app id is ambiguous"

/-- A scan of a directory is a search among the entries of its desktop files. -/
theorem scanNames_eq (fs : FileSystem) (appId : CString) (requireTrusted : Bool)
    (root : List UInt8) (found : Option DesktopEntry) (names : List (List UInt8)) :
    scanNames fs appId requireTrusted root found names =
      searched (found.toList ++ (names.filter fun name =>
        8 < name.length ∧ desktopSuffix <:+ name).filterMap
          (entryAt fs appId requireTrusted root)) := by
  -- The induction is on the names, and a second match ends it.
  induction names generalizing found with
  | nil => cases found <;> rfl
  | cons name names ih =>
    rw [scanNames]
    split
    · rename_i other
      rw [ih, List.filter_cons_of_neg (by simpa [imp_iff_not_or] using other)]
    · rename_i called
      rw [List.filter_cons_of_pos (by simpa [not_or] using called), List.filterMap_cons]
      dsimp only
      split
      · rename_i long
        rw [ih, entryAt_long fs appId requireTrusted long]
      · cases parsed : desktopEntryParse fs (root ++ 47 :: name) root requireTrusted with
        | error message =>
          have absent : entryAt fs appId requireTrusted root name = none := by
            rw [entryAt, parsed]
            rfl
          simp only [absent, ih]
        | ok candidate =>
          by_cases same : candidate.appId.bytes = appId.bytes
          · have here : entryAt fs appId requireTrusted root name = some candidate := by
              rw [entryAt, parsed]
              simp [Except.toOption, same]
            simp only [same, ne_eq, not_true_eq_false, if_false, here]
            cases found with
            | none => simpa using ih (some candidate)
            | some entry => simp [searched]
          · have absent : entryAt fs appId requireTrusted root name = none := by
              rw [entryAt, parsed]
              simp [Except.toOption, same]
            simp only [ne_eq, same, not_false_eq_true, if_true, absent, ih]

theorem scanRoots_eq (fs : FileSystem) (appId : CString) (requireTrusted : Bool)
    (found : Option DesktopEntry) (roots : List (List UInt8)) :
    scanRoots fs appId requireTrusted found roots =
      searched (found.toList ++ entriesFor fs appId requireTrusted roots) := by
  induction roots generalizing found with
  | nil => cases found <;> rfl
  | cons root roots ih =>
    rw [scanRoots, entriesFor, List.flatMap_cons, ← List.append_assoc]
    cases listed : fs.readdir root with
    | none =>
      have none : desktopNames fs root = [] := by
        rw [desktopNames, listed]
        rfl
      simp only [none, List.filterMap_nil, List.append_nil]
      exact ih found
    | some names =>
      simp only [scanNames_eq]
      have called : desktopNames fs root =
          names.filter fun name => 8 < name.length ∧ desktopSuffix <:+ name := by
        rw [desktopNames, listed]
        rfl
      rw [← called]
      generalize found.toList ++ (desktopNames fs root).filterMap
        (entryAt fs appId requireTrusted root) = all
      match all with
      | [] => exact ih none
      | [entry] => exact ih (some entry)
      | entry :: other :: more => rfl

theorem print_roots (fs : FileSystem) (appId jbroot : CString) (requireTrusted : Bool)
    (suffix : List UInt8) :
    entryAt fs appId requireTrusted (printRoot jbroot suffix) =
        entryAt fs appId requireTrusted (applicationRoot jbroot suffix) ∧
      (desktopNames fs (printRoot jbroot suffix)).filterMap
          (entryAt fs appId requireTrusted (printRoot jbroot suffix)) =
        (desktopNames fs (applicationRoot jbroot suffix)).filterMap
          (entryAt fs appId requireTrusted (applicationRoot jbroot suffix)) := by
  by_cases fits : (applicationRoot jbroot suffix).length ≤ pathMax - 1
  · have whole : printRoot jbroot suffix = applicationRoot jbroot suffix :=
      List.take_of_length_le fits
    rw [whole]
    exact ⟨rfl, rfl⟩
  · -- No path in a directory that was cut fits, and none in the directory that was meant.
    have cut : (printRoot jbroot suffix).length = pathMax - 1 := by
      rw [printRoot, List.length_take]
      omega
    have none : ∀ root : List UInt8, pathMax - 1 ≤ root.length →
        entryAt fs appId requireTrusted root = fun _ => .none := by
      intro root long
      funext name
      refine entryAt_long fs appId requireTrusted ?_
      rw [List.length_append, List.length_cons]
      omega
    rw [none _ (by omega), none _ (by omega)]
    exact ⟨rfl, by simp⟩

/-- An entry is resolved by a search among those of all directories. -/
theorem desktopEntryResolve_eq (fs : FileSystem) (appId jbroot : CString) (requireTrusted : Bool) :
    desktopEntryResolve fs appId jbroot requireTrusted =
      if !appIdValid appId.bytes then .error "invalid app id"
      else
        match (applicationRoots jbroot).findSome? fun root =>
          entryAt fs appId requireTrusted root (appId.bytes ++ desktopSuffix) with
        | some entry => .ok entry
        | none =>
          match entriesFor fs appId requireTrusted (applicationRoots jbroot) with
          | [] => .error "no trusted desktop entry for app id"
          | [entry] => .ok entry
          | _ => .error "app id is ambiguous" := by
  have direct : (applicationSuffixes.map (printRoot jbroot)).findSome?
      (directMatch fs appId requireTrusted) = (applicationRoots jbroot).findSome? fun root =>
        entryAt fs appId requireTrusted root (appId.bytes ++ desktopSuffix) := by
    unfold applicationRoots
    rw [List.findSome?_map, List.findSome?_map]
    congr 1
    funext suffix
    simp only [Function.comp_apply, directMatch_eq, (print_roots fs appId jbroot _ suffix).1]
  have all : entriesFor fs appId requireTrusted (applicationSuffixes.map (printRoot jbroot)) =
      entriesFor fs appId requireTrusted (applicationRoots jbroot) := by
    unfold entriesFor applicationRoots
    simp only [List.flatMap_map, (print_roots fs appId jbroot _ _).2]
  unfold desktopEntryResolve
  dsimp only
  rw [direct, scanRoots_eq, all]
  split
  · rfl
  · cases (applicationRoots jbroot).findSome? _ with
    | some entry => rfl
    | none =>
      simp only [Option.toList_none, List.nil_append]
      match entriesFor fs appId requireTrusted (applicationRoots jbroot) with
      | [] => rfl
      | [entry] => rfl
      | entry :: other :: more => rfl

variable {appId : CString}

theorem entryAt_valid (found : entryAt fs appId requireTrusted root name = some entry) :
    appIdValid appId.bytes = true ∧ entry.appId.bytes = appId.bytes ∧
      (root ++ 47 :: name).length < pathMax ∧ entry.desktopPath = .print (root ++ 47 :: name) := by
  have fits : (root ++ 47 :: name).length < pathMax := by
    by_contra long
    rw [entryAt_long fs appId requireTrusted (Nat.le_of_not_lt long)] at found
    cases found
  unfold entryAt at found
  cases parsed : desktopEntryParse fs (root ++ 47 :: name) root requireTrusted with
  | error message =>
    rw [parsed] at found
    cases found
  | ok candidate =>
    rw [parsed] at found
    obtain ⟨rfl, same⟩ : candidate = entry ∧ entry.appId.bytes = appId.bytes := by
      simpa [Except.toOption, Option.filter_eq_some_iff] using found
    obtain ⟨path, valid⟩ := desktopEntryParse_eq_ok parsed
    exact ⟨same ▸ valid, same, fits, path⟩

/-- A file system that lists the names in each directory in another order. -/
structure FileSystem.Relists (fs fs' : FileSystem) : Prop where
  fopen : fs'.fopen = fs.fopen
  realpath : fs'.realpath = fs.realpath
  stat : fs'.stat = fs.stat
  openNoFollow : fs'.openNoFollow = fs.openNoFollow
  readdir : ∀ path, Option.Rel List.Perm (fs'.readdir path) (fs.readdir path)

theorem FileSystem.Relists.entryAt {fs' : FileSystem} (relists : fs.Relists fs') (appId : CString)
    (requireTrusted : Bool) (root : List UInt8) :
    Xios.entryAt fs' appId requireTrusted root = Xios.entryAt fs appId requireTrusted root := by
  have opened : ∀ path root, openDesktop fs' path root requireTrusted =
      openDesktop fs path root requireTrusted := by
    intro path root
    unfold openDesktop
    rw [relists.fopen, relists.realpath, relists.stat, relists.openNoFollow]
  funext name
  unfold Xios.entryAt desktopEntryParse
  rw [opened]

theorem FileSystem.Relists.entriesFor {fs' : FileSystem} (relists : fs.Relists fs')
    (appId : CString) (requireTrusted : Bool) (roots : List (List UInt8)) :
    (Xios.entriesFor fs' appId requireTrusted roots).Perm
      (Xios.entriesFor fs appId requireTrusted roots) := by
  refine List.Perm.flatMap_left _ fun root _ => ?_
  rw [relists.entryAt]
  refine List.Perm.filterMap _ (List.Perm.filter _ ?_)
  have same := relists.readdir root
  cases listed : fs'.readdir root with
  | none =>
    rw [listed] at same
    cases same' : fs.readdir root with
    | none => rfl
    | some names =>
      rw [same'] at same
      cases same
  | some names =>
    rw [listed] at same
    cases same' : fs.readdir root with
    | none =>
      rw [same'] at same
      cases same
    | some names' =>
      rw [same'] at same
      cases same with
      | some perm => exact perm

/-- A path names something directly inside a directory. -/
def DirectlyInside (root path : List UInt8) : Prop :=
  ∃ name, 47 ∉ name ∧ path = root ++ 47 :: name

theorem directlyInside_of_entryAt {jbroot : CString} {suffix : List UInt8}
    (known : suffix ∈ applicationSuffixes) (single : 47 ∉ name) (terminated : 0 ∉ name)
    (found : entryAt fs appId requireTrusted (applicationRoot jbroot suffix) name = some entry) :
    DirectlyInside (applicationRoot jbroot suffix) entry.desktopPath.bytes := by
  obtain ⟨-, -, fits, path⟩ := entryAt_valid found
  have plain : ∀ suffix ∈ applicationSuffixes, 0 ∉ suffix := by decide
  have inRoot : 0 ∉ applicationRoot jbroot suffix := by
    unfold applicationRoot
    split
    · rw [List.mem_append, not_or]
      exact ⟨jbroot.terminated, plain suffix known⟩
    · exact plain suffix known
  refine ⟨name, single, ?_⟩
  rw [path]
  refine Field.bytes_print_of_fits ?_ fits
  rw [List.mem_append, List.mem_cons, not_or, not_or]
  exact ⟨inRoot, by decide, terminated⟩

theorem plain_of_appIdValid (valid : appIdValid appId.bytes = true) :
    47 ∉ appId.bytes ++ desktopSuffix ∧ 0 ∉ appId.bytes ++ desktopSuffix := by
  have suffix : 47 ∉ desktopSuffix ∧ 0 ∉ desktopSuffix := by decide
  rw [List.mem_append, not_or, List.mem_append, not_or]
  refine ⟨⟨fun slash => ?_, suffix.1⟩, appId.terminated, suffix.2⟩
  unfold appIdValid at valid
  rw [Bool.and_eq_true, List.all_eq_true] at valid
  have plain := valid.2 47 slash
  revert plain
  decide

/--
What is found for an application does not depend on the order in which files are listed.

An entry is found if a file called by the application is for it, where the first directory is looked
at first, or else if it is the only one for the application in both directories. Two of them are no
use. What is found is for the application, and directly inside one of the directories.
-/
theorem desktopEntryResolve_spec (fs : FileSystem) (appId jbroot : CString)
    (requireTrusted : Bool) :
    let direct := (applicationRoots jbroot).findSome? fun root =>
      entryAt fs appId requireTrusted root (appId.bytes ++ desktopSuffix)
    let entries := entriesFor fs appId requireTrusted (applicationRoots jbroot)
    (∀ fs', fs.Relists fs' → desktopEntryResolve fs' appId jbroot requireTrusted =
        desktopEntryResolve fs appId jbroot requireTrusted) ∧
      (∀ entry, desktopEntryResolve fs appId jbroot requireTrusted = .ok entry ↔
        direct = some entry ∨ direct = none ∧ entries = [entry]) ∧
      (direct = none → 2 ≤ entries.length → ∃ message,
        desktopEntryResolve fs appId jbroot requireTrusted = .error message) ∧
      ∀ entry, desktopEntryResolve fs appId jbroot requireTrusted = .ok entry →
        entry.appId.bytes = appId.bytes ∧
          ∃ root ∈ applicationRoots jbroot, DirectlyInside root entry.desktopPath.bytes := by
  generalize direct_eq : ((applicationRoots jbroot).findSome? fun root =>
    entryAt fs appId requireTrusted root (appId.bytes ++ desktopSuffix)) = direct
  generalize entries_eq : entriesFor fs appId requireTrusted (applicationRoots jbroot) = entries
  have resolved_eq := desktopEntryResolve_eq fs appId jbroot requireTrusted
  rw [direct_eq, entries_eq] at resolved_eq
  have listed : ∀ entry ∈ entries, ∃ root ∈ applicationRoots jbroot, ∃ name ∈ desktopNames fs root,
      entryAt fs appId requireTrusted root name = some entry := by
    intro entry member
    rw [← entries_eq] at member
    obtain ⟨root, known, here⟩ := List.mem_flatMap.mp member
    obtain ⟨name, called, found⟩ := List.mem_filterMap.mp here
    exact ⟨root, known, name, called, found⟩
  have called : ∀ entry, direct = some entry → ∃ root ∈ applicationRoots jbroot,
      entryAt fs appId requireTrusted root (appId.bytes ++ desktopSuffix) = some entry := by
    intro entry found
    rw [← direct_eq] at found
    exact List.exists_of_findSome?_eq_some found
  have found : ∀ entry, desktopEntryResolve fs appId jbroot requireTrusted = .ok entry ↔
      direct = some entry ∨ direct = none ∧ entries = [entry] := by
    intro entry
    rw [resolved_eq]
    cases valid : appIdValid appId.bytes with
    | false =>
      -- Without a valid name there is no entry to be found.
      have none : direct ≠ some entry := by
        intro found
        obtain ⟨root, -, found⟩ := called entry found
        rw [(entryAt_valid found).1] at valid
        cases valid
      have none' : entries ≠ [entry] := by
        intro only
        obtain ⟨root, -, name, -, found⟩ := listed entry (only ▸ .head _)
        rw [(entryAt_valid found).1] at valid
        cases valid
      simp [none, none']
    | true =>
      rw [Bool.not_true, if_neg Bool.false_ne_true]
      cases direct with
      | some other => simp
      | none =>
        match entries with
        | [] => simp
        | [other] => simp
        | other :: another :: more => simp
  refine ⟨fun fs' relists => ?_, found, fun none many => ?_, fun entry resolved => ?_⟩
  · have perm := relists.entriesFor appId requireTrusted (applicationRoots jbroot)
    rw [entries_eq] at perm
    rw [resolved_eq, desktopEntryResolve_eq]
    simp only [relists.entryAt, direct_eq]
    generalize entriesFor fs' appId requireTrusted (applicationRoots jbroot) = entries' at perm ⊢
    -- Only whether there is one entry matters, and which one it is.
    match entries, entries', perm with
    | [], entries', perm => rw [List.perm_nil.mp perm]
    | [entry], entries', perm => rw [List.perm_singleton.mp perm]
    | _ :: _ :: _, [], perm => exact absurd perm.length_eq (by simp)
    | _ :: _ :: _, [_], perm => exact absurd perm.length_eq (by simp)
    | _ :: _ :: _, _ :: _ :: _, _ => rfl
  · rw [resolved_eq, none]
    split
    · exact ⟨_, rfl⟩
    · match entries, many with
      | _ :: _ :: _, _ => exact ⟨_, rfl⟩
  · have inside : ∃ root ∈ applicationRoots jbroot, ∃ name, 47 ∉ name ∧ 0 ∉ name ∧
        entryAt fs appId requireTrusted root name = some entry := by
      rcases (found entry).mp resolved with first | ⟨-, only⟩
      · obtain ⟨root, known, found⟩ := called entry first
        obtain ⟨single, terminated⟩ := plain_of_appIdValid (entryAt_valid found).1
        exact ⟨root, known, _, single, terminated, found⟩
      · obtain ⟨root, known, name, member, found⟩ := listed entry (only ▸ .head _)
        refine ⟨root, known, name, ?_⟩
        cases names : fs.readdir root with
        | none =>
          rw [desktopNames, names] at member
          cases member
        | some all =>
          rw [desktopNames, names] at member
          obtain ⟨single, terminated⟩ :=
            fs.names root all names name (List.mem_of_mem_filter member)
          exact ⟨single, terminated, found⟩
    obtain ⟨root, known, name, single, terminated, found⟩ := inside
    obtain ⟨suffix, choice, rfl⟩ := List.mem_map.mp known
    exact ⟨(entryAt_valid found).2.1, _, known,
      directlyInside_of_entryAt choice single terminated found⟩

end Xios
