import Mathlib.Data.List.Dedup
import Mathlib.Data.List.Lex
import Mathlib.Data.List.Sort
import Mathlib.Logic.Function.Basic
import Xios.Lib.Dict
import Xios.Lib.Comparison
import Xios.Repo.Versions

/-! The merge of three package indexes in `merge-packages.py`. -/

namespace Xios

namespace MergePackages

def fields (stanza : PyString) : Dict (Prod.fst : PyString × PyString → PyString) :=
  Dict.ofList _ <| (PyText.lines stanza).filterMap fun line =>
    if line.head? = some 32 ∨ line.head? = some 9 then none else PyText.cutPair 58 32 line

def field (name : PyString) (stanza : PyString) : Option PyString :=
  ((fields stanza).get name).map Prod.snd

/-- A stanza that has a package, as it stands in an index. -/
structure Stanza (u : PyText) where
  text : PyString
  package : PyString
  -- No empty line is inside, and no line break at the ends.
  gapless : ¬[10, 10] <:+: text
  begins : text.head? ≠ some 10
  ends : text.getLast? ≠ some 10
  -- It has no carriage return, and is not blank.
  clean : 13 ∉ text
  solid : text.all u.isSpace = false
  named : field (py "Package") text = some package
  nonempty : package ≠ []

/-- An index has at most one stanza for each package. -/
abbrev Index (u : PyText) :=
  Dict (Stanza.package : Stanza u → PyString)

/-- A part of an index between empty lines. -/
abbrev Block :=
  { block : PyString // ¬[10, 10] <:+: block ∧ 13 ∉ block }

section

variable {u : PyText}

def Stanza.version (stanza : Stanza u) : PyString :=
  (field (py "Version") stanza.text).getD []

def Stanza.sha256 (stanza : Stanza u) : PyString :=
  (field (py "SHA256") stanza.text).getD []

def Stanza.filename (stanza : Stanza u) : PyString :=
  (field (py "Filename") stanza.text).getD []

def Stanza.sortKey (stanza : Stanza u) : PyString :=
  PyText.basename stanza.filename

end

section

variable (u : PyText)

def readStanza (block : Block) : Option (Stanza u) :=
  let text := PyText.stripOf 10 block.1
  if blank : text.all u.isSpace = true then none
  else
    match named : field (py "Package") text with
    | none => none
    | some package =>
      if empty : package = [] then none
      else
        have inside := PyText.stripOf_isInfix 10 block.1
        some {
          text
          package
          gapless := fun gap => block.2.1 (gap.trans inside)
          begins := PyText.head_stripOf 10 block.1
          ends := PyText.getLast_stripOf 10 block.1
          clean := fun member => block.2.2 (inside.subset member)
          solid := by simpa using blank
          named
          nonempty := empty
        }

def blocks (raw : PyString) : List Block :=
  (PyText.splitPairs 10 (PyText.readLines raw)).attachWith _ fun _ member =>
    ⟨PyText.splitPairs_gapless member, fun char =>
      PyText.not_mem_readLines raw (PyText.mem_of_mem_splitPairs member char)⟩

def stanzas (raw : PyString) : List (Stanza u) :=
  (blocks raw).filterMap (readStanza u)

def parse (file : Option PyString) : Index u :=
  Dict.ofList _ ((file.map (stanzas u)).getD [])

/-- What `apt_pkg` compares versions with. -/
structure AptPkg where
  versionCompare : PyString → PyString → Int
  isPreorder : Comparison.IsPreorder versionCompare

variable (aptPkg : Option AptPkg)

def compareVersions (a b : PyString) : Int :=
  match aptPkg with
  | some apt => apt.versionCompare a b
  | none => Versions.compareDebVersions u a b

/-- Compare the names of package files with `apt_pkg` if it is there. -/
def compareFilenames (a b : PyString) : Int :=
  let (pa, va, aa) := Versions.filenameSplit a
  let (pb, vb, ab) := Versions.filenameSplit b
  if pa ≠ pb then Versions.less (pa < pb)
  else
    let c := compareVersions u aptPkg va vb
    if c ≠ 0 then c
    else if aa ≠ ab then Versions.less (aa < ab)
    else 0

/-- What becomes of a package. -/
inductive Resolution
  | retired
  | kept (stanza : Stanza u)
  | conflict (mine other : Stanza u)

def resolve (base mine other : Option (Stanza u)) : Resolution u :=
  match mine, other with
  | some mine, none =>
    if base.map Stanza.text = some mine.text then .retired else .kept mine
  | none, some other =>
    if base.map Stanza.text = some other.text then .retired else .kept other
  | none, none => .retired
  | some mine, some other =>
    if mine.text = other.text then .kept mine
    else
      let c := compareVersions u aptPkg mine.version other.version
      if c > 0 then .kept mine
      else if c < 0 then .kept other
      else if mine.sha256 = other.sha256 then
        .kept (if base.map Stanza.text = some mine.text then other else mine)
      else .conflict mine other

variable {u}

def Resolution.stanza : Resolution u → Option (Stanza u)
  | .retired => none
  | .kept stanza => some stanza
  | .conflict mine _ => some mine

def Resolution.message : Resolution u → Option PyString
  | .conflict mine other =>
    some (mine.package ++ py " " ++ mine.version ++
      py ": both sides publish this version with different payloads (ours " ++
      mine.sha256.take 12 ++ py ", theirs " ++ other.sha256.take 12 ++ py ")")
  | _ => none

def packages (ours theirs : Index u) : List PyString :=
  (ours.entries.map Stanza.package ++ theirs.entries.map Stanza.package).dedup.insertionSort
    fun a b => a ≤ b

def resolutions (base ours theirs : Index u) : List (Resolution u) :=
  (packages ours theirs).map fun package =>
    resolve u aptPkg (base.get package) (ours.get package) (theirs.get package)

def ordered (base ours theirs : Index u) : List (Stanza u) :=
  ((resolutions aptPkg base ours theirs).filterMap Resolution.stanza).insertionSort fun a b =>
    compareFilenames u aptPkg a.sortKey b.sortKey ≤ 0

def conflicts (base ours theirs : Index u) : List PyString :=
  (resolutions aptPkg base ours theirs).filterMap Resolution.message

def serialize (index : List (Stanza u)) : PyString :=
  [10, 10].intercalate (index.map Stanza.text) ++ [10]

/-- What a run of the program leaves. -/
structure Outcome where
  exit : Nat
  files : PyString → Option PyString
  -- The lines it printed.
  stdout : List PyString := []
  stderr : List PyString := []

variable (u)

def main (argv : List PyString) (files : PyString → Option PyString) : Outcome :=
  match argv with
  | basePath :: oursPath :: theirsPath :: rest =>
    let label := rest.head?.getD (py "repo/Packages")
    let base := parse u (files basePath)
    let ours := parse u (files oursPath)
    let theirs := parse u (files theirsPath)
    let merged := ordered aptPkg base ours theirs
    let messages := conflicts aptPkg base ours theirs
    let files := Function.update files oursPath (some (serialize merged))
    if messages ≠ [] then
      { exit := 1
        files
        stderr :=
          (py "CONFLICT (" ++ label ++
            py "): same version published twice with different bytes:") ::
          messages.map (py "  - " ++ ·) ++
          [py "  Bump the version on this branch and rebuild; deb filenames in Blob are immutable."] }
    else
      { exit := 0
        files
        stdout := [py "Merged " ++ label ++ py ": " ++ py (toString merged.length) ++
          py " package(s)"] }
  | _ => { exit := 2, files, stderr := [py "usage: merge-packages.py %O %A %B [%P]"] }

end

end MergePackages

end Xios
