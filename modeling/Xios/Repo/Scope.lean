import Xios.Repo.Merge

/-! The narrowing of a package index to a few packages in `scope-index.py`. -/

namespace Xios

namespace ScopeIndex

def replaceLineBreaks : PyString → PyString
  | [] => []
  | 13 :: 10 :: s => 10 :: replaceLineBreaks s
  | c :: s => c :: replaceLineBreaks s

section

variable (u : PyText)

def field (stanza key : PyString) : PyString :=
  match (stanza.splitOn 10).find? fun line => (key ++ [58]).isPrefixOf line with
  | none => []
  | some line => u.strip (((PyText.cut 58 line).map Prod.snd).getD [])

/-- A stanza with the name of its package. -/
structure Stanza where
  name : PyString
  text : PyString
  -- No empty line is inside, and no line break at the ends.
  gapless : ¬[10, 10] <:+: text
  begins : text.head? ≠ some 10
  ends : text.getLast? ≠ some 10
  -- It is not blank, and its package has a name.
  solid : text.all u.isSpace = false
  named : field u text (py "Package") = name
  nonempty : name ≠ []

abbrev Index :=
  Dict (Stanza.name : Stanza u → PyString)

/-- A part of a text between empty lines. -/
abbrev Chunk :=
  { chunk : PyString // ¬[10, 10] <:+: chunk }

def readStanza (chunk : Chunk) : Option (Stanza u) :=
  let text := PyText.stripOf 10 chunk.1
  if blank : text.all u.isSpace = true then none
  else if nameless : field u text (py "Package") = [] then none
  else
    some {
      name := field u text (py "Package")
      text
      gapless := fun gap => chunk.2 (gap.trans (PyText.stripOf_isInfix 10 chunk.1))
      begins := PyText.head_stripOf 10 chunk.1
      ends := PyText.getLast_stripOf 10 chunk.1
      solid := by simpa using blank
      named := rfl
      nonempty := nameless
    }

def chunks (text : PyString) : List Chunk :=
  (PyText.splitPairs 10 text).attachWith _ fun _ member => PyText.splitPairs_gapless member

def stanzas (text : PyString) : List (Stanza u) :=
  (chunks text).filterMap (readStanza u)

def parseStanzas (text : PyString) : List (Stanza u) :=
  stanzas u (replaceLineBreaks text)

/-- What is said about the stanzas of a text that name no package. -/
def skipped (text : PyString) : List PyString :=
  (chunks (replaceLineBreaks text)).filterMap fun chunk =>
    if (PyText.stripOf 10 chunk.1).all u.isSpace = false ∧ (readStanza u chunk).isNone then
      some (py "scope-index: skipping a stanza with no Package: field")
    else none

def splitNames (only : PyString) : List PyString :=
  ((only.splitOn 44).map u.strip).filter (· ≠ [])

/-- Names of packages that are all in an index. -/
structure Selection where
  names : List PyString
  index : Index u
  present : ∀ name ∈ names, (index.get name).isSome

end

section

variable {u : PyText}

def Stanza.version (stanza : Stanza u) : PyString :=
  field u stanza.text (py "Version")

namespace Selection

def stanza (s : Selection u) (name : PyString) (member : name ∈ s.names) : Stanza u :=
  (s.index.get name).get (s.present name member)

def published (s : Selection u) : List (Stanza u) :=
  s.names.attach.map fun name => s.stanza name.1 name.2

end Selection

/-- A live stanza and the local one of the same package. -/
structure Change (u : PyText) where
  was : Stanza u
  now : Stanza u

/-- Both stanzas are taken for the same one. -/
def Change.identical (change : Change u) : Prop :=
  u.strip change.now.text = u.strip change.was.text

instance : DecidablePred (Change.identical : Change u → Prop) :=
  fun change => inferInstanceAs (Decidable (u.strip change.now.text = u.strip change.was.text))

variable (s : Selection u) (live : List (Stanza u))

def replacement (stanza : Stanza u) : Stanza u :=
  if named : stanza.name ∈ s.names then s.stanza stanza.name named else stanza

/-- The live stanzas of named packages, with the local ones. -/
def changes : List (Change u) :=
  live.filterMap fun stanza =>
    if named : stanza.name ∈ s.names then some ⟨stanza, s.stanza stanza.name named⟩ else none

def replaced : List (Change u) :=
  (changes s live).filter fun change => ¬change.identical

def identical : List (Change u) :=
  (changes s live).filter fun change => change.identical

def added : List (Stanza u) :=
  s.published.filter fun stanza => stanza.name ∉ live.map Stanza.name

def kept : List (Stanza u) :=
  live.map (replacement s) ++ added s live

def rollbacks (aptPkg : Option MergePackages.AptPkg) : List (Change u) :=
  (replaced s live).filter fun change =>
    MergePackages.compareVersions u aptPkg change.now.version change.was.version < 0

def packages (index : List (Stanza u)) : PyString :=
  [10, 10].intercalate (index.map Stanza.text) ++ [10]

def packagesPv (index : List (Stanza u)) : PyString :=
  index.flatMap fun stanza => stanza.name ++ py "=" ++ stanza.version ++ [10]

def packagesSha (index : List (Stanza u)) : PyString :=
  index.flatMap fun stanza =>
    field u stanza.text (py "Filename") ++ py " " ++ field u stanza.text (py "SHA256") ++ [10]

end

/-- What the program takes from the libraries of Python. -/
structure Libraries where
  encode : PyString → List Nat
  compress : List Nat → List Nat
  -- Checksums as hexadecimal numerals.
  md5 : List Nat → PyString
  sha256 : List Nat → PyString
  -- The present time.
  formatdate : PyString

/-- The files of a repository that are read or written. -/
structure Repo where
  packages : Option PyString := none
  packagesGz : Option (List Nat) := none
  packagesPv : Option PyString := none
  packagesSha : Option PyString := none
  release : Option PyString := none

/-- The arguments of the program. -/
structure Args where
  repo : PyString
  live : PyString
  only : PyString
  allowNoop : Bool := false
  allowRollback : Bool := false

/-- What a run of the program leaves. -/
structure Outcome where
  exit : Nat
  repo : Repo
  -- The lines it printed.
  stdout : List PyString := []
  stderr : List PyString := []

def joinPath (directory name : PyString) : PyString :=
  if directory = [] ∨ directory.getLast? = some 47 then directory ++ name
  else directory ++ 47 :: name

section

variable (u : PyText) (aptPkg : Option MergePackages.AptPkg) (lib : Libraries)

def releaseHead (release : PyString) : List PyString :=
  ((PyText.readLines release).splitOn 10).filterMap fun line =>
    if [py "MD5Sum:", py "SHA256:", py " "].any (·.isPrefixOf line) then none
    else
      let line := if (py "Date:").isPrefixOf line then py "Date: " ++ lib.formatdate else line
      if u.strip line = [] then none else some line

def releaseLine (hash : List Nat → PyString) (file : PyString × List Nat) : PyString :=
  py " " ++ hash file.2 ++ py " " ++ PyText.numeral file.2.length ++ py " " ++ file.1

def releaseText (release : PyString) (files : List (PyString × List Nat)) : PyString :=
  [10].intercalate (releaseHead u lib release ++
    [py "MD5Sum:"] ++ files.map (releaseLine lib.md5) ++
    [py "SHA256:"] ++ files.map (releaseLine lib.sha256)) ++ [10]

variable {u}

def write (s : Selection u) (live : List (Stanza u)) (repo : Repo) (out err : List PyString) :
    Outcome :=
  let index := kept s live
  let bytes := lib.encode (packages index)
  let repo := {
    repo with
    packages := some (packages index)
    packagesGz := some (lib.compress bytes)
    packagesPv := some (packagesPv index)
    packagesSha := some (packagesSha index)
  }
  match repo.release with
  -- The other files are written when the release file turns out to be missing.
  | none => { exit := 1, repo, stdout := out, stderr := err }
  | some release =>
    let files := [(py "Packages", bytes), (py "Packages.gz", lib.compress bytes)]
    let untouched := index.length - (replaced s live).length - (added s live).length
    { exit := 0
      repo := { repo with release := some (releaseText u lib release files) }
      stdout := out ++ [
        py "scope-index: deploying " ++ PyText.numeral index.length ++ py " package(s); " ++
        PyText.numeral (replaced s live).length ++ py " replaced, " ++
        PyText.numeral (added s live).length ++ py " added, " ++
        PyText.numeral untouched ++ py " untouched"]
      stderr := err }

def Change.describe (change : Change u) (separator : String) : PyString :=
  change.was.name ++ py separator ++ change.was.version ++ py " -> " ++ change.now.version

def report (s : Selection u) (live : List (Stanza u)) : List PyString :=
  (replaced s live).map (fun change => py "   " ++ change.describe ": ") ++
  (added s live).map (fun stanza =>
    py "   " ++ stanza.name ++ py ": NEW at " ++ stanza.version) ++
  (identical s live).map (fun change =>
    py "   " ++ change.was.name ++ py ": " ++ change.was.version ++
      py " is already live, byte-identical")

/-- The part of the program after both indexes are read. -/
def scope (args : Args) (s : Selection u) (live : List (Stanza u)) (repo : Repo)
    (err : List PyString) : Outcome :=
  let count := PyText.numeral live.length
  let out := (py "scope-index: live index has " ++ count ++ py " package(s)") :: report s live
  let older := rollbacks s live aptPkg
  if older ≠ [] ∧ args.allowRollback = false then
    { exit := 1
      repo
      stdout := out
      stderr := err ++ [py "scope-index: refusing to roll back " ++
        (py ", ").intercalate (older.map fun change => change.describe " ") ++
        py ". The target serves a newer version than this index, so publishing " ++
        py "would downgrade every device. Rebase/rebuild to pick up the live version, " ++
        py "or pass --allow-rollback if the rollback is deliberate."] }
  else
    let err := err ++ older.map fun change =>
      py "!! ROLLBACK " ++ change.describe ": " ++
        py " (--allow-rollback): every device on this target will be downgraded"
    if replaced s live = [] ∧ added s live = [] then
      if args.allowNoop = false then
        { exit := 1
          repo
          stdout := out
          stderr := err ++ [
            py "scope-index: every named package is already live unchanged. Nothing " ++
            py "would reach the target, so this publish is a no-op -- if you expected " ++
            py "a new version, the deb in repo/debs is stale (rebuild and repackage)."] }
      else
        write lib s live repo
          (out ++ [py "scope-index: metadata republish requested; preserving the live index"]) err
    else write lib s live repo out err

def byName (stanzas : List (Stanza u)) : Index u :=
  Dict.ofList _ stanzas

variable (u)

/--
The program, with its arguments and the files of the repository.

The live index is its text, or the error that came of reading it.
-/
def main (args : Args) (repo : Repo) (live : Except PyString PyString) : Outcome :=
  let names := splitNames u args.only
  let path := joinPath args.repo (py "Packages")
  if names = [] then
    { exit := 1, repo, stderr := [py "scope-index: --only listed no packages"] }
  else
    match repo.packages with
    | none => { exit := 1, repo, stderr := [py "scope-index: no generated index at " ++ path] }
    | some text =>
      let index := byName (parseStanzas u (PyText.readLines text))
      let err := skipped u (PyText.readLines text)
      if missing : ∀ name ∈ names, (index.get name).isSome then
        match live with
        | .error message =>
          { exit := 1
            repo
            stderr := err ++ [py "scope-index: cannot read the live index at " ++ args.live ++
              py ": " ++ message] }
        | .ok text =>
          scope aptPkg lib args ⟨names, index, missing⟩ (parseStanzas u text) repo
            (err ++ skipped u text)
      else
        { exit := 1
          repo
          stderr := err ++ [
            py "scope-index: not in the generated index (is the deb in repo/debs?): " ++
            (py ", ").intercalate (names.filter fun name => (index.get name).isNone)] }

end

end ScopeIndex

end Xios
