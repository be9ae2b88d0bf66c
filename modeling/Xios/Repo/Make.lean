import Xios.Repo.Merge

/-! The package index that `make-repo.py` generates from the package files of a directory. -/

namespace Xios

namespace MakeRepo

open MergePackages (AptPkg compareVersions compareFilenames)

abbrev Field := PyString × PyString

/-- What ends a run early. -/
inductive Failure
  | keyError (key : PyString)
  | systemExit (message : PyString)

/-- A dictionary of fields, which has the order of their names under `__order__`. -/
structure Control where
  -- The texts under all other names.
  values : PyString → Option PyString
  order : List PyString

/-- What a package file contains. -/
structure Deb where
  -- The text of its control file.
  control : PyString
  -- The names of its regular files, unless it has no data.
  data : Option (List PyString)
  size : Nat
  md5 : PyString
  sha1 : PyString
  sha256 : PyString

/-- What a run finds besides the names of the package files. -/
structure Tree where
  deb : PyString → Deb
  -- The home page in the metadata of a package.
  homepage : PyString → Option PyString
  -- The index of an earlier run, and whether packages may get lost.
  previous : Option PyString
  allowShrink : Bool
  baseUrl : PyString
  publisher : PyString
  -- How a string is shown in a message, or in a list.
  repr : PyString → PyString

namespace Control

def ofFields (fields : List Field) : Control where
  values := Function.update
    (fields.foldl (fun d field => Function.update d field.1 (some field.2)) fun _ => none)
    (py "__order__") none
  order := fields.map Prod.fst

def set (ctrl : Control) (name value : PyString) : Control :=
  { ctrl with values := Function.update ctrl.values name (some value) }

def fields (ctrl : Control) : List (PyString × Option PyString) :=
  ctrl.order.map fun name => (name, ctrl.values name)

def version (ctrl : Control) : PyString :=
  (ctrl.values (py "Version")).getD []

/-- How a value is written, where the list under `__order__` is shown. -/
def text (repr : PyString → PyString) (ctrl : Control) (name : PyString) : PyString :=
  (ctrl.values name).getD (py "[" ++ (py ", ").intercalate (ctrl.order.map repr) ++ py "]")

end Control

def readFields (continues : Nat → Bool) (text : PyString) : List Field :=
  (PyText.lines text).filterMap fun ln =>
    if ln.head?.any continues then none else PyText.cutPair 58 32 ln

def controlDict (deb : Deb) : Control :=
  .ofFields (readFields (· = 32) deb.control)

def debPayloadProfile (deb : Deb) : Option PyString :=
  match deb.data with
  | none => none
  | some files =>
    let names := files.map fun name => (name.dropWhile (· = 46)).dropWhile (· = 47)
    if names = [] then none
    else some (if names.any (py "var/jb/").isPrefixOf then py "rootless" else py "rootful")

def parseBlock (block : PyString) : Except Failure Control :=
  let ctrl := Control.ofFields (readFields (fun c => c = 32 || c = 9) block)
  if (ctrl.values (py "Package")).isNone then
    .error (.systemExit (py "ERROR: Packages index has a stanza without a Package field"))
  else .ok ctrl

section

variable (u : PyText)

def parsePackagesText (raw : PyString) : Except Failure (List Control) :=
  ((PyText.splitPairs 10 raw).filter fun block => !block.all u.isSpace).mapM parseBlock

def packageNameRe : PyString → Bool
  | [] => false
  | c :: rest =>
    let alnum c := 48 ≤ c && c ≤ 57 || 65 ≤ c && c ≤ 90 || 97 ≤ c && c ≤ 122
    alnum c && rest.all fun c => alnum c || c ∈ py "+._-"

def checkedPackageName (tree : Tree) (name source : PyString) : Except Failure PyString :=
  if packageNameRe name then .ok name
  else .error (.systemExit (py "ERROR: " ++ source ++ py ": invalid Package name " ++
    tree.repr name ++ py " (dpkg allows letters, digits and -+._, starting with a letter or digit)"))

/-- Whether the name of a file is that of a package file. -/
def isDeb (fn : PyString) : Bool :=
  (py ".deb").isSuffixOf fn

/-- Refuse to lose many packages of the index of an earlier run. -/
def guardShrink (tree : Tree) (debFilenames : List PyString) : Except Failure Unit :=
  match tree.previous with
  | none => .ok ()
  | some raw =>
    if tree.allowShrink then .ok ()
    else do
      let previous ← parsePackagesText u raw
      let present := ((debFilenames.filter isDeb).map fun fn =>
        (fn.take (fn.length - 4)).takeWhile (· ≠ 95)).dedup
      let gone := ((previous.filterMap fun ctrl => ctrl.values (py "Package")).dedup.filter
        (· ∉ present)).insertionSort (· ≤ ·)
      if gone.length ≤ max 5 (previous.length / 20) then .ok ()
      else
        let sample := (py ", ").intercalate (gone.take 8) ++
          if gone.length > 8 then py " ..." else []
        .error (.systemExit (py "ERROR: regenerating from repo/debs would drop " ++
          PyText.numeral gone.length ++ py " of " ++ PyText.numeral previous.length ++
          py " packages from the index.\n       no payload on disk for: " ++ sample ++
          py "\n       repo/debs holds " ++ PyText.numeral present.length ++
          py " package name(s). A worktree looks exactly\n       like this, because repo/debs is " ++
          py "gitignored and never checked out.\n\n       To regenerate the site/index without " ++
          py "payloads:\n           python3 bin/lib/make-repo.py --from-index\n       If you really " ++
          py "are retiring those packages, set MAKE_REPO_ALLOW_SHRINK=1."))

def appSectionPackages : List PyString :=
  [py "baobab", py "d-spy", py "file-roller", py "gnome-calculator", py "gnome-console",
    py "gnome-font-viewer", py "gnome-terminal", py "gnome-text-editor", py "hitori",
    py "nautilus", py "thunar", py "xfce4-appfinder"]

def normalizeSection (ctrl : Control) : Control :=
  let sec := u.strip ((ctrl.values (py "Section")).getD [])
  let normal := if sec = py "x11" ∨ sec = py "X11" then ctrl.set (py "Section") (py "X11") else ctrl
  if (normal.values (py "Package")).any (· ∈ appSectionPackages) then
    normal.set (py "Section") (py "X11/Wayland Apps")
  else normal

/-- Set a field to the publisher, after the other fields if it is new. -/
def publish (tree : Tree) (ctrl : Control) (key : PyString) : Control :=
  let named := ctrl.set key tree.publisher
  if key ∈ named.order then named else { named with order := named.order ++ [key] }

def normalizePublisher (tree : Tree) (ctrl : Control) : Control :=
  [py "Maintainer", py "Author"].foldl (publish tree) ctrl

/-- The fields that are written after those of the package file. -/
def repoFields (tree : Tree) (fn pid : PyString) : List Field :=
  [(py "Filename", py "debs/" ++ fn), (py "Size", PyText.numeral (tree.deb fn).size),
    (py "MD5sum", (tree.deb fn).md5), (py "SHA1", (tree.deb fn).sha1),
    (py "SHA256", (tree.deb fn).sha256),
    (py "Icon", tree.baseUrl ++ py "/icons/" ++ pid ++ py ".png"),
    (py "Depiction", tree.baseUrl ++ py "/depictions/" ++ pid ++ py ".html"),
    (py "SileoDepiction", tree.baseUrl ++ py "/depictions/" ++ pid ++ py ".json"),
    (py "Native Depiction", tree.baseUrl ++ py "/depictions/" ++ pid ++ py ".json")]

def written (tree : Tree) (fn pid : PyString) (ctrl : Control) : List Field :=
  ctrl.order.map (fun name => (name, ctrl.text tree.repr name)) ++ repoFields tree fn pid ++
    if (ctrl.values (py "Homepage")).isNone then
      [(py "Homepage", (tree.homepage pid).getD tree.baseUrl)]
    else []

/-- A package file in the index. -/
structure Entry where
  fn : PyString
  pid : PyString
  ctrl : Control
  fields : List Field

/-- The body of the loop over the package files. -/
def readDeb (tree : Tree) (fn : PyString) : Except Failure Entry := do
  let ctrl := controlDict (tree.deb fn)
  match ctrl.values (py "Package") with
  | none => .error (.keyError (py "Package"))
  | some name =>
    let pid ← checkedPackageName tree name fn
    if (debPayloadProfile (tree.deb fn)).any (· ≠ py "rootless") then
      .error (.systemExit (py "ERROR: " ++ fn ++
        py " has no /var/jb payload paths, so it is not a rootless package.\n       Rootful " ++
        py "packages are no longer supported; rebuild it rootless."))
    else
      let ctrl := normalizePublisher tree (normalizeSection u ctrl)
      .ok { fn, pid, ctrl, fields := written tree fn pid ctrl }

variable (aptPkg : Option AptPkg)

/-- The place of the newest file of each package. -/
abbrev LatestIdx :=
  Dict (Prod.fst : PyString × Nat → PyString)

/-- The body of the loop that looks for the newest files. -/
def noteLatest (pkgs : List Entry) (latestIdx : LatestIdx) (p : Entry × Nat) : LatestIdx :=
  match latestIdx.get p.1.pid with
  | none => latestIdx.set (p.1.pid, p.2)
  | some (_, i) =>
    if compareVersions u aptPkg p.1.ctrl.version
        ((pkgs[i]?.map fun q => q.ctrl.version).getD []) > 0 then
      latestIdx.set (p.1.pid, p.2)
    else latestIdx

def newest (pkgs : List Entry) : List Entry :=
  let latestIdx := pkgs.zipIdx.foldl (noteLatest u aptPkg pkgs) (Dict.empty _)
  let keep := latestIdx.entries.map Prod.snd
  (pkgs.zipIdx.filter fun p => p.2 ∈ keep).map Prod.fst

def line (field : Field) : PyString :=
  field.1 ++ py ": " ++ field.2

def stanza (fields : List Field) : PyString :=
  (py "\n").intercalate (fields.map line)

def packagesText (pkgs : List Entry) : PyString :=
  (py "\n\n").intercalate (pkgs.map fun p => stanza p.fields) ++ py "\n"

/-- The package files of a directory in the order in which they are read. -/
def debs (listing : List PyString) : List PyString :=
  ((listing.insertionSort (· ≤ ·)).insertionSort fun a b =>
    compareFilenames u aptPkg a b ≤ 0).filter isDeb

def main (tree : Tree) (listing : List PyString) : Except Failure (List Entry) := do
  guardShrink u tree (listing.insertionSort (· ≤ ·))
  let pkgs ← (debs u aptPkg listing).mapM (readDeb u tree)
  .ok (newest u aptPkg pkgs)

end

end MakeRepo

end Xios
