import Mathlib.Data.List.DropRight
import Xios.Lib.PyText

/-! What `stamp-minos.py` reads in the control file of a package, and changes there. -/

namespace Xios

namespace StampMinos

def providesFix : List (PyString × PyString) :=
  [(py "libwayland0",
    py "libwayland-client0, libwayland-cursor0, libwayland-egl1, libwayland-server0")]

def dependsAdd : List (PyString × List PyString) :=
  [(py "libgtk-4-1", [py "libxkbcommon0", py "libwayland0", py "libcairo-script-interpreter2"]),
    (py "gtk-4-bin", [py "libxkbcommon0", py "libwayland0", py "libcairo-script-interpreter2"]),
    (py "libgjs0", [py "libcairo-gobject2"]),
    (py "libgnome-autoar-0-0", [py "libgtk-3-0"]),
    (py "libtracker-sparql-3.0-0", [py "libsoup-3.0-0"]),
    (py "libsoup-3.0-0", [py "libz1"]),
    (py "libgmime-3.0-0", [py "libgtkintl", py "libz1"]),
    (py "xwayland", [py "libxau6"]),
    (py "libxkbcommon-dev", [py "libxcb1"]),
    (py "libmutter-14-0", [py "angle", py "libei1", py "libatk1.0-0", py "libxtst6",
      py "libx11-xcb1", py "libxcb-randr0", py "libxcb-res0"]),
    (py "libstartup-notification0", [py "libxcb-util1", py "libx11-xcb1"]),
    (py "libxcb-render0", [py "libxau6", py "libxdmcp6"]),
    (py "tigervnc-common", [py "libsm6", py "libice6", py "libx11-6", py "libxext6",
      py "libjpeg62-turbo", py "libpixman-1-0", py "libgnutls30"]),
    (py "tigervnc-scraping-server", [py "libxtst6", py "libxfixes3", py "libxrandr2",
      py "libsm6", py "libice6", py "libxext6"]),
    (py "kf6-archive", [py "libzstd1", py "libssl3"]),
    (py "libappstream5", [py "libzstd1"]),
    (py "libxmlb2", [py "libzstd1"]),
    (py "libexo-2-0", [py "libice6", py "libsm6"]),
    (py "libxfce4ui-2-0", [py "libice6", py "libsm6"]),
    (py "thunar", [py "libice6", py "libsm6"]),
    (py "libaccountsservice0", [py "libcrypt2"])]

def valueOf (ln : PyString) : PyString :=
  ((PyText.cut 58 ln).map Prod.snd).getD []

def commaList (texts : List PyString) : PyString :=
  (py ", ").intercalate texts

def alternatives (ln : PyString) : List PyString :=
  ((valueOf ln).splitOn 44).flatMap fun part => part.splitOn 124

def uniq (texts : List PyString) : List PyString :=
  texts.foldl (fun d n => if n ∈ d then d else d ++ [n]) []

section

variable (u : PyText)

def packageOf (text : PyString) : Option PyString :=
  ((PyText.lines text).find? fun ln => (py "Package:").isPrefixOf ln).map fun ln =>
    u.strip (valueOf ln)

def lineDeps (ln : PyString) : List PyString :=
  (alternatives ln).filterMap fun alt =>
    match (u.words (u.strip alt)).head? with
    | none => none
    | some word =>
      let name := (word.takeWhile (· ≠ 40)).takeWhile (· ≠ 58)
      if name = [] then none else some name

/-- The packages that a control file depends on, each once. -/
def depsOf (text : PyString) : List PyString :=
  ((PyText.lines text).filter fun ln =>
    (py "Depends:").isPrefixOf ln || (py "Pre-Depends:").isPrefixOf ln).flatMap (lineDeps u)
  |> uniq

def alternativeName (alt : PyString) : Option PyString :=
  (u.words (u.strip ((u.strip alt).takeWhile (· ≠ 40)))).head?

def existing (ln : PyString) : Option (List PyString) :=
  ((alternatives ln).filter fun alt => u.strip alt ≠ []).mapM (alternativeName u)

def mergeDepends (ln : PyString) (adds : List PyString) : Option PyString := do
  let existing ← existing u ln
  let missing := adds.filter (· ∉ existing)
  return u.rstrip ln ++ if missing = [] then [] else py ", " ++ commaList missing

def lineKey (ln : PyString) : PyString :=
  if 58 ∈ ln ∧ ¬[32] <+: ln then ln.takeWhile (· ≠ 58) else []

/-- What the loop over the lines has. -/
structure Edit where
  out : List PyString := []
  arch : Option Nat := none
  hadDep : Bool := false
  deriving DecidableEq

def lookup {α : Type} (table : List (PyString × α)) (pkg : Option PyString) : Option α :=
  pkg.bind fun pkg => table.lookup pkg

def editLine (pkg : Option PyString) (st : Edit) (ln : PyString) : Option Edit :=
  let key := lineKey ln
  let append (ln : PyString) (hadDep : Bool) : Edit := {
    out := st.out ++ [ln]
    arch := if key = py "Architecture" then some st.out.length else st.arch
    hadDep
  }
  if key = py "MinimumOSVersion" then some st
  else if key = py "Provides" ∧ (lookup providesFix pkg).isSome then some st
  else
    match if key = py "Depends" then lookup dependsAdd pkg else none with
    | some adds => (mergeDepends u ln adds).map fun ln => append ln true
    | none => some (append ln st.hadDep)

def insertions (pkg : Option PyString) (minos : PyString) (hadDep : Bool) : List PyString :=
  (if minos = [] then [] else [py "MinimumOSVersion: " ++ minos]) ++
  (match lookup providesFix pkg with
    | some provides => [py "Provides: " ++ provides]
    | none => []) ++
  match lookup dependsAdd pkg with
  | some adds => if hadDep then [] else [py "Depends: " ++ commaList adds]
  | none => []

def editControl (text : PyString) (pkg : Option PyString) (minos : PyString) :
    Option PyString := do
  let lines := (text.splitOn 10).rdropWhile (· = [])
  let st ← lines.foldlM (editLine u pkg) {}
  let position := (st.arch.map (· + 1)).getD st.out.length
  let out := st.out.take position ++ insertions pkg minos st.hadDep ++ st.out.drop position
  return [10].intercalate out ++ [10]

end

end StampMinos

end Xios
