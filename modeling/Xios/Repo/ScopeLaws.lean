import Xios.Lib.Splitting
import Xios.Repo.Scope

/-! A scoped index has the live stanzas, with those of the named packages replaced. -/

namespace Xios

namespace ScopeIndex

/-- A character of a file, where a line break of two characters counts as one. -/
inductive FileChar where
  | char (c : Nat)
  | crlf
  deriving DecidableEq

namespace FileChar

/-- What stands in the file. -/
def raw : FileChar → PyString
  | char c => [c]
  | crlf => [13, 10]

/-- What the program takes it for. -/
def taken : FileChar → Nat
  | char c => c
  | crlf => 10

end FileChar

def fileChars : PyString → List FileChar
  | [] => []
  | 13 :: 10 :: s => .crlf :: fileChars s
  | c :: s => .char c :: fileChars s

section

variable {u : PyText}

theorem Stanza.eq_of_text {a b : Stanza u} (same : a.text = b.text) : a = b := by
  obtain ⟨name, text, _, _, _, _, named, _⟩ := a
  obtain ⟨name', text', _, _, _, _, named', _⟩ := b
  subst same
  obtain rfl : name = name' := named.symm.trans named'
  rfl

theorem Stanza.text_ne_nil (stanza : Stanza u) : stanza.text ≠ [] := by
  intro empty
  have solid := stanza.solid
  rw [empty] at solid
  cases solid

theorem readStanza_eq {chunk : Chunk} {stanza : Stanza u}
    (stripped : PyText.stripOf 10 chunk.1 = stanza.text) : readStanza u chunk = some stanza := by
  have solid := stanza.solid
  have named := stanza.named
  rw [← stripped] at solid named
  unfold readStanza
  rw [dif_neg (by simpa using solid), dif_neg (by rw [named]; exact stanza.nonempty)]
  exact congrArg some (Stanza.eq_of_text stripped)

variable (u)

/-- The name of the package that a stanza in a file is about. -/
def packageName (chars : List FileChar) : PyString :=
  field u (chars.map FileChar.taken) (py "Package")

/-- The stanzas of a file as they stand in it, between empty lines. -/
def rawStanzas (text : PyString) : List (List FileChar) :=
  ((Splitting.splitPairs (FileChar.taken · = 10) (fileChars text)).map
      (Splitting.strip (FileChar.taken · = 10))).filter fun chars =>
    !(chars.map FileChar.taken).all u.isSpace && packageName u chars ≠ []

variable {u}

namespace Selection

variable {s : Selection u} {name : PyString}

end Selection

variable {s : Selection u} {live : List (Stanza u)} {name : PyString}

variable {aptPkg : Option MergePackages.AptPkg}

variable {lib : Libraries} {args : Args} {repo : Repo} {out err : List PyString}

end

/--
When a scoped index is as it should be.

A live stanza of another package has no line breaks of two characters inside.
A package that is not live is named once only, and a local stanza that differs from the live one in
white space at its ends alone has no older version.
-/
structure Sound (u : PyText) (aptPkg : Option MergePackages.AptPkg) (allowRollback : Bool)
    (names : List PyString) (index : Index u) (live : PyString) : Prop where
  verbatim : ∀ chars ∈ rawStanzas u live, packageName u chars ∉ names → FileChar.crlf ∉ chars
  single : ∀ name ∈ names, name ∉ (parseStanzas u live).map Stanza.name → names.count name = 1
  newer : allowRollback = false → ∀ was ∈ parseStanzas u live, was.name ∈ names →
    ∀ now, index.get was.name = some now → u.strip now.text = u.strip was.text →
      0 ≤ MergePackages.compareVersions u aptPkg now.version was.version

def plain : Libraries where
  encode := id
  compress := id
  md5 _ := []
  sha256 _ := []
  formatdate := []

def line (name version : String) : PyString :=
  py "Package: " ++ py name ++ 10 :: py "Version: " ++ py version ++ [10]

end ScopeIndex

end Xios
