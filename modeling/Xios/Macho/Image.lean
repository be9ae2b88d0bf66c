import Mathlib.Data.List.Forall2
import Xios.Macho.Weaken

/-! Well-formed images, and what it is to weaken one. -/

namespace Xios

namespace MachoWeaken

open Words

/-- An entry of the table of imports. -/
structure Import where
  pos : Nat
  header : Nat
  name : Bytes
  deriving DecidableEq

/-- An entry of the symbol table. -/
structure Symbol where
  pos : Nat
  strx : Nat
  type : Nat
  desc : Nat
  name : Bytes
  deriving DecidableEq

/-- What an image has that matters here. -/
structure Image where
  en : Order
  commands : List LoadCommand
  format : ImportFormat
  imports : List Import
  symbols : List Symbol
  deriving DecidableEq

def placed : Nat → List LoadCommand → List (Nat × LoadCommand)
  | _, [] => []
  | p, c :: commands => (p, c) :: placed (p + c.cmdsize) commands

def placedEnd : Nat → List LoadCommand → Nat
  | p, [] => p
  | p, c :: commands => placedEnd (p + c.cmdsize) commands

/-- What a load command tells stands in it, and a name is not in front of that. -/
def LoadCommand.Fits (c : LoadCommand) : Prop :=
  match c.load with
  | .dylib nameOff name => 12 ≤ nameOff ∧ nameOff + name.length < c.cmdsize
  | .chainedFixups _ _ => 16 ≤ c.cmdsize
  | .symtab _ _ _ _ => 24 ≤ c.cmdsize
  | .other => 8 ≤ c.cmdsize

instance (c : LoadCommand) : Decidable c.Fits :=
  match c with
  | ⟨_, cmdsize, .dylib nameOff name⟩ =>
    inferInstanceAs (Decidable (12 ≤ nameOff ∧ nameOff + name.length < cmdsize))
  | ⟨_, cmdsize, .chainedFixups _ _⟩ => inferInstanceAs (Decidable (16 ≤ cmdsize))
  | ⟨_, cmdsize, .symtab _ _ _ _⟩ => inferInstanceAs (Decidable (24 ≤ cmdsize))
  | ⟨_, cmdsize, .other⟩ => inferInstanceAs (Decidable (8 ≤ cmdsize))

def LoadCommand.fixups (c : LoadCommand) : Option (Nat × Nat) :=
  match c.load with
  | .chainedFixups dataoff datasize => some (dataoff, datasize)
  | _ => none

def LoadCommand.library (c : LoadCommand) : Option Bytes :=
  match c.load with
  | .dylib _ name => some name
  | _ => none

def LoadCommand.symtab (c : LoadCommand) : Option (Nat × Nat × Nat × Nat) :=
  match c.load with
  | .symtab symoff nsyms stroff strsize => some (symoff, nsyms, stroff, strsize)
  | _ => none

/-- A symbol is imported. -/
def Symbol.IsUndefined (s : Symbol) : Prop :=
  s.type &&& nType = nUndf ∧ s.type &&& nExt ≠ 0
  deriving Decidable

namespace Image

variable (v : Image)

def fixups : List (Nat × Nat) :=
  v.commands.filterMap LoadCommand.fixups

def symtabs : List (Nat × Nat × Nat × Nat) :=
  v.commands.filterMap LoadCommand.symtab

def regions : List (Nat × Nat) :=
  (0, placedEnd 32 v.commands) :: v.fixups ++
    v.symtabs.flatMap fun (symoff, nsyms, stroff, strsize) =>
      [(symoff, nsyms * 16), (stroff, strsize)]

end Image

/-- Two parts have no place in common. -/
def Beside (first second : Nat × Nat) : Prop :=
  first.1 + first.2 ≤ second.1 ∨ second.1 + second.2 ≤ first.1
  deriving Decidable

def magicOf : Order → Nat
  | .little => mhMagic64
  | .big => mhCigam64

/-- Load commands stand one after the other. -/
def CommandsAt (en : Order) (data : Bytes) (p : Nat) (commands : List LoadCommand) : Prop :=
  ∀ c ∈ placed p commands, readCommand en data c.1 = some c.2 ∧ c.2.Fits

def importAt (en : Order) (f : ImportFormat) (data : Bytes) (ibase sbase k : Nat) :
    Option Import := do
  let header ← natAt en data (ibase + k * f.stride) f.width
  let name ← cstr data (sbase + f.nameOff header)
  return { pos := ibase + k * f.stride, header, name }

def symbolAt (en : Order) (data : Bytes) (symoff stroff i : Nat) : Option Symbol := do
  let strx ← natAt en data (symoff + i * 16) 4
  let type ← natAt en data (symoff + i * 16 + 4) 1
  let desc ← natAt en data (symoff + i * 16 + 6) 2
  let name ← cstr data (stroff + strx)
  return { pos := symoff + i * 16, strx, type, desc, name }

/-- The imports of an image stand in its chained fixups, with the names after them. -/
structure FixupsAt (en : Order) (data : Bytes) (f : ImportFormat) (imports : List Import)
    (dataoff datasize importsOff symbolsOff format : Nat) : Prop where
  importsAt : natAt en data (dataoff + 8) 4 = some importsOff
  symbolsAt : natAt en data (dataoff + 12) 4 = some symbolsOff
  count : natAt en data (dataoff + 16) 4 = some imports.length
  kind : natAt en data (dataoff + 20) 4 = some format
  known : format ∈ [1, 2, 3]
  layout : f = importFormat format
  front : 28 ≤ importsOff
  table : importsOff + imports.length * f.stride ≤ symbolsOff
  room : symbolsOff ≤ datasize
  entries : List.Forall₂ (fun k i =>
      importAt en f data (dataoff + importsOff) (dataoff + symbolsOff) k = some i)
    (List.range imports.length) imports
  names : ∀ i ∈ imports, symbolsOff + f.nameOff i.header + i.name.length < datasize

/-- The symbols of an image stand in its symbol table, with the names in their own part. -/
structure SymbolsAt (en : Order) (data : Bytes) (symbols : List Symbol)
    (symoff nsyms stroff strsize : Nat) : Prop where
  count : nsyms = symbols.length
  entries : List.Forall₂ (fun i s => symbolAt en data symoff stroff i = some s)
    (List.range nsyms) symbols
  names : ∀ s ∈ symbols, s.strx + s.name.length < strsize

/-- The bytes are a well-formed image, which has chained fixups and a symbol table at most once. -/
structure Layout (data : Bytes) (v : Image) : Prop where
  magic : natAt .little data 0 4 = some (magicOf v.en)
  count : natAt v.en data 16 4 = some v.commands.length
  commands : CommandsAt v.en data 32 v.commands
  fixups : match v.fixups with
    | [] => v.imports = []
    | [(dataoff, datasize)] => ∃ importsOff symbolsOff format,
      FixupsAt v.en data v.format v.imports dataoff datasize importsOff symbolsOff format
    | _ => False
  symbols : match v.symtabs with
    | [] => v.symbols = []
    | [(symoff, nsyms, stroff, strsize)] =>
      SymbolsAt v.en data v.symbols symoff nsyms stroff strsize
    | _ => False
  inside : ∀ region ∈ v.regions, region.1 + region.2 ≤ data.length
  apart : v.regions.Pairwise Beside

section

variable (decode : Bytes → PyString) (targets : List PyString)

/-- The load command loads a library that should be weak. -/
def Flips (c : LoadCommand) : Prop :=
  c.cmd = lcLoadDylib ∧ ∃ name ∈ c.library, Wanted decode targets name
  deriving Decidable

def loadsWeak (c : LoadCommand) : Option Bool :=
  c.library.map fun _ => decide (Flips decode targets c ∨ c.cmd = lcLoadWeakDylib)

namespace Image

variable (v : Image)

/-- An import is from a library that is loaded weakly. -/
def IsWeak (i : Import) : Prop :=
  v.format.lib i.header ∈ weakOrds (v.commands.filterMap (loadsWeak decode targets))

instance (i : Import) : Decidable (v.IsWeak decode targets i) :=
  inferInstanceAs (Decidable (_ ∈ _))

/-- The symbol is imported from a library that is weak. -/
def Names (s : Symbol) : Prop :=
  s.IsUndefined ∧ ∃ i ∈ v.imports, v.IsWeak decode targets i ∧ i.name = s.name
  deriving Decidable

/-- An import is from such a library and not yet weak. -/
def Strong (i : Import) : Prop :=
  v.IsWeak decode targets i ∧ v.format.weak i.header = 0
  deriving Decidable

/-- A symbol that is imported weakly already is marked, or is imported in another way too. -/
def Marked : Prop :=
  ∀ s ∈ v.symbols, v.Names decode targets s → s.desc &&& nWeakRef ≠ 0 ∨
    ∃ i ∈ v.imports, v.Strong decode targets i ∧ i.name = s.name
  deriving Decidable

/-- The image is made weak, and nothing else is changed. -/
structure Weakened (data out : Bytes) : Prop where
  length : out.length = data.length
  commands : ∀ c ∈ placed 32 v.commands, Flips decode targets c.2 →
    natAt v.en out c.1 4 = some lcLoadWeakDylib
  imports : ∀ i ∈ v.imports, v.IsWeak decode targets i →
    natAt v.en out i.pos v.format.width = some (v.format.weaken i.header)
  symbols : ∀ s ∈ v.symbols, v.Names decode targets s →
    natAt v.en out (s.pos + 6) 2 = some (s.desc ||| nWeakRef)
  others : ∀ q,
    (∀ c ∈ placed 32 v.commands, Flips decode targets c.2 → ¬(c.1 ≤ q ∧ q < c.1 + 4)) →
    (∀ i ∈ v.imports, v.IsWeak decode targets i →
      ¬(i.pos ≤ q ∧ q < i.pos + v.format.width)) →
    (∀ s ∈ v.symbols, v.Names decode targets s → ¬(s.pos + 6 ≤ q ∧ q < s.pos + 8)) →
    out[q]? = data[q]?

end Image

end

end MachoWeaken

end Xios
