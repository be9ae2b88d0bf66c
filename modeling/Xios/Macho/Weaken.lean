import Xios.Lib.Patching
import Xios.Lib.PyText
import Xios.Lib.Words

/-! How `macho-weaken.py` makes libraries, and what is imported from them, optional. -/

namespace Xios

namespace MachoWeaken

open Words

abbrev Bytes := List UInt8

def lcLoadDylib : Nat := 0x0C

def lcLoadWeakDylib : Nat := 0x80000018

def lcReexportDylib : Nat := 0x8000001F

def lcLoadUpwardDylib : Nat := 0x80000023

def lcLazyLoadDylib : Nat := 0x20

def lcSymtab : Nat := 0x02

def lcDyldChainedFixups : Nat := 0x80000034

/-- The load commands that have a library ordinal each, in their order. -/
def dylibLoaders : List Nat :=
  [lcLoadDylib, lcLoadWeakDylib, lcReexportDylib, lcLoadUpwardDylib, lcLazyLoadDylib]

def nWeakRef : Nat := 0x0040

def nType : Nat := 0x0E

def nUndf : Nat := 0x00

def nExt : Nat := 0x01

def mhMagic64 : Nat := 0xFEEDFACF

def mhCigam64 : Nat := 0xCFFAEDFE

def fatMagic : Nat := 0xCAFEBABE

def fatCigam : Nat := 0xBEBAFECA

def natAt (en : Order) (buf : Bytes) (off width : Nat) : Option Nat :=
  (Patching.read buf off width).map en.value

def put (en : Order) (buf : Bytes) (off width n : Nat) : Bytes :=
  Patching.write buf off (en.bytes width n)

def cstr (buf : Bytes) (off : Nat) : Option Bytes :=
  Patching.readUntil 0 buf off

/-- What a load command tells. -/
inductive Load
  | dylib (nameOff : Nat) (name : Bytes)
  | chainedFixups (dataoff datasize : Nat)
  | symtab (symoff nsyms stroff strsize : Nat)
  | other
  deriving DecidableEq

/-- A load command with what is read of it. -/
structure LoadCommand where
  cmd : Nat
  cmdsize : Nat
  load : Load
  deriving DecidableEq

def readLoad (en : Order) (buf : Bytes) (p cmd : Nat) : Option Load :=
  if cmd ∈ dylibLoaders then do
    let nameOff ← natAt en buf (p + 8) 4
    let name ← cstr buf (p + nameOff)
    return .dylib nameOff name
  else if cmd = lcDyldChainedFixups then do
    let dataoff ← natAt en buf (p + 8) 4
    let datasize ← natAt en buf (p + 12) 4
    return .chainedFixups dataoff datasize
  else if cmd = lcSymtab then do
    let symoff ← natAt en buf (p + 8) 4
    let nsyms ← natAt en buf (p + 12) 4
    let stroff ← natAt en buf (p + 16) 4
    let strsize ← natAt en buf (p + 20) 4
    return .symtab symoff nsyms stroff strsize
  else some .other

def readCommand (en : Order) (buf : Bytes) (p : Nat) : Option LoadCommand := do
  let cmd ← natAt en buf p 4
  let cmdsize ← natAt en buf (p + 4) 4
  let load ← readLoad en buf p cmd
  return { cmd, cmdsize, load }

/-- What the loop over the load commands has. -/
structure Scan where
  buf : Bytes
  p : Nat
  -- Whether each library is weak, in the order of the ordinals.
  dylibIsWeak : List Bool := []
  chained : Option (Nat × Nat) := none
  symtab : Option (Nat × Nat × Nat × Nat) := none
  lcFlips : Nat := 0
  deriving DecidableEq

def weakOrds (dylibIsWeak : List Bool) : List Nat :=
  dylibIsWeak.zipIdx.filterMap fun (w, i) => if w then some (i + 1) else none

/-- How the imports of a format are laid out. -/
structure ImportFormat where
  stride : Nat
  width : Nat
  ordinals : Nat
  weakBit : Nat
  nameShift : Nat
  names : Nat
  deriving DecidableEq

def importFormat (format : Nat) : ImportFormat :=
  if format = 1 ∨ format = 2 then {
    stride := if format = 1 then 4 else 8
    width := 4
    ordinals := 0xFF
    weakBit := 8
    nameShift := 9
    names := 0x7FFFFF
  }
  else {
    stride := 16
    width := 8
    ordinals := 0xFFFF
    weakBit := 16
    nameShift := 32
    names := 0xFFFFFFFF
  }

def ImportFormat.lib (f : ImportFormat) (v : Nat) : Nat :=
  v &&& f.ordinals

def ImportFormat.weak (f : ImportFormat) (v : Nat) : Nat :=
  (v >>> f.weakBit) &&& 0x1

def ImportFormat.nameOff (f : ImportFormat) (v : Nat) : Nat :=
  (v >>> f.nameShift) &&& f.names

def ImportFormat.weaken (f : ImportFormat) (v : Nat) : Nat :=
  v ||| (1 <<< f.weakBit)

/-- What the loop over the imports has. -/
structure Marks where
  buf : Bytes
  weakNames : List Bytes := []
  impFlips : Nat := 0
  deriving DecidableEq

section

variable (en : Order)

def weakenImport (f : ImportFormat) (ords : List Nat) (ibase sbase : Nat) (st : Marks) (k : Nat) :
    Option Marks := do
  let off := ibase + k * f.stride
  let v ← natAt en st.buf off f.width
  if f.lib v ∈ ords ∧ f.weak v = 0 then
    let buf := put en st.buf off f.width (f.weaken v)
    let name ← cstr buf (sbase + f.nameOff v)
    return { buf, weakNames := name :: st.weakNames, impFlips := st.impFlips + 1 }
  else return st

def weakenImports (ords : List Nat) (buf : Bytes) (dataoff : Nat) : Option Marks := do
  let importsOff ← natAt en buf (dataoff + 8) 4
  let symbolsOff ← natAt en buf (dataoff + 12) 4
  let importsCount ← natAt en buf (dataoff + 16) 4
  let importsFormat ← natAt en buf (dataoff + 20) 4
  let _ ← natAt en buf (dataoff + 24) 4
  (List.range importsCount).foldlM
    (weakenImport en (importFormat importsFormat) ords (dataoff + importsOff)
      (dataoff + symbolsOff)) { buf }

def weakenChained (base : Nat) (scan : Scan) : Option Marks :=
  let ords := weakOrds scan.dylibIsWeak
  match scan.chained with
  | some (dataoff, _) =>
    if ords = [] then some { buf := scan.buf }
    else weakenImports en ords scan.buf (base + dataoff)
  | none => some { buf := scan.buf }

def weakenSymbol (symoff stroff : Nat) (weakNames : List Bytes) (buf : Bytes) (i : Nat) :
    Option Bytes := do
  let noff := symoff + i * 16
  let strx ← natAt en buf noff 4
  let type ← natAt en buf (noff + 4) 1
  let desc ← natAt en buf (noff + 6) 2
  if type &&& nType = nUndf ∧ type &&& nExt ≠ 0 then
    let nm ← cstr buf (stroff + strx)
    if nm ∈ weakNames ∧ desc &&& nWeakRef = 0 then
      return put en buf (noff + 6) 2 (desc ||| nWeakRef)
    else return buf
  else return buf

def weakenSymbols (symtab : Option (Nat × Nat × Nat × Nat)) (st : Marks) : Option Bytes :=
  match symtab with
  | some (symoff, nsyms, stroff, _) =>
    if st.weakNames = [] then some st.buf
    else (List.range nsyms).foldlM (weakenSymbol en symoff stroff st.weakNames) st.buf
  | none => some st.buf

end

section

variable (decode : Bytes → PyString) (targets : List PyString)

/-- The name of a library contains a target. -/
def Wanted (name : Bytes) : Prop :=
  ∃ t ∈ targets, t <:+: decode name
  deriving Decidable

def scanCommand (en : Order) (st : Scan) : Option Scan := do
  let c ← readCommand en st.buf st.p
  let p := st.p + c.cmdsize
  match c.load with
  | .dylib _ name =>
    if c.cmd = lcLoadDylib ∧ Wanted decode targets name then
      return { st with
        buf := put en st.buf st.p 4 lcLoadWeakDylib
        p
        dylibIsWeak := st.dylibIsWeak ++ [true]
        lcFlips := st.lcFlips + 1 }
    else return { st with p, dylibIsWeak := st.dylibIsWeak ++ [decide (c.cmd = lcLoadWeakDylib)] }
  | .chainedFixups dataoff datasize => return { st with p, chained := some (dataoff, datasize) }
  | .symtab symoff nsyms stroff strsize =>
    return { st with p, symtab := some (symoff, nsyms, stroff, strsize) }
  | .other => return { st with p }

def scanCommands (en : Order) : Nat → Scan → Option Scan
  | 0, st => some st
  | n + 1, st => do
    let st ← scanCommand decode targets en st
    scanCommands en n st

def sliceOrder (magic : Nat) : Option Order :=
  if magic = mhMagic64 then some .little
  else if magic = mhCigam64 then some .big
  else none

/-- Weaken a slice, and count the load commands and the imports that are changed. -/
def weakenSlice (buf : Bytes) (base : Nat) : Option (Bytes × Nat × Nat) := do
  let magic ← natAt .little buf base 4
  match sliceOrder magic with
  | none => return (buf, 0, 0)
  | some en =>
    let ncmds ← natAt en buf (base + 16) 4
    let scan ← scanCommands decode targets en ncmds { buf, p := base + 32 }
    let marks ← weakenChained en base scan
    let buf ← weakenSymbols en scan.symtab marks
    return (buf, scan.lcFlips, marks.impFlips)

/-- The body of the loop over the slices of a file. -/
def weakenArch (st : Bytes × Nat × Nat) (i : Nat) : Option (Bytes × Nat × Nat) := do
  let off ← natAt .big st.1 (8 + i * 20 + 8) 4
  let (buf, a, b) ← weakenSlice decode targets st.1 off
  return (buf, st.2.1 + a, st.2.2 + b)

def process (file : Bytes) : Option (Bytes × Nat × Nat) := do
  let magic ← natAt .big file 0 4
  let (buf, lc, imp) ←
    if magic = fatMagic ∨ magic = fatCigam then do
      let nfat ← natAt .big file 4 4
      (List.range nfat).foldlM (weakenArch decode targets) (file, 0, 0)
    else weakenSlice decode targets file 0
  return (if lc ≠ 0 ∨ imp ≠ 0 then buf else file, lc, imp)

end

end MachoWeaken

end Xios
