import Mathlib.Data.List.DropRight
import Xios.Lib.PyText

/-! The archive that a package file is, as `stamp-minos.py` takes it apart and puts it together. -/

namespace Xios

namespace StampMinos

abbrev Bytes := List UInt8

/-- How Python turns bytes into text and back, where only the ASCII characters matter. -/
structure Utf8 where
  decode : Bytes → Option PyString
  encode : PyString → Bytes
  decode_ascii : ∀ bytes : Bytes, (∀ b ∈ bytes, b < 128) →
    decode bytes = some (bytes.map UInt8.toNat)

def bytes (text : PyString) : Bytes :=
  text.map UInt8.ofNat

/-- A member of an archive. -/
structure Member where
  hdr : Bytes
  name : PyString
  body : Bytes
  deriving DecidableEq

def magic : Bytes :=
  bytes (py "!<arch>\n")

def ljust (width : Nat) (text : Bytes) : Bytes :=
  text ++ List.replicate (width - text.length) 32

def sizeField (hdr : Bytes) : Bytes :=
  (hdr.take 58).drop 48

def hdrSize (hdr : Bytes) (n : Nat) : Bytes :=
  hdr.take 48 ++ ljust 10 (bytes (PyText.numeral n)) ++ hdr.drop 58

section

variable (u : PyText) (utf8 : Utf8)

/--
The size that a header tells.

A negative one, with which the program goes back in the file, is not read here.
-/
def memberSize (hdr : Bytes) : Option Nat := do
  let text ← utf8.decode (sizeField hdr)
  let size ← u.int (u.strip text)
  size.toNat?

def memberName (hdr : Bytes) : Option PyString := do
  let text ← utf8.decode (hdr.take 16)
  return (u.strip text).rdropWhile (· = 47)

def splitMembers (data : Bytes) : Option (List Member) :=
  if short : data.length < 60 then some []
  else do
    let hdr := data.take 60
    let size ← memberSize u utf8 hdr
    let name ← memberName u utf8 hdr
    let members ← splitMembers (data.drop (60 + size + size % 2))
    return { hdr, name, body := (data.drop 60).take size } :: members
termination_by data.length
decreasing_by
  rw [List.length_drop]
  omega

def arSplit (data : Bytes) : Option (List Member) :=
  if data.take 8 = magic then splitMembers u utf8 (data.drop 8) else none

end

def padding (body : Bytes) : Bytes :=
  if body.length % 2 = 1 then [10] else []

def memberBytes (m : Member) : Bytes :=
  m.hdr ++ m.body ++ padding m.body

def arBuild (members : List Member) : Bytes :=
  magic ++ members.flatMap memberBytes

end StampMinos

end Xios
