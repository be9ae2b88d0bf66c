import Xios.Debs.Ar
import Xios.Debs.Control

/-! How `stamp-minos.py` puts a changed control file into a package file. -/

namespace Xios

namespace StampMinos

/-- What a header of a member of a tar archive tells. -/
structure TarInfo where
  name : PyString
  mode : Nat := 420
  uid : Nat := 0
  gid : Nat := 0
  size : Nat := 0
  mtime : Nat := 0
  type : UInt8 := 48
  linkname : PyString := []
  uname : PyString := []
  gname : PyString := []

/-- A regular file. -/
def TarInfo.isreg (info : TarInfo) : Prop :=
  info.type ∈ [48, 0, 55, 83]

instance : DecidablePred TarInfo.isreg :=
  fun info => inferInstanceAs (Decidable (info.type ∈ [48, 0, 55, 83]))

/-- A member of a tar archive, with its file if one can be taken out. -/
structure TarMember where
  info : TarInfo
  file : Option Bytes

/-- What Python does with compressed tar archives. -/
structure Tar where
  -- The members of an archive that is opened in some mode.
  read : PyString → Bytes → Option (List TarMember)
  write : List TarMember → Bytes
  zstd : Bytes → Bytes
  xz : Bytes → Bytes
  gzip : Bytes → Bytes

def suffix (name : PyString) : PyString :=
  ((PyText.cutLast 46 name).map Prod.snd).getD name

def tarMode (name : PyString) : PyString :=
  if suffix name = py "gz" then py "r:gz"
  else if suffix name = py "xz" then py "r:xz"
  else if suffix name = py "zst" then py "r:zst"
  else py "r:*"

def compressLike (tar : Tar) (name : PyString) (data : Bytes) : Option Bytes :=
  if suffix name = py "zst" then some (tar.zstd data)
  else if suffix name = py "xz" then some (tar.xz data)
  else if suffix name = py "gz" then some (tar.gzip data)
  else none

/-- The control file of a package. -/
def TarMember.isControl (m : TarMember) : Prop :=
  m.info.name.dropWhile (fun c => c = 46 ∨ c = 47) = py "control"

instance : DecidablePred TarMember.isControl := fun m =>
  inferInstanceAs (Decidable (m.info.name.dropWhile (fun c => c = 46 ∨ c = 47) = py "control"))

/-- The member is the control archive or the data archive of a package. -/
def Member.isPart (m : Member) (kind : String) : Prop :=
  py kind <+: m.name

instance (m : Member) (kind : String) : Decidable (m.isPart kind) :=
  inferInstanceAs (Decidable (py kind <+: m.name))

def rewriteMember (newctl : Bytes) (mi : TarMember) : TarMember :=
  if mi.isControl then {
    info := {
      name := mi.info.name
      mode := mi.info.mode
      uid := mi.info.uid
      gid := mi.info.gid
      uname := mi.info.uname
      gname := mi.info.gname
      mtime := mi.info.mtime
      size := newctl.length
    }
    file := some newctl
  }
  else if mi.info.isreg then mi
  else { mi with file := none }

section

variable (u : PyText) (utf8 : Utf8) (tar : Tar)

def readControl (cm : Member) : Option (List TarMember × PyString) := do
  let src ← tar.read (tarMode cm.name) cm.body
  let control ← src.find? fun m => m.isControl
  let file ← control.file
  let text ← utf8.decode file
  return (src, text)

def newControl (cm : Member) (minos : PyString) : Option (Bytes × Option PyString) := do
  let (src, text) ← readControl utf8 tar cm
  let pkg := packageOf u text
  let newctl ← editControl u text pkg minos
  let z ← compressLike tar cm.name (tar.write (src.map (rewriteMember (utf8.encode newctl))))
  return (z, pkg)

def withBody (cm : Member) (z : Bytes) : Member :=
  { hdr := hdrSize cm.hdr z.length, name := cm.name, body := z }

/-- The package file in which the control file is changed. -/
def rewrite (raw : Bytes) (minos : PyString) : Option (Bytes × Option PyString) := do
  let members ← arSplit u utf8 raw
  let ci ← members.findIdx? fun m => m.isPart "control.tar"
  let cm ← members[ci]?
  let (z, pkg) ← newControl u utf8 tar cm minos
  let new := arBuild (members.set ci (withBody cm z))
  let a ← (← arSplit u utf8 raw).find? fun m => m.isPart "data.tar"
  let b ← (← arSplit u utf8 new).find? fun m => m.isPart "data.tar"
  if a.body = b.body then some (new, pkg) else none

end

end StampMinos

end Xios
