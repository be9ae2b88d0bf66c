import Xios.Lib.CText

/-! Desktop entries as `xios_desktop_entry_parse` reads them from a file. -/

namespace Xios

open CText

abbrev pathMax : Nat := 1024

def lineSize : Nat := 4096

-- No field is without room for its terminator.
instance path_nonempty : NeZero pathMax := ⟨by decide⟩
instance name_nonempty : NeZero 256 := ⟨by decide⟩
instance icon_nonempty : NeZero 512 := ⟨by decide⟩
instance exec_nonempty : NeZero 2048 := ⟨by decide⟩

/-- What a desktop entry says about an application. -/
structure DesktopEntry where
  -- Path of the file that was read.
  desktopPath : Field pathMax
  -- Last component of that path.
  desktopBase : Field 256
  name : Field 256
  exec : Field 2048
  icon : Field 512
  appId : Field 256
  -- Every touch reaches the application as a touch.
  rawTouch : Bool
  deriving DecidableEq

/-- What the reader looks up about a file. -/
structure FileStat where
  directory : Bool
  regular : Bool
  uid : Nat
  mode : Nat

/-- A file that has been opened, which may still fail to be read. -/
structure OpenFile where
  fstat : Option FileStat
  stream : Except String (List UInt8)

/-- What the operating system answers about files, in whose errors only the reason is kept. -/
structure FileSystem where
  fopen : List UInt8 → Except String (List UInt8)
  realpath : List UInt8 → Except String (List UInt8)
  stat : List UInt8 → Option FileStat
  -- Opening fails at a symbolic link.
  openNoFollow : List UInt8 → Except String OpenFile
  -- The names in a directory, in the order in which they are listed.
  readdir : List UInt8 → Option (List (List UInt8))
  -- A path that does not fit a buffer for paths is refused.
  fopen_long : ∀ path, pathMax ≤ path.length → ∃ reason, fopen path = .error reason
  realpath_long : ∀ path, pathMax ≤ path.length → ∃ reason, realpath path = .error reason
  -- A name has no slash and no terminator in it.
  names : ∀ path listed, readdir path = some listed → ∀ name ∈ listed, 47 ∉ name ∧ 0 ∉ name

def pathBase (path : List UInt8) : List UInt8 :=
  path.rtakeWhile (· ≠ 47)

def deniedDesktop (base : List UInt8) : Bool :=
  base = ascii "org.freedesktop.Xwayland.desktop" || base = ascii "org.gnome.Shell.desktop" ||
    base = ascii "org.gnome.Shell.Extensions.desktop"

/-- A file or directory that only its owner, who is root, may write to. -/
def FileStat.trusted (st : FileStat) : Bool :=
  st.uid = 0 && st.mode &&& 0o22 = 0

def openDesktop (fs : FileSystem) (path root : List UInt8) (requireTrusted : Bool) :
    Except String (List UInt8) :=
  if !requireTrusted then
    match fs.fopen path with
    | .error reason => .error ("open failed: " ++ reason)
    | .ok content => .ok content
  else
    match if root = [] then .error "" else fs.realpath root with
    | .error _ => .error "trusted application root unavailable"
    | .ok resolvedRoot =>
      if (fs.stat resolvedRoot).all fun st => !st.directory || !st.trusted then
        .error "application root is not trusted"
      else
        match fs.realpath path with
        | .error reason => .error ("cannot resolve desktop entry: " ++ reason)
        | .ok resolved =>
          -- The root is followed by a slash or by the end of the path.
          if !(resolvedRoot.isPrefixOf resolved &&
              (resolved[resolvedRoot.length]?).all (· = 47)) then
            .error "desktop entry escapes trusted application root"
          else
            match fs.openNoFollow path with
            | .error reason => .error ("cannot securely open desktop entry: " ++ reason)
            | .ok file =>
              match file.fstat with
              | none => .error "desktop entry is not a regular file"
              | some st =>
                if !st.regular then .error "desktop entry is not a regular file"
                else if st.uid ≠ 0 then .error "desktop entry is not root-owned"
                else if st.mode &&& 0o22 ≠ 0 then
                  .error "desktop entry is group/other-writable"
                else
                  match file.stream with
                  | .error reason => .error ("fdopen failed: " ++ reason)
                  | .ok content => .ok content

def appIdValid (appId : List UInt8) : Bool :=
  appId ≠ [] && appId.length < 256 &&
    appId.all fun c => !(c < 0x21 || c = 0x7f || c = 47 || c = 92 || c = 9)

def takeLine : Nat → List UInt8 → List UInt8 × List UInt8
  | 0, content => ([], content)
  | _ + 1, [] => ([], [])
  | room + 1, c :: content =>
    if c = 10 then ([c], content)
    else ((takeLine room content).map (c :: ·) id)

/-- The next line of a file, or as much of it as fits a buffer. -/
def fgets (size : Nat) (content : List UInt8) : Option (List UInt8 × List UInt8) :=
  if content = [] then none else some (takeLine (size - 1) content)

/-- What the reader of an entry keeps between two lines. -/
structure EntryReader where
  name : Field 256 := .print []
  exec : Field 2048 := .print []
  icon : Field 512 := .print []
  type : Field 64 := .print []
  nodisplay : Field 16 := .print []
  hidden : Field 16 := .print []
  terminal : Field 16 := .print []
  startup : Field 256 := .print []
  rawTouch : Field 16 := .print []
  -- The line is in the group of the desktop entry.
  inEntry : Bool := false
  -- That group has been seen.
  sawEntry : Bool := false

def entryHeader : List UInt8 :=
  ascii "[Desktop Entry]"

def EntryReader.set (r : EntryReader) (key val : List UInt8) : EntryReader :=
  if key = ascii "Type" then { r with type := .print val }
  else if key = ascii "NoDisplay" then { r with nodisplay := .print val }
  else if key = ascii "Hidden" then { r with hidden := .print val }
  else if key = ascii "Terminal" then { r with terminal := .print val }
  else if key = ascii "Name" ∧ r.name.bytes = [] then { r with name := .print val }
  else if key = ascii "Exec" ∧ r.exec.bytes = [] then { r with exec := .print val }
  else if key = ascii "Icon" ∧ r.icon.bytes = [] then { r with icon := .print val }
  else if key = ascii "StartupWMClass" ∧ r.startup.bytes = [] then { r with startup := .print val }
  else if key = ascii "X-Xios-RawTouch" then { r with rawTouch := .print val }
  else r

/-- A line without the white space around it, after which nothing may be left to read. -/
def EntryReader.line (r : EntryReader) (line : List UInt8) : Option EntryReader :=
  match line with
  | [] => some r
  | c :: _ =>
    if c = 35 then some r
    else if c = 91 then
      let inEntry := line = entryHeader
      if !inEntry ∧ r.sawEntry then none
      else some { r with inEntry, sawEntry := inEntry || r.sawEntry }
    else if !r.inEntry then some r
    -- The key ends at the first equals sign.
    else if 61 ∈ line then
      some (r.set (line.takeWhile (· ≠ 61)) ((line.dropWhile (· ≠ 61)).drop 1))
    else some r

def EntryReader.lines : Nat → EntryReader → List UInt8 → EntryReader
  | 0, r, _ => r
  | fuel + 1, r, content =>
    match fgets lineSize content with
    | none => r
    | some (line, rest) =>
      match r.line (trim (cString line 0)) with
      | none => r
      | some r' => EntryReader.lines fuel r' rest

def saysTrue (val : List UInt8) : Bool :=
  val.map toLower = ascii "true"

/-- The name of a file without the suffix of desktop entries. -/
def dropDesktop (base : List UInt8) : List UInt8 :=
  if 8 < base.length ∧ ascii ".desktop" <:+ base then base.take (base.length - 8) else base

def EntryReader.chosenAppId (r : EntryReader) (desktopBase : Field 256) : Field 256 :=
  if r.startup.bytes ≠ [] then .print r.startup.bytes else .print (dropDesktop desktopBase.bytes)

def parseContent (path content : List UInt8) : Except String DesktopEntry :=
  let desktopBase : Field 256 := .print (pathBase path)
  if deniedDesktop desktopBase.bytes then .error "desktop entry is denied"
  else
    let r := EntryReader.lines content.length {} content
    if r.type.bytes ≠ ascii "Application" ∨ saysTrue r.nodisplay.bytes ∨ saysTrue r.hidden.bytes ∨
        saysTrue r.terminal.bytes ∨ r.exec.bytes = [] then
      .error "desktop entry is not launchable"
    else
      let appId := r.chosenAppId desktopBase
      if !appIdValid appId.bytes then .error "desktop entry has invalid app id"
      else
        .ok
          { desktopPath := .print path
            desktopBase
            name := if r.name.bytes = [] then .print desktopBase.bytes else r.name
            exec := r.exec
            icon := r.icon
            appId
            rawTouch := saysTrue r.rawTouch.bytes }

def desktopEntryParse (fs : FileSystem) (path trustedRoot : List UInt8) (requireTrusted : Bool) :
    Except String DesktopEntry :=
  match openDesktop fs path trustedRoot requireTrusted with
  | .error message => .error message
  | .ok content => parseContent path content

end Xios
