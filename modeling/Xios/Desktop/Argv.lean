import Xios.Desktop.Entry

/-! Command lines of desktop entries, as `xios_desktop_entry_argv` takes them apart. -/

namespace Xios

open CText

/-- At most so many tokens, one place being left for the end of the list. -/
def argMax : Nat := 128

def argStorage : Nat := 8192

/-- What has been read of the token that is being read. -/
structure WordReader where
  -- The quotation mark that has to be closed.
  quote : Option UInt8 := none
  -- Something has been read, if only quotation marks.
  saw : Bool := false
  -- The used part of the buffer for tokens.
  lexical : List UInt8

def scanWord : WordReader → List UInt8 → Except String (WordReader × List UInt8)
  | w, [] => .ok (w, [])
  | w, c :: p =>
    if w.quote = none ∧ isSpace c then .ok (w, c :: p)
    else if w.quote = none ∧ (c = 39 ∨ c = 34) then
      scanWord { w with quote := some c, saw := true } p
    else if w.quote = some c then scanWord { w with quote := none, saw := true } p
    else
      match p with
      -- A backslash makes the next byte literal, inside quotation marks as well.
      | d :: p' =>
        if c = 92 then
          match appendChar argStorage w.lexical d with
          | none => .error "Exec value is too long"
          | some lexical => scanWord { w with lexical, saw := true } p'
        else
          match appendChar argStorage w.lexical c with
          | none => .error "Exec value is too long"
          | some lexical => scanWord { w with lexical, saw := true } (d :: p')
      | [] =>
        match appendChar argStorage w.lexical c with
        | none => .error "Exec value is too long"
        | some lexical => .ok ({ w with lexical, saw := true }, [])

/-- The tokens that are scanned so far. -/
structure Tokens where
  -- Where each of them starts in the buffer.
  starts : List Nat := []
  -- The used part of the buffer.
  lexical : List UInt8 := []

def scanTokens : Nat → Tokens → List UInt8 → Except String Tokens
  | 0, t, _ => .ok t
  | fuel + 1, t, p =>
    match p.dropWhile isSpace with
    | [] => .ok t
    | c :: p =>
      if argMax ≤ t.starts.length + 1 then .error "too many Exec arguments"
      else
        match scanWord { lexical := t.lexical } (c :: p) with
        | .error message => .error message
        | .ok (w, rest) =>
          if w.quote.isSome then .error "unterminated quote in Exec"
          else
            match if w.saw then appendChar argStorage w.lexical 0 else none with
            | none => .error "invalid Exec token"
            | some lexical =>
              scanTokens fuel { starts := t.starts ++ [t.lexical.length], lexical } rest

def lexExec (exec : List UInt8) : Except String (List (List UInt8)) :=
  match scanTokens exec.length {} exec with
  | .error message => .error message
  | .ok t => .ok (t.starts.map (cString t.lexical))

def omittedCodes : List UInt8 :=
  ascii "fFuUdDnNvm"

def tooLong : String :=
  "expanded Exec value is too long"

def expandText (storageLen : Nat) (storage text : List UInt8) : Except String (List UInt8) :=
  match appendText storageLen storage text with
  | none => .error tooLong
  | some storage => .ok storage

def expandChar (storageLen : Nat) (storage : List UInt8) (c : UInt8) :
    Except String (List UInt8) :=
  match appendChar storageLen storage c with
  | none => .error tooLong
  | some storage => .ok storage

/-- Expand the rest of a token, and whether there was anything but codes that are left out. -/
def expandToken (entry : DesktopEntry) (storageLen : Nat) :
    Bool → List UInt8 → List UInt8 → Except String (Bool × List UInt8)
  | had, storage, [] => .ok (had, storage)
  | had, storage, c :: token =>
    if c ≠ 37 then do
      let storage ← expandChar storageLen storage c
      expandToken entry storageLen true storage token
    else
      match token with
      | [] => .error "trailing field code marker in Exec"
      | code :: token =>
        if code = 37 then do
          let storage ← expandChar storageLen storage 37
          expandToken entry storageLen true storage token
        else if code ∈ omittedCodes then expandToken entry storageLen had storage token
        else if code = 99 then do
          let storage ← expandText storageLen storage entry.name.bytes
          expandToken entry storageLen true storage token
        else if code = 107 then do
          let storage ← expandText storageLen storage entry.desktopPath.bytes
          expandToken entry storageLen true storage token
        else if code = 105 then .error "%i must be a standalone Exec argument"
        else
          .error ("unsupported Exec field code %" ++ String.singleton (Char.ofUInt8 code))

/-- The arguments that are expanded so far. -/
structure Arguments where
  -- Where each of them starts in the buffer.
  argv : List Nat := []
  -- The used part of the buffer.
  storage : List UInt8 := []

def expand (entry : DesktopEntry) (argvLen storageLen : Nat) (args : Arguments)
    (token : List UInt8) : Except String Arguments :=
  if token = ascii "%i" then
    if entry.icon.bytes = [] then .ok args
    else if argvLen ≤ args.argv.length + 2 then .error "too many expanded arguments"
    else do
      let flag ← expandText storageLen args.storage (ascii "--icon")
      let flag ← expandChar storageLen flag 0
      let icon ← expandText storageLen flag entry.icon.bytes
      let icon ← expandChar storageLen icon 0
      .ok { argv := args.argv ++ [args.storage.length, flag.length], storage := icon }
  else if argvLen ≤ args.argv.length + 1 then .error "too many expanded arguments"
  else do
    let (had, storage) ← expandToken entry storageLen false args.storage token
    -- A token that stands for nothing is no argument.
    if !had ∧ storage.length = args.storage.length then .ok args
    else do
      let storage ← expandChar storageLen storage 0
      .ok { argv := args.argv ++ [args.storage.length], storage }

def expandAll (entry : DesktopEntry) (argvLen storageLen : Nat) :
    Arguments → List (List UInt8) → Except String Arguments
  | args, [] => .ok args
  | args, token :: tokens => do
    let args ← expand entry argvLen storageLen args token
    expandAll entry argvLen storageLen args tokens

def desktopEntryArgv (entry : DesktopEntry) (argvLen storageLen : Nat) :
    Except String (List (List UInt8)) :=
  if argvLen < 2 ∨ storageLen < 2 then .error "invalid argv arguments"
  else do
    let tokens ← lexExec entry.exec.bytes
    let args ← expandAll entry argvLen storageLen {} tokens
    let words := args.argv.map (cString args.storage)
    -- The command itself has a name.
    if words.headD [] = [] then .error "Exec expands to an empty command" else .ok words

end Xios
