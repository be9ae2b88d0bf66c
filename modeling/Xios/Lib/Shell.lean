import Mathlib.Data.List.Basic

/-! Token recognition and quote removal of the POSIX shell, for texts without expansions. -/

namespace Shell

def byte (c : Char) : UInt8 :=
  c.toUInt8

def quote : UInt8 := 39

def backslash : UInt8 := 92

/-- How an unquoted byte takes part in token recognition. -/
inductive ByteClass where
  -- Starts text in which every byte is literal.
  | singleQuote
  -- Starts text in which most bytes are literal.
  | doubleQuote
  -- Makes the next byte literal.
  | escape
  -- Starts a parameter, command or arithmetic expansion.
  | expansion
  -- Is part of a control or redirection operator.
  | operator
  -- Ends a line.
  | newline
  -- Separates tokens.
  | blank
  -- Starts a comment where a token could start.
  | hash
  -- Is part of a word.
  | ordinary
  deriving DecidableEq, Repr

def classify (c : UInt8) : ByteClass :=
  if c = quote then .singleQuote
  else if c = 34 then .doubleQuote
  else if c = backslash then .escape
  else if c = byte '$' ∨ c = 96 then .expansion
  else if c ∈ [byte '&', byte '|', byte ';', byte '<', byte '>', byte '(', byte ')'] then .operator
  else if c = 10 then .newline
  else if c = byte ' ' ∨ c = 9 then .blank
  else if c = byte '#' then .hash
  else .ordinary

def longOperators : List (List UInt8) :=
  [[byte '&', byte '&'], [byte '|', byte '|'], [byte ';', byte ';'], [byte '<', byte '<'],
    [byte '>', byte '>'], [byte '<', byte '&'], [byte '>', byte '&'], [byte '<', byte '>'],
    [byte '<', byte '<', byte '-'], [byte '>', byte '|']]

/-- A byte of a word, with whether it was quoted. -/
structure Piece where
  byte : UInt8
  -- Whether quoting took away its special meaning.
  quoted : Bool
  deriving DecidableEq, Repr

/-- What a shell reads a line as. -/
inductive Token where
  -- A word, whose quotation marks have been noted and not yet removed.
  | word (pieces : List Piece)
  -- A control or redirection operator.
  | operator (bytes : List UInt8)
  -- The end of a line.
  | newline
  deriving DecidableEq, Repr

/-- Where in the text the scanner is. -/
inductive Mode where
  -- Outside all quoting.
  | plain
  -- Behind a backslash.
  | escaped
  -- Between single quotation marks.
  | single
  -- Between double quotation marks.
  | double
  -- Behind a backslash between double quotation marks.
  | doubleEscaped
  | comment
  deriving DecidableEq, Repr

/-- The scanner's state. -/
structure Scanner where
  -- Position relative to quoting and comments.
  mode : Mode := .plain
  -- Finished tokens in order.
  tokens : List Token := []
  -- The word begun and not yet delimited, which may still be empty.
  word : Option (List Piece) := none
  -- The operator begun and not yet delimited, empty if there is none.
  operator : List UInt8 := []
  deriving DecidableEq, Repr

namespace Scanner

def endOperator (s : Scanner) : Scanner :=
  if s.operator.isEmpty then s
  else { s with tokens := s.tokens ++ [.operator s.operator], operator := [] }

def endWord (s : Scanner) : Scanner :=
  match s.word with
  | none => s
  | some pieces => { s with tokens := s.tokens ++ [.word pieces], word := none }

/-- Make one byte part of the current word, beginning one if necessary. -/
def push (s : Scanner) (c : UInt8) (quoted : Bool) : Scanner :=
  { s with word := some (s.word.getD [] ++ [⟨c, quoted⟩]) }

/-- Quoting begins a word even when nothing is quoted. -/
def enter (s : Scanner) (mode : Mode) : Scanner :=
  { s with mode, word := some (s.word.getD []) }

/-- Scan one byte outside all quoting, with no operator pending. -/
def stepPlain (s : Scanner) (c : UInt8) : Option Scanner :=
  match classify c with
  | .singleQuote => some (s.enter .single)
  | .doubleQuote => some (s.enter .double)
  -- An escaped newline disappears, so the backslash alone does not begin a word.
  | .escape => some { s with mode := .escaped }
  | .expansion => none
  | .operator => some { s.endWord with operator := [c] }
  | .newline => some { s.endWord with tokens := s.endWord.tokens ++ [.newline] }
  | .blank => some s.endWord
  | .hash => some (if s.word.isSome then s.push c false else { s with mode := .comment })
  | .ordinary => some (s.push c false)

/-- Scan one byte, failing where the text asks for an expansion. -/
def step (s : Scanner) (c : UInt8) : Option Scanner :=
  match s.mode with
  | .plain =>
    if !s.operator.isEmpty && longOperators.contains (s.operator ++ [c]) then
      some { s with operator := s.operator ++ [c] }
    else s.endOperator.stepPlain c
  | .escaped =>
    let s := { s.endOperator with mode := .plain }
    some (if c = 10 then s else s.push c true)
  | .single => some (if c = quote then { s with mode := .plain } else s.push c true)
  | .double =>
    if c = 34 then some { s with mode := .plain }
    else if c = backslash then some { s with mode := .doubleEscaped }
    else if c = byte '$' ∨ c = 96 then none
    else some (s.push c true)
  | .doubleEscaped =>
    let s := { s with mode := .double }
    if c = 10 then some s
    else if c = byte '$' ∨ c = 96 ∨ c = 34 ∨ c = backslash then some (s.push c true)
    else some ((s.push backslash true).push c true)
  | .comment =>
    some (if c = 10 then { s with mode := .plain, tokens := s.tokens ++ [.newline] } else s)

def finish (s : Scanner) : Option (List Token) :=
  match s.mode with
  | .plain | .comment => some s.endOperator.endWord.tokens
  | _ => none

end Scanner

def scan (s : Scanner) : List UInt8 → Option Scanner
  | [] => some s
  | c :: rest => (s.step c).bind fun s => scan s rest

/-- Split a text into tokens, failing on expansions and on unterminated quoting. -/
def tokenize (text : List UInt8) : Option (List Token) :=
  (scan {} text).bind Scanner.finish

def Token.removeQuotes : Token → Option (List UInt8)
  | .word pieces => some (pieces.map Piece.byte)
  | _ => none

def words (text : List UInt8) : Option (List (List UInt8)) :=
  (tokenize text).bind fun tokens => tokens.mapM Token.removeQuotes

theorem scan_append (s : Scanner) (left right : List UInt8) :
    scan s (left ++ right) = (scan s left).bind fun s => scan s right := by
  induction left generalizing s with
  | nil => rfl
  | cons c rest ih =>
    simp only [List.cons_append, scan]
    cases s.step c with
    | none => rfl
    | some s => exact ih s

variable {tokens : List Token}

theorem step_ordinary {word : Option (List Piece)} {c : UInt8} (ordinary : classify c = .ordinary) :
    Scanner.step { tokens, word } c =
      some { tokens, word := some (word.getD [] ++ [⟨c, false⟩]) } := by
  simp [Scanner.step, Scanner.endOperator, Scanner.stepPlain, ordinary, Scanner.push]

theorem scan_ordinary (pieces : List Piece) {text : List UInt8}
    (ordinary : ∀ c ∈ text, classify c = .ordinary) :
    scan { tokens, word := some pieces } text =
      some { tokens, word := some (pieces ++ text.map fun c => ⟨c, false⟩) } := by
  induction text generalizing pieces with
  | nil => simp [scan]
  | cons c rest ih =>
    simp only [List.mem_cons, forall_eq_or_imp] at ordinary
    simp [scan, step_ordinary ordinary.1, ih _ ordinary.2]

variable {pieces : List Piece}

theorem step_single {c : UInt8} (inner : c ≠ quote) :
    Scanner.step { mode := .single, tokens, word := some pieces } c =
      some { mode := .single, tokens, word := some (pieces ++ [⟨c, true⟩]) } := by
  simp [Scanner.step, inner, Scanner.push]

theorem scan_requoted :
    scan { mode := .single, tokens, word := some pieces } [quote, backslash, quote, quote] =
      some { mode := .single, tokens, word := some (pieces ++ [⟨quote, true⟩]) } := by
  have mark : classify quote = .singleQuote := by decide
  have slash : classify backslash = .escape := by decide
  simp [scan, Scanner.step, Scanner.stepPlain, Scanner.endOperator, Scanner.enter, Scanner.push,
    mark, slash, show quote ≠ 10 by decide]

theorem step_blank :
    Scanner.step { tokens, word := some pieces } (byte ' ') =
      some { tokens := tokens ++ [.word pieces] } := by
  have blank : classify (byte ' ') = .blank := by decide
  simp [Scanner.step, Scanner.stepPlain, Scanner.endOperator, Scanner.endWord, blank]

theorem mapM_removeQuotes (written : List (List Piece)) :
    (written.map Token.word).mapM Token.removeQuotes =
      some (written.map (List.map Piece.byte)) := by
  induction written with
  | nil => rfl
  | cons pieces rest ih => simp [List.mapM_cons, Token.removeQuotes, ih]

theorem words_of_scan {text : List UInt8} {written : List (List Piece)}
    (scanned : scan {} text = some { tokens := written.map Token.word, word := some pieces }) :
    words text = some ((written ++ [pieces]).map (List.map Piece.byte)) := by
  have finished : tokenize text = some ((written ++ [pieces]).map Token.word) := by
    simp [tokenize, scanned, Scanner.finish, Scanner.endOperator, Scanner.endWord]
  rw [words, finished]
  exact mapM_removeQuotes (written ++ [pieces])

end Shell
