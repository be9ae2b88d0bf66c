import Xios.Lib.Shell

/-! Command lines written by `xios_desktop_argv_shell_text` read back as the words they came from. -/

namespace Xios

/-- A C string without its terminator. -/
structure CString where
  -- The bytes before the terminator.
  bytes : List UInt8
  terminated : 0 ∉ bytes

instance : DecidableEq CString := fun a b =>
  decidable_of_iff (a.bytes = b.bytes) ⟨fun same => by cases a; cases same; rfl, congrArg _⟩

def bareByte (c : UInt8) : Bool :=
  (Shell.byte 'a' ≤ c ∧ c ≤ Shell.byte 'z') || (Shell.byte 'A' ≤ c ∧ c ≤ Shell.byte 'Z') ||
    (Shell.byte '0' ≤ c ∧ c ≤ Shell.byte '9') ||
    ("@%+=:,./_-".toList.map Shell.byte).contains c

def bareWord (a : CString) : Bool :=
  !a.bytes.isEmpty && a.bytes.all bareByte

def quotedByte (c : UInt8) : List UInt8 :=
  -- A quotation mark leaves the quoting, is escaped, and enters it again.
  if c = Shell.quote then [Shell.quote, Shell.backslash, Shell.quote, Shell.quote] else [c]

def shellWord (a : CString) : List UInt8 :=
  if bareWord a then a.bytes
  else Shell.quote :: a.bytes.flatMap quotedByte ++ [Shell.quote]

/-- The loop over the words from position `i`, with the text written so far. -/
def appendWords (dstLen : Nat) : Nat → List UInt8 → List CString → Option (List UInt8)
  | _, text, [] => some text
  | i, text, a :: rest =>
    -- Worst case per byte is a quote's four, plus space and both quotes.
    if dstLen ≤ text.length + a.bytes.length * 4 + 3 then none
    else
      let text := if 0 < i then text ++ [Shell.byte ' '] else text
      appendWords dstLen (i + 1) (text ++ shellWord a) rest

/-- Write the words as one shell command line into a buffer of the given size. -/
def argvShellText (argv : List CString) (dstLen : Nat) : Option (List UInt8) :=
  if argv.isEmpty ∨ dstLen = 0 then none else appendWords dstLen 0 [] argv

theorem classify_bareByte {c : UInt8} (bare : bareByte c = true) :
    Shell.classify c = .ordinary := by
  have all : ∀ n : Fin 256, bareByte (UInt8.ofFin n) = true →
      Shell.classify (UInt8.ofFin n) = .ordinary := by decide +kernel
  exact all c.toFin bare

theorem shellWord_length (a : CString) : (shellWord a).length ≤ a.bytes.length * 4 + 2 := by
  unfold shellWord
  split
  · omega
  · have each : (a.bytes.flatMap quotedByte).length ≤ a.bytes.length * 4 := by
      induction a.bytes with
      | nil => simp
      | cons c rest ih =>
        have one : (quotedByte c).length ≤ 4 := by
          unfold quotedByte
          split <;> simp
        simp only [List.flatMap_cons, List.length_append, List.length_cons]
        omega
    simp only [List.length_append, List.length_cons, List.length_nil]
    omega

theorem scan_quotedBytes {tokens : List Shell.Token} (pieces : List Shell.Piece)
    (bytes : List UInt8) :
    Shell.scan { mode := .single, tokens, word := some pieces } (bytes.flatMap quotedByte) =
      some { mode := .single, tokens, word := some (pieces ++ bytes.map fun c => ⟨c, true⟩) } := by
  -- The induction is on the word's own bytes, each of which is read as one quoted piece.
  induction bytes generalizing pieces with
  | nil => simp [Shell.scan]
  | cons c rest ih =>
    rw [List.flatMap_cons, Shell.scan_append]
    have one : Shell.scan { mode := .single, tokens, word := some pieces } (quotedByte c) =
        some { mode := .single, tokens, word := some (pieces ++ [⟨c, true⟩]) } := by
      unfold quotedByte
      split
      · rename_i mark
        rw [Shell.scan_requoted, mark]
      · rename_i inner
        simp [Shell.scan, Shell.step_single inner]
    rw [one, Option.bind_some, ih]
    simp

theorem scan_shellWord (tokens : List Shell.Token) (a : CString) :
    ∃ pieces, Shell.scan { tokens } (shellWord a) = some { tokens, word := some pieces } ∧
      pieces.map Shell.Piece.byte = a.bytes := by
  unfold shellWord
  split
  · rename_i bare
    simp only [bareWord, Bool.and_eq_true, Bool.not_eq_true', List.isEmpty_eq_false_iff,
      List.all_eq_true] at bare
    obtain ⟨nonempty, bare⟩ := bare
    refine ⟨a.bytes.map fun c => ⟨c, false⟩, ?_, by simp [Function.comp_def]⟩
    -- The first byte begins the word that the others continue.
    cases split : a.bytes with
    | nil => exact absurd split nonempty
    | cons c rest =>
      rw [split] at bare
      simp only [List.mem_cons, forall_eq_or_imp] at bare
      simp [Shell.scan, Shell.step_ordinary (classify_bareByte bare.1),
        Shell.scan_ordinary _ fun c member => classify_bareByte (bare.2 c member)]
  · refine ⟨a.bytes.map fun c => ⟨c, true⟩, ?_, by simp [Function.comp_def]⟩
    have opened : Shell.Scanner.step { tokens } Shell.quote =
        some { mode := .single, tokens, word := some [] } := by
      have mark : Shell.classify Shell.quote = .singleQuote := by decide
      simp [Shell.Scanner.step, Shell.Scanner.endOperator, Shell.Scanner.stepPlain, mark,
        Shell.Scanner.enter]
    rw [List.cons_append, Shell.scan, opened, Option.bind_some, Shell.scan_append,
      scan_quotedBytes]
    simp [Shell.scan, Shell.Scanner.step]

/-- The words after the first, each with the blank before it. -/
def shellRest (argv : List CString) : List UInt8 :=
  argv.flatMap fun a => Shell.byte ' ' :: shellWord a

/-- The whole command line, whatever the size of the buffer. -/
def shellLine : List CString → List UInt8
  | [] => []
  | a :: rest => shellWord a ++ shellRest rest

theorem scan_shellRest (argv : List CString) (written : List (List Shell.Piece))
    (pieces : List Shell.Piece) :
    ∃ written' pieces',
      Shell.scan { tokens := written.map Shell.Token.word, word := some pieces } (shellRest argv) =
        some { tokens := written'.map Shell.Token.word, word := some pieces' } ∧
      (written' ++ [pieces']).map (List.map Shell.Piece.byte) =
        (written ++ [pieces]).map (List.map Shell.Piece.byte) ++ argv.map CString.bytes := by
  -- The induction is on the words left, and the word before each blank is then complete.
  induction argv generalizing written pieces with
  | nil => exact ⟨written, pieces, rfl, by simp⟩
  | cons a rest ih =>
    obtain ⟨next, scanned, same⟩ :=
      scan_shellWord ((written ++ [pieces]).map Shell.Token.word) a
    obtain ⟨written', pieces', continued, bytes⟩ := ih (written ++ [pieces]) next
    refine ⟨written', pieces', ?_, ?_⟩
    · rw [shellRest, List.flatMap_cons, List.cons_append, Shell.scan, Shell.step_blank,
        Option.bind_some, Shell.scan_append]
      rw [List.map_append, List.map_singleton] at scanned continued
      rw [scanned, Option.bind_some]
      exact continued
    · rw [bytes]
      simp [same]

theorem words_shellLine (a : CString) (rest : List CString) :
    Shell.words (shellLine (a :: rest)) = some ((a :: rest).map CString.bytes) := by
  obtain ⟨pieces, scanned, same⟩ := scan_shellWord [] a
  obtain ⟨written, last, continued, bytes⟩ := scan_shellRest rest [] pieces
  have whole : Shell.scan {} (shellLine (a :: rest)) =
      some { tokens := written.map Shell.Token.word, word := some last } := by
    rw [shellLine, Shell.scan_append, scanned, Option.bind_some]
    exact continued
  rw [Shell.words_of_scan whole, bytes]
  simp [same]

theorem appendWords_some {dstLen i : Nat} {text result : List UInt8} {argv : List CString}
    (written : appendWords dstLen i text argv = some result) (fits : text.length + 1 ≤ dstLen) :
    result = text ++ (if 0 < i then shellRest argv else shellLine argv) ∧
      result.length + 1 ≤ dstLen := by
  -- The induction is on the words left, and each check leaves room for the worst case.
  induction argv generalizing i text with
  | nil =>
    obtain rfl := Option.some.inj written
    exact ⟨by simp [shellRest, shellLine], fits⟩
  | cons a rest ih =>
    simp only [appendWords] at written
    split at written
    · cases written
    · rename_i room
      have short := shellWord_length a
      have next := ih written (by split <;> simp <;> omega)
      refine ⟨?_, next.2⟩
      rw [next.1]
      by_cases later : 0 < i
      · simp [later, shellRest]
      · simp [later, shellLine]

theorem zero_not_mem_shellLine (argv : List CString) : 0 ∉ shellLine argv := by
  have word (a : CString) : 0 ∉ shellWord a := by
    unfold shellWord
    split
    · exact a.terminated
    · simp only [List.cons_append, List.mem_cons, List.mem_append, List.mem_flatMap,
        List.mem_nil_iff, or_false, not_or, not_exists, not_and]
      refine ⟨by decide, fun c member => ?_, by decide⟩
      unfold quotedByte
      split
      · decide
      · rintro zero
        rw [List.mem_singleton] at zero
        exact a.terminated (zero ▸ member)
  cases argv with
  | nil => simp [shellLine]
  | cons a rest =>
    simp only [shellLine, shellRest, List.mem_append, List.mem_flatMap, List.mem_cons, not_or,
      not_exists, not_and]
    exact ⟨word a, fun b _ => ⟨by decide, word b⟩⟩

/--
A written command line is read back as exactly the words it was written from.

It contains no terminator, and together with one it fits the buffer.
A line that does not fit is refused as a whole.
-/
theorem argvShellText_round_trip (argv : List CString) (dstLen : Nat) :
    (∀ text, argvShellText argv dstLen = some text →
      Shell.words text = some (argv.map CString.bytes) ∧ 0 ∉ text ∧ text.length + 1 ≤ dstLen) ∧
    (dstLen < (shellLine argv).length + 1 → argvShellText argv dstLen = none) := by
  have line (text : List UInt8) (written : argvShellText argv dstLen = some text) :
      argv ≠ [] ∧ text = shellLine argv ∧ text.length + 1 ≤ dstLen := by
    unfold argvShellText at written
    split at written
    · cases written
    · rename_i usable
      rw [not_or, List.isEmpty_iff] at usable
      obtain ⟨whole, fits⟩ := appendWords_some written (by simp; omega)
      exact ⟨usable.1, by simpa using whole, fits⟩
  refine ⟨?_, ?_⟩
  · intro text written
    obtain ⟨nonempty, rfl, fits⟩ := line text written
    refine ⟨?_, zero_not_mem_shellLine argv, fits⟩
    cases argv with
    | nil => exact absurd rfl nonempty
    | cons a rest => exact words_shellLine a rest
  · intro long
    cases written : argvShellText argv dstLen with
    | none => rfl
    | some text =>
      obtain ⟨-, rfl, fits⟩ := line text written
      omega

def quotedCommand : List CString :=
  [⟨[101, 99, 104, 111], by decide⟩, ⟨[105, 39, 115], by decide⟩, ⟨[], by decide⟩]

theorem argvShellText_round_trip_quoted :
    ∃ text, argvShellText quotedCommand 32 = some text ∧
      Shell.words text = some [[101, 99, 104, 111], [105, 39, 115], []] := by
  have written : argvShellText quotedCommand 32 = some
      [101, 99, 104, 111, 32, 39, 105, 39, 92, 39, 39, 115, 39, 32, 39, 39] := by decide
  exact ⟨_, written, ((argvShellText_round_trip quotedCommand 32).1 _ written).1⟩

end Xios
