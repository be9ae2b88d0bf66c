import Xios.Desktop.Argv

/-! Command lines keep the words they were written from, and field codes stay within their words. -/

namespace Xios

open CText

variable {argvLen storageLen : Nat} {entry : DesktopEntry} {words : List (List UInt8)}
/-- The literal text of a token, with the name and the path of an entry in place of their codes. -/
def substitute (name path : List UInt8) : List UInt8 → List UInt8
  | [] => []
  | c :: token =>
    if c ≠ 37 then c :: substitute name path token
    else
      match token with
      | [] => []
      | code :: token =>
        (if code = 37 then [37] else if code = 99 then name else if code = 107 then path else []) ++
          substitute name path token

def fieldCodes : List UInt8 → List UInt8
  | [] => []
  | c :: token =>
    if c ≠ 37 then fieldCodes token
    else
      match token with
      | [] => []
      | code :: token => code :: fieldCodes token

/-- There is more to a token than codes that are left out. -/
def keepsText : List UInt8 → Bool
  | [] => false
  | c :: token =>
    if c ≠ 37 then true
    else
      match token with
      | [] => false
      | code :: token => code ∉ omittedCodes || keepsText token

def origins (token : List UInt8) : List (List UInt8) :=
  if token = ascii "%i" then [token, token] else if keepsText token then [token] else []

def argumentsOf (entry : DesktopEntry) (token : List UInt8) : List (List UInt8) :=
  if token = ascii "%i" then
    if entry.icon.bytes = [] then [] else [ascii "--icon", entry.icon.bytes]
  else if keepsText token then [substitute entry.name.bytes entry.desktopPath.bytes token]
  else []

theorem token_cons (name path : List UInt8) {c : UInt8} (literal : c ≠ 37) (token : List UInt8) :
    substitute name path (c :: token) = c :: substitute name path token ∧
      fieldCodes (c :: token) = fieldCodes token ∧ keepsText (c :: token) = true := by
  rw [substitute.eq_def, fieldCodes.eq_def, keepsText.eq_def]
  simp [literal]

theorem substitute_of_keepsText {name path token : List UInt8} (none : keepsText token = false) :
    substitute name path token = [] := by
  fun_induction keepsText token with
  | case1 => rfl
  | case2 => cases none
  | case3 c marker => simp [substitute, marker]
  | case4 c literal code token ih =>
    rw [Bool.or_eq_false_iff] at none
    have omitted : code ∈ omittedCodes := by simpa using none.1
    have other : code ≠ 37 ∧ code ≠ 99 ∧ code ≠ 107 := by
      refine ⟨?_, ?_, ?_⟩ <;> rintro rfl <;> revert omitted <;> decide
    simp [substitute, literal, other, ih none.2]

theorem zero_notMem_substitute (entry : DesktopEntry) {token : List UInt8}
    (terminated : 0 ∉ token) :
    0 ∉ substitute entry.name.bytes entry.desktopPath.bytes token := by
  fun_induction substitute entry.name.bytes entry.desktopPath.bytes token with
  | case1 => exact terminated
  | case2 c token literal ih =>
    rw [List.mem_cons, not_or] at terminated ⊢
    exact ⟨terminated.1, ih terminated.2⟩
  | case3 => exact List.not_mem_nil
  | case4 c literal code token ih =>
    rw [List.mem_append, not_or]
    refine ⟨?_, ih fun member => terminated (.tail _ (.tail _ member))⟩
    split
    · decide
    · split
      · exact entry.name.terminated
      · split
        · exact entry.desktopPath.terminated
        · exact List.not_mem_nil

theorem expandText_eq_ok {storage text result : List UInt8}
    (expanded : expandText storageLen storage text = .ok result) : result = storage ++ text := by
  unfold expandText appendText at expanded
  split at expanded
  · cases expanded
  · rename_i fits
    split at fits
    · cases fits
    · rw [Option.some.inj fits]
      exact (Except.ok.inj expanded).symm

theorem expandChar_eq_ok {storage result : List UInt8} {c : UInt8}
    (expanded : expandChar storageLen storage c = .ok result) : result = storage ++ [c] := by
  unfold expandChar appendChar at expanded
  split at expanded
  · cases expanded
  · rename_i fits
    split at fits
    · cases fits
    · rw [Option.some.inj fits]
      exact (Except.ok.inj expanded).symm

theorem bind_eq_ok {α β : Type} {first : Except String α} {second : α → Except String β}
    {result : β} (both : first >>= second = .ok result) :
    ∃ middle, first = .ok middle ∧ second middle = .ok result := by
  cases first with
  | error => cases both
  | ok middle => exact ⟨middle, rfl, both⟩

theorem expandToken_eq_ok {had had' : Bool} {storage storage' token : List UInt8}
    (expanded : expandToken entry storageLen had storage token = .ok (had', storage')) :
    storage' = storage ++ substitute entry.name.bytes entry.desktopPath.bytes token ∧
      had' = (had || keepsText token) := by
  fun_induction expandToken entry storageLen had storage token with
  | case1 had storage =>
    obtain ⟨rfl, rfl⟩ := Prod.mk.inj (Except.ok.inj expanded)
    simp [substitute, keepsText]
  | case2 had storage c token literal ih =>
    obtain ⟨middle, appended, rest⟩ := bind_eq_ok expanded
    obtain ⟨text, kept⟩ := ih middle rest
    rw [text, kept, expandChar_eq_ok appended]
    obtain ⟨same, -, keeps⟩ := token_cons entry.name.bytes entry.desktopPath.bytes literal token
    simp [same, keeps]
  | case3 => cases expanded
  | case4 had storage c marker token ih =>
    obtain rfl := not_not.mp marker
    obtain ⟨middle, appended, rest⟩ := bind_eq_ok expanded
    obtain ⟨text, kept⟩ := ih middle rest
    rw [text, kept, expandChar_eq_ok appended]
    have kept : 37 ∉ omittedCodes := by decide
    simp [substitute, keepsText, kept]
  | case5 had storage c marker code token literal omitted ih =>
    obtain rfl := not_not.mp marker
    obtain ⟨text, kept⟩ := ih expanded
    have other : code ≠ 99 ∧ code ≠ 107 := by
      refine ⟨?_, ?_⟩ <;> rintro rfl <;> revert omitted <;> decide
    simp [text, kept, substitute, keepsText, literal, other, omitted]
  | case6 had storage c marker token nomark omitted ih =>
    obtain rfl := not_not.mp marker
    obtain ⟨middle, appended, rest⟩ := bind_eq_ok expanded
    obtain ⟨text, kept⟩ := ih middle rest
    rw [text, kept, expandText_eq_ok appended]
    simp [substitute, keepsText, omitted]
  | case7 had storage c marker token nomark omitted noname ih =>
    obtain rfl := not_not.mp marker
    obtain ⟨middle, appended, rest⟩ := bind_eq_ok expanded
    obtain ⟨text, kept⟩ := ih middle rest
    rw [text, kept, expandText_eq_ok appended]
    simp [substitute, keepsText, omitted]
  | case8 => cases expanded
  | case9 => cases expanded

/-- One token adds exactly the words its field codes stand for. -/
theorem expand_eq_ok {args args' : Arguments} {token : List UInt8}
    (expanded : expand entry argvLen storageLen args token = .ok args') (terminated : 0 ∉ token)
    (packs : Packs args.storage args.argv words) :
    Packs args'.storage args'.argv (words ++ argumentsOf entry token) := by
  unfold expand at expanded
  unfold argumentsOf
  split at expanded
  · rename_i icon
    rw [if_pos icon]
    split at expanded
    · rename_i absent
      obtain rfl := Except.ok.inj expanded
      simpa [absent] using packs
    · rename_i present
      split at expanded
      · cases expanded
      · obtain ⟨flag, flagText, expanded⟩ := bind_eq_ok expanded
        obtain ⟨flagEnd, flagEnded, expanded⟩ := bind_eq_ok expanded
        obtain ⟨text, iconText, expanded⟩ := bind_eq_ok expanded
        obtain ⟨textEnd, textEnded, expanded⟩ := bind_eq_ok expanded
        obtain rfl := Except.ok.inj expanded
        obtain rfl := expandText_eq_ok flagText
        obtain rfl := expandChar_eq_ok flagEnded
        obtain rfl := expandText_eq_ok iconText
        obtain rfl := expandChar_eq_ok textEnded
        have flagWord : 0 ∉ ascii "--icon" := by decide
        have both := (packs.push flagWord).push entry.icon.terminated
        simpa [present] using both
  · rename_i other
    rw [if_neg other]
    split at expanded
    · cases expanded
    · obtain ⟨⟨had, storage⟩, text, expanded⟩ := bind_eq_ok expanded
      obtain ⟨rfl, rfl⟩ := expandToken_eq_ok text
      dsimp only at expanded
      rw [Bool.false_or] at expanded
      cases keeps : keepsText token with
      | true =>
        rw [keeps, if_neg (by simp)] at expanded
        obtain ⟨ended, textEnded, expanded⟩ := bind_eq_ok expanded
        obtain rfl := Except.ok.inj expanded
        obtain rfl := expandChar_eq_ok textEnded
        have one := packs.push (zero_notMem_substitute entry terminated)
        simpa using one
      | false =>
        rw [keeps, if_pos (by simp [substitute_of_keepsText keeps])] at expanded
        obtain rfl := Except.ok.inj expanded
        simpa using packs

theorem expandAll_eq_ok {args args' : Arguments} {tokens words : List (List UInt8)}
    (expanded : expandAll entry argvLen storageLen args tokens = .ok args')
    (terminated : ∀ token ∈ tokens, 0 ∉ token) (packs : Packs args.storage args.argv words) :
    Packs args'.storage args'.argv (words ++ tokens.flatMap (argumentsOf entry)) := by
  -- The induction is on the tokens, each of which adds its arguments at the end.
  induction tokens generalizing args words with
  | nil =>
    obtain rfl := Except.ok.inj expanded
    simpa using packs
  | cons token tokens ih =>
    obtain ⟨middle, first, rest⟩ := bind_eq_ok expanded
    have one := expand_eq_ok first (terminated token (.head _)) packs
    rw [List.flatMap_cons, ← List.append_assoc]
    exact ih rest (fun token member => terminated token (.tail _ member)) one

theorem zero_notMem_lexExec {exec : List UInt8} {tokens : List (List UInt8)}
    (lexed : lexExec exec = .ok tokens) : ∀ token ∈ tokens, 0 ∉ token := by
  unfold lexExec at lexed
  split at lexed
  · cases lexed
  · obtain rfl := Except.ok.inj lexed
    intro token member
    obtain ⟨start, -, rfl⟩ := List.mem_map.mp member
    exact zero_notMem_takeWhile _

theorem desktopEntryArgv_eq_ok (expanded : desktopEntryArgv entry argvLen storageLen = .ok words) :
    ∃ tokens, lexExec entry.exec.bytes = .ok tokens ∧
      words = tokens.flatMap (argumentsOf entry) := by
  unfold desktopEntryArgv at expanded
  split at expanded
  · cases expanded
  · obtain ⟨tokens, lexed, expanded⟩ := bind_eq_ok expanded
    obtain ⟨args, all, expanded⟩ := bind_eq_ok expanded
    have packs := expandAll_eq_ok all (zero_notMem_lexExec lexed) (.nil _)
    dsimp only at expanded
    split at expanded
    · cases expanded
    · refine ⟨tokens, lexed, (Except.ok.inj expanded).symm.trans ?_⟩
      simpa using packs.read

theorem substitute_congr (name path name' path' : List UInt8) {token : List UInt8}
    (others : ∀ code ∈ ascii "cki", code ∉ fieldCodes token) :
    substitute name path token = substitute name' path' token := by
  have noName := others 99 (by decide)
  have noPath := others 107 (by decide)
  clear others
  fun_induction fieldCodes token with
  | case1 => rfl
  | case2 c token literal ih =>
    obtain ⟨same, -, -⟩ := token_cons name path literal token
    obtain ⟨same', -, -⟩ := token_cons name' path' literal token
    rw [same, same', ih noName noPath]
  | case3 c marker =>
    obtain rfl := not_not.mp marker
    rfl
  | case4 c marker code token ih =>
    obtain rfl := not_not.mp marker
    rw [List.mem_cons, not_or] at noName noPath
    simp [substitute, Ne.symm noName.1, Ne.symm noPath.1, ih noName.2 noPath.2]

/-- What an argument is before the entry is known. -/
inductive Slot where
  -- The option in front of the icon.
  | flag
  | icon
  | text (token : List UInt8)

def Slot.token : Slot → List UInt8
  | .flag | .icon => ascii "%i"
  | .text token => token

def Slot.fill (entry : DesktopEntry) : Slot → List UInt8
  | .flag => ascii "--icon"
  | .icon => entry.icon.bytes
  | .text token => substitute entry.name.bytes entry.desktopPath.bytes token

def slots (token : List UInt8) : List Slot :=
  if token = ascii "%i" then [.flag, .icon] else if keepsText token then [.text token] else []

theorem map_token_slots (token : List UInt8) : (slots token).map Slot.token = origins token := by
  unfold slots origins
  split
  · rename_i icon
    rw [icon]
    rfl
  · split <;> rfl

theorem map_fill_slots (icon : entry.icon.bytes ≠ []) (token : List UInt8) :
    (slots token).map (Slot.fill entry) = argumentsOf entry token := by
  unfold slots argumentsOf
  rw [if_neg icon]
  split
  · rfl
  · split <;> rfl

/--
Field codes cannot change what the other words of a command are.

For two entries with the same command line and an icon each, every argument comes from a token of
that line. An argument is the same for both if it comes from a token without codes for the name,
the path and the icon. An argument from a token with codes for the name and the path is the text
of that token, where the name and the path are put in as they are.
-/
theorem fieldCodes_keep_words {entry entry' : DesktopEntry} {argvLen storageLen : Nat}
    {words words' : List (List UInt8)} (exec : entry.exec = entry'.exec)
    (icon : entry.icon.bytes ≠ []) (icon' : entry'.icon.bytes ≠ [])
    (expanded : desktopEntryArgv entry argvLen storageLen = .ok words)
    (expanded' : desktopEntryArgv entry' argvLen storageLen = .ok words') :
    ∃ tokens, lexExec entry.exec.bytes = .ok tokens ∧
      words.length = (tokens.flatMap origins).length ∧ words'.length = words.length ∧
      ∀ (i : Nat) (token : List UInt8), (tokens.flatMap origins)[i]? = some token →
        ((∀ code ∈ ascii "cki", code ∉ fieldCodes token) → words[i]? = words'[i]?) ∧
        ((∃ code ∈ ascii "ck", code ∈ fieldCodes token) →
          words[i]? = some (substitute entry.name.bytes entry.desktopPath.bytes token) ∧
            words'[i]? = some (substitute entry'.name.bytes entry'.desktopPath.bytes token)) := by
  obtain ⟨tokens, lexed, rfl⟩ := desktopEntryArgv_eq_ok expanded
  obtain ⟨tokens', lexed', rfl⟩ := desktopEntryArgv_eq_ok expanded'
  obtain rfl : tokens = tokens' := by
    rw [exec, lexed'] at lexed
    exact (Except.ok.inj lexed).symm
  -- Both commands fill the same places, which only the command line determines.
  have places : tokens.flatMap origins = (tokens.flatMap slots).map Slot.token := by
    simp only [List.map_flatMap, map_token_slots]
  have filled : ∀ {entry : DesktopEntry}, entry.icon.bytes ≠ [] →
      tokens.flatMap (argumentsOf entry) = (tokens.flatMap slots).map (Slot.fill entry) := by
    intro entry icon
    simp only [List.map_flatMap, map_fill_slots icon]
  rw [filled icon, filled icon']
  refine ⟨tokens, lexed, by simp [places], by simp, fun i token there => ?_⟩
  rw [places, List.getElem?_map, Option.map_eq_some_iff] at there
  obtain ⟨slot, place, rfl⟩ := there
  rw [List.getElem?_map, List.getElem?_map, place]
  cases slot with
  | flag | icon =>
    refine ⟨fun others => absurd (others 105 (by decide)) (by decide), fun uses => ?_⟩
    exact absurd uses (by decide)
  | text token =>
    refine ⟨fun others => congrArg some ?_, fun _ => ⟨rfl, rfl⟩⟩
    exact substitute_congr _ _ _ _ others

def entryOf (exec name icon path : String) : DesktopEntry where
  desktopPath := .print (ascii path)
  desktopBase := .print (pathBase (ascii path))
  name := .print (ascii name)
  exec := .print (ascii exec)
  icon := .print (ascii icon)
  appId := .print (dropDesktop (pathBase (ascii path)))
  rawTouch := false

theorem fieldCodes_keep_words_quoted :
    desktopEntryArgv (entryOf "edit %i --name=%c '%k' 50%%" "a \"b\" %i" "pen" "/a b") 16 64 =
      .ok (["edit", "--icon", "pen", "--name=a \"b\" %i", "/a b", "50%"].map ascii) ∧
    ∀ words, desktopEntryArgv (entryOf "edit %i --name=%c '%k' 50%%" "Editor" "nib" "/c") 16 64 =
      .ok words → words.length = 6 := by
  have expanded : desktopEntryArgv (entryOf "edit %i --name=%c '%k' 50%%" "a \"b\" %i" "pen" "/a b")
      16 64 = .ok (["edit", "--icon", "pen", "--name=a \"b\" %i", "/a b", "50%"].map ascii) := by
    decide +kernel
  refine ⟨expanded, fun words expanded' => ?_⟩
  obtain ⟨tokens, -, -, same, -⟩ :=
    fieldCodes_keep_words (by decide +kernel) (by decide +kernel) (by decide +kernel) expanded
      expanded'
  rw [same]
  decide

/-- A byte of a word between double quotation marks. -/
def execByte (c : UInt8) : List UInt8 :=
  if c = 37 then [37, 37] else if c ∈ ascii "\"`$\\" then [92, c] else [c]

def execWord (word : List UInt8) : List UInt8 :=
  34 :: (word.flatMap execByte ++ [34])

def execLine (words : List (List UInt8)) : List UInt8 :=
  [32].intercalate (words.map execWord)

/-- Room that words take in a buffer, each with a terminator. -/
def packedLength (words : List (List UInt8)) : Nat :=
  (words.map fun word => word.length + 1).sum

def doubled (word : List UInt8) : List UInt8 :=
  word.flatMap fun c => if c = 37 then [37, 37] else [c]

theorem scanWord_literal {quote c : UInt8} {saw : Bool} {lexical : List UInt8}
    (inside : c ≠ quote) (plain : c ≠ 92) (fits : lexical.length + 1 < argStorage)
    (rest : List UInt8) :
    scanWord { quote := some quote, saw, lexical } (c :: rest) =
      scanWord { quote := some quote, saw := true, lexical := lexical ++ [c] } rest := by
  have appended : appendChar argStorage lexical c = some (lexical ++ [c]) :=
    if_neg (by omega)
  cases rest with
  | nil => simp [scanWord, Ne.symm inside, appended]
  | cons d rest =>
    rw [scanWord]
    simp [Ne.symm inside, plain, appended]

theorem scanWord_escape {quote d : UInt8} {saw : Bool} {lexical : List UInt8}
    (mark : quote ≠ 92) (fits : lexical.length + 1 < argStorage) (rest : List UInt8) :
    scanWord { quote := some quote, saw, lexical } (92 :: d :: rest) =
      scanWord { quote := some quote, saw := true, lexical := lexical ++ [d] } rest := by
  have appended : appendChar argStorage lexical d = some (lexical ++ [d]) :=
    if_neg (by omega)
  rw [scanWord]
  simp [mark, appended]

theorem scanWord_execByte {c : UInt8} {saw : Bool} {lexical : List UInt8}
    (fits : lexical.length + (doubled [c]).length < argStorage) (rest : List UInt8) :
    scanWord { quote := some 34, saw, lexical } (execByte c ++ rest) =
      scanWord { quote := some 34, saw := true, lexical := lexical ++ doubled [c] } rest := by
  unfold execByte doubled at *
  simp only [List.flatMap_cons, List.flatMap_nil, List.append_nil] at fits ⊢
  by_cases marker : c = 37
  · simp only [marker, if_true, List.length_cons, List.length_nil] at fits ⊢
    rw [List.cons_append, scanWord_literal (by decide) (by decide) (by omega), List.cons_append,
      scanWord_literal (by decide) (by decide) (by simp; omega)]
    simp
  · simp only [if_neg marker, List.length_cons, List.length_nil] at fits ⊢
    by_cases special : c ∈ ascii "\"`$\\"
    · rw [if_pos special]
      exact scanWord_escape (by decide) fits rest
    · rw [if_neg special]
      refine scanWord_literal ?_ ?_ fits rest
      · rintro rfl
        exact special (by decide)
      · rintro rfl
        exact special (by decide)

theorem scanWord_end {w : WordReader} {rest : List UInt8} (unquoted : w.quote = none)
    (ends : ∀ c ∈ rest.head?, isSpace c = true) : scanWord w rest = .ok (w, rest) := by
  cases rest with
  | nil => rw [scanWord]
  | cons c rest =>
    rw [scanWord.eq_def]
    exact if_pos ⟨unquoted, ends c rfl⟩

/-- A quoted word is scanned as it is, with percent signs doubled. -/
theorem scanWord_execWord {lexical word rest : List UInt8}
    (fits : lexical.length + (doubled word).length < argStorage)
    (ends : ∀ c ∈ rest.head?, isSpace c = true) :
    scanWord { lexical } (execWord word ++ rest) =
      .ok ({ saw := true, lexical := lexical ++ doubled word }, rest) := by
  -- The induction is on the bytes between the quotation marks.
  have inside : ∀ (word lexical : List UInt8) (saw : Bool),
      lexical.length + (doubled word).length < argStorage →
      scanWord { quote := some 34, saw, lexical } (word.flatMap execByte ++ 34 :: rest) =
        .ok ({ saw := true, lexical := lexical ++ doubled word }, rest) := by
    intro word
    induction word with
    | nil =>
      intro lexical saw _
      have closed : scanWord { quote := some 34, saw, lexical } (34 :: rest) =
          scanWord { saw := true, lexical } rest := by
        rw [scanWord.eq_def]
        simp
      rw [List.flatMap_nil, List.nil_append, closed, scanWord_end rfl ends]
      simp [doubled]
    | cons c word ih =>
      intro lexical saw fits
      have split : doubled (c :: word) = doubled [c] ++ doubled word := by simp [doubled]
      rw [split, List.length_append] at fits
      have later : (lexical ++ doubled [c]).length + (doubled word).length < argStorage := by
        rw [List.length_append]
        omega
      rw [List.flatMap_cons, List.append_assoc, scanWord_execByte (by omega), ih _ _ later, split,
        List.append_assoc]
  have opened : scanWord { lexical } (execWord word ++ rest) =
      scanWord { quote := some 34, saw := true, lexical }
        (word.flatMap execByte ++ 34 :: rest) := by
    rw [execWord, List.cons_append, List.append_assoc, scanWord.eq_def]
    simp [isSpace]
  rw [opened]
  exact inside word lexical true fits

def spacedLine (words : List (List UInt8)) : List UInt8 :=
  words.flatMap fun word => 32 :: execWord word

theorem execLine_cons (word : List UInt8) (words : List (List UInt8)) :
    execLine (word :: words) = execWord word ++ spacedLine words := by
  unfold execLine spacedLine
  induction words generalizing word with
  | nil => simp
  | cons next words ih =>
    rw [List.map_cons, List.map_cons, List.intercalate_cons_cons, ← List.map_cons, ih next]
    simp

theorem isSpace_head_spacedLine (words : List (List UInt8)) :
    ∀ c ∈ (spacedLine words).head?, isSpace c = true := by
  cases words with
  | nil => exact fun _ => nofun
  | cons word words =>
    intro c first
    obtain rfl := Option.some.inj first
    rfl

theorem zero_notMem_doubled {word : List UInt8} (terminated : 0 ∉ word) : 0 ∉ doubled word := by
  unfold doubled
  intro member
  obtain ⟨c, inside, twice⟩ := List.mem_flatMap.mp member
  split at twice
  · revert twice
    decide
  · exact terminated (List.mem_singleton.mp twice ▸ inside)

theorem scanTokens_spacedLine {fuel : Nat} {t : Tokens} {done words : List (List UInt8)}
    (terminated : ∀ word ∈ words, 0 ∉ word) (packs : Packs t.lexical t.starts done)
    (few : t.starts.length + words.length < argMax)
    (fits : t.lexical.length + packedLength (words.map doubled) < argStorage)
    (enough : words.length ≤ fuel) :
    ∃ t', scanTokens fuel t (spacedLine words) = .ok t' ∧
      Packs t'.lexical t'.starts (done ++ words.map doubled) := by
  -- The induction is on the words, each of which is read in one round.
  induction words generalizing fuel t done with
  | nil =>
    refine ⟨t, ?_, by simpa using packs⟩
    cases fuel <;> simp [spacedLine, scanTokens]
  | cons word words ih =>
    have line : spacedLine (word :: words) = 32 :: (execWord word ++ spacedLine words) := rfl
    have room : packedLength ((word :: words).map doubled) =
        (doubled word).length + 1 + packedLength (words.map doubled) := rfl
    rw [room] at fits
    rw [List.length_cons] at few enough
    obtain ⟨fuel, rfl⟩ : ∃ k, fuel = k + 1 := ⟨fuel - 1, by omega⟩
    have scanned : scanWord { lexical := t.lexical } (execWord word ++ spacedLine words) =
        .ok ({ saw := true, lexical := t.lexical ++ doubled word }, spacedLine words) :=
      scanWord_execWord (by omega) (isSpace_head_spacedLine words)
    have ended : appendChar argStorage (t.lexical ++ doubled word) 0 =
        some (t.lexical ++ (doubled word ++ [0])) := by
      rw [appendChar, if_neg (by rw [List.length_append]; omega), List.append_assoc]
    have round : scanTokens (fuel + 1) t (spacedLine (word :: words)) =
        scanTokens fuel
          { starts := t.starts ++ [t.lexical.length]
            lexical := t.lexical ++ (doubled word ++ [0]) }
          (spacedLine words) := by
      -- The space in front of a word is skipped.
      have skipped : (32 :: (execWord word ++ spacedLine words)).dropWhile isSpace =
          execWord word ++ spacedLine words := rfl
      rw [scanTokens, line, skipped]
      generalize execWord word ++ spacedLine words = input at scanned
      cases input with
      | nil => simp [scanWord] at scanned
      | cons c input =>
        dsimp only
        rw [if_neg (by omega), scanned]
        simp [ended]
    rw [round]
    have later := packs.push (zero_notMem_doubled (terminated word (.head _)))
    have few' : (t.starts ++ [t.lexical.length]).length + words.length < argMax := by
      rw [List.length_append, List.length_singleton]
      omega
    have fits' : (t.lexical ++ (doubled word ++ [0])).length + packedLength (words.map doubled) <
        argStorage := by
      simp only [List.length_append, List.length_singleton]
      omega
    obtain ⟨t', read, all⟩ := ih (t := ⟨_, _⟩) (fun word member => terminated word (.tail _ member))
      later few' fits' (Nat.le_of_succ_le_succ enough)
    exact ⟨t', read, by simpa using all⟩

theorem packedLength_doubled (words : List (List UInt8)) :
    packedLength (words.map doubled) ≤ (spacedLine words).length := by
  have each : ∀ word, (doubled word).length ≤ (word.flatMap execByte).length := by
    intro word
    induction word with
    | nil => exact Nat.le_refl _
    | cons c word ih =>
      have one : (if c = 37 then [37, 37] else [c]).length ≤ (execByte c).length := by
        unfold execByte
        split
        · exact Nat.le_refl _
        · split <;> simp
      unfold doubled at ih ⊢
      simp only [List.flatMap_cons, List.length_append]
      omega
  induction words with
  | nil => exact Nat.le_refl _
  | cons word words ih =>
    have room : packedLength ((word :: words).map doubled) =
        (doubled word).length + 1 + packedLength (words.map doubled) := rfl
    have long : (spacedLine (word :: words)).length =
        (word.flatMap execByte).length + 2 + (spacedLine words).length + 1 := by
      simp [spacedLine, execWord]
      omega
    have first := each word
    omega

/-- A quoted line of words is read back as these words, with percent signs doubled. -/
theorem lexExec_execLine (terminated : ∀ word ∈ words, 0 ∉ word) (some : words ≠ [])
    (few : words.length < argMax) (fits : (execLine words).length < 2048) :
    lexExec (execLine words) = .ok (words.map doubled) := by
  obtain ⟨word, words, rfl⟩ := List.exists_cons_of_ne_nil some
  -- A space in front of the first word is skipped like those in front of the others.
  have spaced : spacedLine (word :: words) = 32 :: execLine (word :: words) := by
    rw [execLine_cons]
    rfl
  have long : (spacedLine (word :: words)).length = (execLine (word :: words)).length + 1 := by
    rw [spaced, List.length_cons]
  have room := packedLength_doubled (word :: words)
  have rounds : (word :: words).length + 1 ≤ (spacedLine (word :: words)).length := by
    have each : ∀ words : List (List UInt8), words.length ≤ (spacedLine words).length := by
      intro words
      induction words with
      | nil => exact Nat.le_refl _
      | cons word words ih =>
        change words.length + 1 ≤ (32 :: (execWord word ++ spacedLine words)).length
        simp
        omega
    have later := each words
    change words.length + 1 + 1 ≤ (32 :: 34 :: (word.flatMap execByte ++ [34] ++
      spacedLine words)).length
    simp
    omega
  have positive : 0 < (word :: words).length := Nat.zero_lt_succ _
  have size : argStorage = 8192 := rfl
  obtain ⟨fuel, fuelled⟩ : ∃ k, (execLine (word :: words)).length = k + 1 :=
    ⟨(execLine (word :: words)).length - 1, by omega⟩
  obtain ⟨t, read, packs⟩ := scanTokens_spacedLine (t := {}) terminated (.nil _)
    (by simpa using few) (by simp only [List.length_nil]; omega)
    (by omega : (word :: words).length ≤ fuel + 1)
  have skipped : scanTokens (fuel + 1) {} (spacedLine (word :: words)) =
      scanTokens (fuel + 1) {} (execLine (word :: words)) := by
    rw [spaced]
    rfl
  unfold lexExec
  rw [fuelled, ← skipped, read]
  exact congrArg Except.ok (by simpa using packs.read)

theorem expandChar_of_fits {storage : List UInt8} (fits : storage.length + 1 < storageLen)
    (c : UInt8) :
    expandChar storageLen storage c = .ok (storage ++ [c]) := by
  rw [expandChar, appendChar, if_neg (by omega)]

theorem expandToken_doubled (entry : DesktopEntry) {had : Bool} {storage word : List UInt8}
    (fits : storage.length + word.length < storageLen) :
    expandToken entry storageLen had storage (doubled word) =
      .ok (had || word ≠ [], storage ++ word) := by
  induction word generalizing had storage with
  | nil => simp [doubled, expandToken]
  | cons c word ih =>
    rw [List.length_cons] at fits
    have first : storage.length + 1 < storageLen := by omega
    have later : (storage ++ [c]).length + word.length < storageLen := by
      rw [List.length_append, List.length_singleton]
      omega
    have one : expandToken entry storageLen had storage (doubled (c :: word)) =
        expandToken entry storageLen true (storage ++ [c]) (doubled word) := by
      by_cases marker : c = 37
      · subst marker
        change expandToken entry storageLen had storage (37 :: 37 :: doubled word) = _
        simp [expandToken, expandChar_of_fits first, Bind.bind, Except.bind]
      · have literal : doubled (c :: word) = c :: doubled word := by
          simp [doubled, marker]
        rw [literal, expandToken.eq_def]
        simp [marker, expandChar_of_fits first, Bind.bind, Except.bind]
    rw [one, ih later]
    simp

theorem expandAll_doubled (entry : DesktopEntry) {args : Arguments} {done words : List (List UInt8)}
    (terminated : ∀ word ∈ words, 0 ∉ word) (packs : Packs args.storage args.argv done)
    (few : args.argv.length + words.length < argvLen)
    (fits : args.storage.length + packedLength words < storageLen) :
    ∃ args', expandAll entry argvLen storageLen args (words.map doubled) = .ok args' ∧
      Packs args'.storage args'.argv (done ++ words.filter (· ≠ [])) := by
  -- The induction is on the words, each of which is at most one argument.
  induction words generalizing args done with
  | nil => exact ⟨args, rfl, by simpa using packs⟩
  | cons word words ih =>
    have room : packedLength (word :: words) = word.length + 1 + packedLength words := rfl
    rw [room] at fits
    rw [List.length_cons] at few
    have later := fun word member => terminated word (.tail _ member)
    have icon : doubled word ≠ ascii "%i" := by
      intro same
      cases word with
      | nil => cases same
      | cons c word =>
        by_cases marker : c = 37
        · subst marker
          cases same
        · have literal : doubled (c :: word) = c :: doubled word := by
            simp [doubled, marker]
          rw [literal] at same
          exact marker (List.cons.inj same).1
    have text : expandToken entry storageLen false args.storage (doubled word) =
        .ok (false || word ≠ [], args.storage ++ word) := expandToken_doubled entry (by omega)
    by_cases nothing : word = []
    · subst nothing
      have one : expand entry argvLen storageLen args (doubled []) = .ok args := by
        rw [expand, if_neg icon, if_neg (by omega), text]
        simp [Bind.bind, Except.bind]
      obtain ⟨args', all, packs'⟩ := ih later packs (by omega) (by omega)
      refine ⟨args', ?_, by simpa using packs'⟩
      rw [List.map_cons, expandAll, one]
      exact all
    · have ended : expandChar storageLen (args.storage ++ word) 0 =
          .ok (args.storage ++ (word ++ [0])) := by
        rw [expandChar_of_fits (by rw [List.length_append]; omega), List.append_assoc]
      have one : expand entry argvLen storageLen args (doubled word) =
          .ok { argv := args.argv ++ [args.storage.length]
                storage := args.storage ++ (word ++ [0]) } := by
        rw [expand, if_neg icon, if_neg (by omega), text]
        simp [nothing, ended, Bind.bind, Except.bind]
      have few' : (args.argv ++ [args.storage.length]).length + words.length < argvLen := by
        rw [List.length_append, List.length_singleton]
        omega
      have fits' : (args.storage ++ (word ++ [0])).length + packedLength words < storageLen := by
        simp only [List.length_append, List.length_singleton]
        omega
      have packed := packs.push (terminated word (.head _))
      obtain ⟨args', all, packs'⟩ := @ih ⟨_, _⟩ _ later packed few' fits'
      refine ⟨args', ?_, by simpa [nothing] using packs'⟩
      rw [List.map_cons, expandAll, one]
      exact all

theorem desktopEntryArgv_execLine (terminated : ∀ word ∈ words, 0 ∉ word)
    (command : words.headD [] ≠ []) (exec : entry.exec.bytes = execLine words)
    (few : words.length < argMax) (argvFits : words.length < argvLen)
    (storageFits : packedLength words < storageLen) :
    desktopEntryArgv entry argvLen storageLen = .ok (words.filter (· ≠ [])) := by
  obtain ⟨word, words, rfl⟩ : ∃ word rest, words = word :: rest := by
    cases words with
    | nil => exact absurd rfl command
    | cons word rest => exact ⟨word, rest, rfl⟩
  have nonempty : word ≠ [] := command
  have long : packedLength (word :: words) = word.length + 1 + packedLength words := rfl
  have positive := List.length_pos_iff.mpr nonempty
  have lexed := lexExec_execLine terminated nofun few (exec ▸ entry.exec.fits)
  have start : Packs ({} : Arguments).storage ({} : Arguments).argv [] := .nil _
  obtain ⟨args, all, packs⟩ := expandAll_doubled entry terminated start
    (by simpa using argvFits) (by simpa using storageFits)
  have first : ((word :: words).filter (· ≠ [])).headD [] ≠ [] := by
    simp [nonempty]
  rw [List.length_cons] at argvFits
  rw [desktopEntryArgv, if_neg (by omega), exec, lexed]
  change (do
    let args ← expandAll entry argvLen storageLen {} ((word :: words).map doubled)
    _) = _
  rw [all]
  have read := packs.read
  rw [List.nil_append] at read
  change (if (args.argv.map (cString args.storage)).headD [] = [] then _ else
    Except.ok (args.argv.map (cString args.storage))) = _
  rw [read, if_neg first]

/--
A command line keeps the words it was written from exactly if none of them is empty.

The words are written between double quotation marks, with what is special there behind a backslash
and with markers of field codes doubled. They fit the buffers with room for one more terminator.
-/
theorem desktopEntryArgv_execLine_iff {entry : DesktopEntry} {argvLen storageLen : Nat}
    {words : List (List UInt8)} (terminated : ∀ word ∈ words, 0 ∉ word)
    (command : words.headD [] ≠ []) (exec : entry.exec.bytes = execLine words)
    (few : words.length < argMax) (argvFits : words.length < argvLen)
    (storageFits : packedLength words < storageLen) :
    desktopEntryArgv entry argvLen storageLen = .ok words ↔ [] ∉ words := by
  rw [desktopEntryArgv_execLine terminated command exec few argvFits storageFits, Except.ok.injEq,
    List.filter_eq_self]
  constructor
  · intro all member
    exact absurd (all [] member) (by decide)
  · intro absent word member
    have nonempty : word ≠ [] := fun nothing => absent (nothing ▸ member)
    simpa using nonempty

theorem desktopEntryArgv_execLine_iff_special :
    desktopEntryArgv
        (entryOf "\"edit\" \"a \\\"b\\\" 50%%\" \"\\$HOME\\\\\"" "Editor" "" "/a") 16 64 =
      .ok (["edit", "a \"b\" 50%", "$HOME\\"].map ascii) :=
  (desktopEntryArgv_execLine_iff (by decide +kernel) (by decide) (by decide +kernel)
    (by decide) (by decide) (by decide +kernel)).mpr (by decide)

/-- An empty word is lost. -/
theorem not_desktopEntryArgv_execLine :
    (entryOf "\"edit\" \"\" \"a\"" "Editor" "" "/a").exec.bytes =
        execLine (["edit", "", "a"].map ascii) ∧
      desktopEntryArgv (entryOf "\"edit\" \"\" \"a\"" "Editor" "" "/a") 16 64 ≠
        .ok (["edit", "", "a"].map ascii) := by
  decide +kernel

end Xios
