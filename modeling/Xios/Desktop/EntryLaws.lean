import Xios.Desktop.Entry

/-! What a desktop entry is read as, line by line and key by key. -/

namespace Xios

open CText

def lineText (raw : List UInt8) : List UInt8 :=
  trim (cString raw 0)

def endsGroup (text : List UInt8) : Bool :=
  text.head? = some 91 && text ≠ entryHeader

/-- The lines from the header of the entry's group on, up to the header of another group. -/
def groupTexts (texts : List (List UInt8)) : List (List UInt8) :=
  (texts.dropWhile (· ≠ entryHeader)).takeWhile (!endsGroup ·)

def keyValue (text : List UInt8) : Option (List UInt8 × List UInt8) :=
  if text.head? = some 35 ∨ text.head? = some 91 ∨ 61 ∉ text then none
  else some (text.takeWhile (· ≠ 61), (text.dropWhile (· ≠ 61)).drop 1)

def valuesOf (key : String) (texts : List (List UInt8)) : List (List UInt8) :=
  texts.filterMap fun text =>
    (keyValue text).bind fun (k, val) => if k = ascii key then some val else none

def lastValue (key : String) (texts : List (List UInt8)) : Option (List UInt8) :=
  (valuesOf key texts).getLast?

def firstValue (key : String) (texts : List (List UInt8)) : Option (List UInt8) :=
  (valuesOf key texts).find? (· ≠ [])

def entryTexts (content : List UInt8) : List (List UInt8) :=
  groupTexts ((content.splitOn 10).map lineText)

/-- An application that is shown and needs no terminal. -/
def Launchable (texts : List (List UInt8)) : Prop :=
  lastValue "Type" texts = some (ascii "Application") ∧
    (∀ key ∈ ["NoDisplay", "Hidden", "Terminal"], ∀ val ∈ lastValue key texts, ¬saysTrue val) ∧
    (firstValue "Exec" texts).isSome

/-- The lines up to the header of the group behind the entry's. -/
def linesRead : Bool → List (List UInt8) → List (List UInt8)
  | _, [] => []
  | saw, raw :: raws =>
    if saw ∧ endsGroup (lineText raw) then [raw]
    else raw :: linesRead (saw || lineText raw = entryHeader) raws

/-- Whole lines are read one at a time, and values are not cut. -/
structure FitsEntry (content : List UInt8) : Prop where
  -- The buffer holds each line up to its end.
  lines : ∀ raw ∈ linesRead false (content.splitOn 10), raw.length < lineSize
  -- The fields hold the values that are taken.
  name : ∀ val ∈ firstValue "Name" (entryTexts content), val.length < 256
  exec : ∀ val ∈ firstValue "Exec" (entryTexts content), val.length < 2048
  icon : ∀ val ∈ firstValue "Icon" (entryTexts content), val.length < 512
  startup : ∀ val ∈ firstValue "StartupWMClass" (entryTexts content), val.length < 256

theorem takeLine_append {raw : List UInt8} (inside : 10 ∉ raw) (rest : List UInt8) {room : Nat}
    (fits : raw.length ≤ room) :
    takeLine room (raw ++ 10 :: rest) =
      if raw.length < room then (raw ++ [10], rest) else (raw, 10 :: rest) := by
  -- The induction is on the line, which uses up the room byte by byte.
  induction raw generalizing room with
  | nil =>
    cases room with
    | zero => rfl
    | succ room => simp [takeLine]
  | cons c raw ih =>
    obtain ⟨room, rfl⟩ : ∃ k, room = k + 1 := ⟨room - 1, by simp at fits; omega⟩
    rw [List.mem_cons, not_or] at inside
    have other : ¬c = 10 := fun same => inside.1 same.symm
    simp only [List.length_cons, Nat.add_le_add_iff_right] at fits
    simp only [List.cons_append, takeLine, if_neg other, ih inside.2 fits, List.length_cons,
      Nat.add_lt_add_iff_right]
    split <;> rfl

theorem takeLine_last {raw : List UInt8} (inside : 10 ∉ raw) {room : Nat}
    (fits : raw.length ≤ room) : takeLine room raw = (raw, []) := by
  induction raw generalizing room with
  | nil => cases room <;> rfl
  | cons c raw ih =>
    obtain ⟨room, rfl⟩ : ∃ k, room = k + 1 := ⟨room - 1, by simp at fits; omega⟩
    rw [List.mem_cons, not_or] at inside
    have other : ¬c = 10 := fun same => inside.1 same.symm
    simp only [List.length_cons, Nat.add_le_add_iff_right] at fits
    simp [takeLine, other, ih inside.2 fits]

theorem lineText_append_newline (raw : List UInt8) : lineText (raw ++ [10]) = lineText raw := by
  unfold lineText cString
  by_cases terminated : 0 ∈ raw
  · have same : (raw ++ [10]).takeWhile (· ≠ 0) = raw.takeWhile (· ≠ 0) := by
      rw [List.takeWhile_append, if_neg]
      intro whole
      have all := List.takeWhile_eq_self_iff.mp (List.IsPrefix.eq_of_length
        (List.takeWhile_prefix _) whole)
      simpa using all 0 terminated
    simp only [List.drop_zero, same]
  · have whole := takeWhile_of_terminated terminated
    have longer : (raw ++ [10]).takeWhile (· ≠ 0) = raw ++ [10] := by
      rw [List.takeWhile_append, whole, if_pos rfl]
      rfl
    simp only [List.drop_zero, whole, longer]
    unfold trim
    rw [List.dropWhile_append]
    split
    · rename_i blank
      rw [List.isEmpty_iff] at blank
      rw [blank]
      rfl
    · exact List.rdropWhile_concat_pos _ _ _ rfl

/-- Read lines one after the other, until nothing may be left to read. -/
def EntryReader.texts : EntryReader → List (List UInt8) → EntryReader
  | r, [] => r
  | r, text :: texts =>
    match r.line text with
    | none => r
    | some r' => r'.texts texts

@[simp]
theorem EntryReader.groups_set (r : EntryReader) (key val : List UInt8) :
    (r.set key val).inEntry = r.inEntry ∧ (r.set key val).sawEntry = r.sawEntry := by
  unfold EntryReader.set
  repeat' split
  all_goals exact ⟨rfl, rfl⟩

theorem EntryReader.line_eq (r : EntryReader) (text : List UInt8) :
    r.line text =
      if text = entryHeader then some { r with inEntry := true, sawEntry := true }
      else if endsGroup text then
        if r.sawEntry then none else some { r with inEntry := false }
      else if r.inEntry then some ((keyValue text).elim r fun (key, val) => r.set key val)
      else some r := by
  cases text with
  | nil => simp [line, entryHeader, ascii, endsGroup, keyValue]
  | cons c rest =>
    by_cases comment : c = 35
    · subst comment
      have other : 35 :: rest ≠ entryHeader := nofun
      simp [line, other, endsGroup, keyValue]
    · by_cases header : c = 91
      · subst header
        by_cases same : 91 :: rest = entryHeader
        · simp [line, same]
        · cases saw : r.sawEntry <;> simp [line, same, endsGroup, saw]
      · have other : c :: rest ≠ entryHeader := by
          rintro same
          exact header (List.cons.inj same).1
        cases h : r.inEntry with
        | false => simp [line, other, comment, header, endsGroup, h]
        | true =>
          by_cases key : 61 ∈ c :: rest
          · simp [line, other, comment, header, endsGroup, keyValue, h, key]
          · simp [line, other, comment, header, endsGroup, keyValue, h, key]

variable {r : EntryReader}

theorem EntryReader.sawEntry_of_line {r' : EntryReader} {text : List UInt8}
    (read : r.line text = some r') : r'.sawEntry = (r.sawEntry || text = entryHeader) := by
  rw [r.line_eq] at read
  split at read
  · rename_i header
    obtain rfl := Option.some.inj read
    simp [header]
  · rename_i other
    split at read
    · split at read
      · cases read
      · obtain rfl := Option.some.inj read
        simp [other]
    · split at read
      · obtain rfl := Option.some.inj read
        cases keyValue text <;> simp [other]
      · obtain rfl := Option.some.inj read
        simp [other]

theorem EntryReader.line_eq_none {text : List UInt8} :
    r.line text = none ↔ r.sawEntry = true ∧ endsGroup text = true := by
  rw [r.line_eq]
  by_cases header : text = entryHeader
  · simp [header, endsGroup]
  · by_cases ends : endsGroup text = true
    · cases saw : r.sawEntry <;> simp [header, ends]
    · cases entry : r.inEntry <;> simp [header, ends]

variable {content : List UInt8}

/-- While no line is too long, the buffer does not matter. -/
theorem EntryReader.lines_eq {fuel : Nat} (enough : content.length ≤ fuel)
    (fits : ∀ raw ∈ linesRead r.sawEntry (content.splitOn 10), raw.length < lineSize) :
    EntryReader.lines fuel r content = r.texts ((content.splitOn 10).map lineText) := by
  -- The induction is on the contents, line by line.
  induction size : content.length using Nat.strongRecOn generalizing r content fuel with
  | ind n ih =>
    by_cases ended : 10 ∈ content
    · obtain ⟨raw, rest, rfl, inside⟩ := List.eq_append_cons_of_mem ended
      rw [List.splitOn_append_cons_self_of_not_mem inside] at fits ⊢
      have first : raw.length < lineSize := by
        apply fits
        unfold linesRead
        split <;> exact .head _
      have long : (raw ++ 10 :: rest).length = raw.length + rest.length + 1 := by simp; omega
      obtain ⟨fuel, rfl⟩ : ∃ k, fuel = k + 1 := ⟨fuel - 1, by omega⟩
      -- A line as long as the buffer leaves its end behind as a line of its own.
      have read : EntryReader.lines (fuel + 1) r (raw ++ 10 :: rest) =
          match r.line (lineText raw) with
          | none => r
          | some r' =>
            if raw.length < lineSize - 1 then r'.lines fuel rest
            else r'.lines fuel (10 :: rest) := by
        rw [EntryReader.lines, fgets, if_neg (by simp),
          takeLine_append inside rest (by omega : raw.length ≤ lineSize - 1)]
        by_cases shorter : raw.length < lineSize - 1
        · simp only [if_pos shorter]
          exact congrArg (fun text => match r.line text with
            | none => r
            | some r' => r'.lines fuel rest) (lineText_append_newline raw)
        · simp only [if_neg shorter]
          rfl
      rw [read, List.map_cons, EntryReader.texts]
      cases took : r.line (lineText raw) with
      | none => rfl
      | some r' =>
        have later : ∀ raw ∈ linesRead r'.sawEntry (rest.splitOn 10), raw.length < lineSize := by
          intro other member
          apply fits
          rw [linesRead, if_neg, ← EntryReader.sawEntry_of_line took]
          · exact .tail _ member
          · intro ends
            rw [EntryReader.line_eq_none.mpr ends] at took
            cases took
        simp only
        split
        · exact ih _ (by omega) (by omega) later rfl
        · have room : lineSize = 4096 := rfl
          obtain ⟨fuel, rfl⟩ : ∃ k, fuel = k + 1 := ⟨fuel - 1, by omega⟩
          have blank : EntryReader.lines (fuel + 1) r' (10 :: rest) = r'.lines fuel rest := rfl
          rw [blank]
          exact ih _ (by omega) (by omega) later rfl
    · rw [List.splitOn_eq_singleton ended] at fits ⊢
      have first : content.length < lineSize := by
        apply fits
        unfold linesRead
        split <;> exact .head _
      by_cases empty : content = []
      · subst empty
        cases fuel <;> rfl
      · have positive := List.length_pos_iff.mpr empty
        obtain ⟨fuel, rfl⟩ : ∃ k, fuel = k + 1 := ⟨fuel - 1, by omega⟩
        rw [EntryReader.lines, fgets, if_neg empty,
          takeLine_last ended (by omega : content.length ≤ lineSize - 1)]
        simp only [List.map_cons, List.map_nil, EntryReader.texts]
        rw [show trim (cString content 0) = lineText content from rfl]
        cases r.line (lineText content) with
        | none => rfl
        | some r' => cases fuel <;> rfl

/-- Take over what a line of the entry's group says. -/
def EntryReader.take (r : EntryReader) (text : List UInt8) : EntryReader :=
  (keyValue text).elim r fun (key, val) => r.set key val

theorem keyValue_entryHeader : keyValue entryHeader = none :=
  rfl

theorem EntryReader.texts_inside (inEntry : r.inEntry = true) (sawEntry : r.sawEntry = true)
    (texts : List (List UInt8)) :
    r.texts texts = (texts.takeWhile (!endsGroup ·)).foldl EntryReader.take r := by
  induction texts generalizing r with
  | nil => rfl
  | cons text texts ih =>
    have read := r.line_eq text
    rw [EntryReader.texts]
    by_cases header : text = entryHeader
    · have same : { r with inEntry := true, sawEntry := true } = r := by
        cases r
        cases inEntry
        cases sawEntry
        rfl
      rw [if_pos header, same] at read
      rw [read, header, List.takeWhile_cons_of_pos (by decide), List.foldl_cons, EntryReader.take,
        keyValue_entryHeader]
      exact ih inEntry sawEntry
    · rw [if_neg header] at read
      cases ends : endsGroup text with
      | true =>
        rw [ends, if_pos rfl, sawEntry, if_pos rfl] at read
        rw [read, List.takeWhile_cons_of_neg (by simp [ends])]
        rfl
      | false =>
        rw [ends, if_neg Bool.false_ne_true, inEntry, if_pos rfl] at read
        rw [read, List.takeWhile_cons_of_pos (by simp [ends]), List.foldl_cons]
        -- A key does not lead out of the group.
        refine ih ?_ ?_
        · cases keyValue text <;> simp [inEntry]
        · cases keyValue text <;> simp [sawEntry]

theorem EntryReader.texts_outside (inEntry : r.inEntry = false) (sawEntry : r.sawEntry = false)
    (texts : List (List UInt8)) : r.texts texts = r.texts (texts.dropWhile (· ≠ entryHeader)) := by
  induction texts with
  | nil => rfl
  | cons text texts ih =>
    by_cases header : text = entryHeader
    · rw [List.dropWhile_cons_of_neg (by simpa using header)]
    · have same : { r with inEntry := false, sawEntry := false } = r := by
        cases r
        cases inEntry
        cases sawEntry
        rfl
      have read : r.line text = some r := by
        rw [r.line_eq, if_neg header, inEntry, sawEntry, same]
        simp
      rw [List.dropWhile_cons_of_pos (by simpa using header), EntryReader.texts, read]
      exact ih

theorem EntryReader.texts_eq (texts : List (List UInt8)) :
    ∃ seen, EntryReader.texts {} texts =
      (groupTexts texts).foldl EntryReader.take { inEntry := seen, sawEntry := seen } := by
  rw [EntryReader.texts_outside rfl rfl, groupTexts]
  cases behind : texts.dropWhile (· ≠ entryHeader) with
  | nil => exact ⟨false, rfl⟩
  | cons text rest =>
    have header : text = entryHeader := by
      have stopped := List.head?_dropWhile_not (· ≠ entryHeader) texts
      rw [behind] at stopped
      simpa using stopped
    refine ⟨true, ?_⟩
    have read : EntryReader.line {} text = some { inEntry := true, sawEntry := true } := by
      rw [EntryReader.line_eq, if_pos header]
    rw [EntryReader.texts, read, header, List.takeWhile_cons_of_pos (by decide), List.foldl_cons,
      EntryReader.take, keyValue_entryHeader]
    exact EntryReader.texts_inside rfl rfl rest

theorem EntryReader.foldl_take {α : Type} (field : EntryReader → α) (key : String)
    (put : α → List UInt8 → α)
    (sets : ∀ (r : EntryReader) k val,
      field (r.set k val) = if k = ascii key then put (field r) val else field r)
    (r : EntryReader) (texts : List (List UInt8)) :
    field (texts.foldl EntryReader.take r) = (valuesOf key texts).foldl put (field r) := by
  induction texts generalizing r with
  | nil => rfl
  | cons text texts ih =>
    unfold valuesOf at ih ⊢
    rw [List.foldl_cons, ih, EntryReader.take, List.filterMap_cons]
    cases found : keyValue text with
    | none => rfl
    | some pair =>
      obtain ⟨k, val⟩ := pair
      simp only [Option.elim_some, Option.bind_some, sets]
      split <;> rfl

theorem keys_differ :
    (["Type", "NoDisplay", "Hidden", "Terminal", "Name", "Exec", "Icon", "StartupWMClass",
      "X-Xios-RawTouch"].map ascii).Nodup := by
  decide

/-- The last value of a key is kept where values replace each other. -/
def putLast {size : Nat} [NeZero size] (_ : Field size) (val : List UInt8) : Field size :=
  .print val

/-- The first value of a key that is not empty is kept where it is not replaced. -/
def putFirst {size : Nat} [NeZero size] (field : Field size) (val : List UInt8) : Field size :=
  if field.bytes = [] then .print val else field

theorem EntryReader.set_last (r : EntryReader) (k val : List UInt8) :
    (r.set k val).type = (if k = ascii "Type" then putLast r.type val else r.type) ∧
      (r.set k val).nodisplay =
        (if k = ascii "NoDisplay" then putLast r.nodisplay val else r.nodisplay) ∧
      (r.set k val).hidden = (if k = ascii "Hidden" then putLast r.hidden val else r.hidden) ∧
      (r.set k val).terminal =
        (if k = ascii "Terminal" then putLast r.terminal val else r.terminal) := by
  have differ := keys_differ
  simp only [List.map_cons, List.map_nil, List.nodup_cons, List.mem_cons, List.not_mem_nil]
    at differ
  unfold EntryReader.set putLast
  grind

theorem EntryReader.set_first (r : EntryReader) (k val : List UInt8) :
    (r.set k val).name = (if k = ascii "Name" then putFirst r.name val else r.name) ∧
      (r.set k val).exec = (if k = ascii "Exec" then putFirst r.exec val else r.exec) ∧
      (r.set k val).icon = (if k = ascii "Icon" then putFirst r.icon val else r.icon) ∧
      (r.set k val).startup =
        (if k = ascii "StartupWMClass" then putFirst r.startup val else r.startup) := by
  have differ := keys_differ
  simp only [List.map_cons, List.map_nil, List.nodup_cons, List.mem_cons, List.not_mem_nil]
    at differ
  unfold EntryReader.set putFirst
  grind

variable {size : Nat}

theorem foldl_putLast [NeZero size] (field : Field size) (vals : List (List UInt8)) :
    vals.foldl putLast field = vals.getLast?.elim field .print := by
  induction vals using List.reverseRecOn with
  | nil => rfl
  | append_singleton vals val _ => simp [putLast]

theorem foldl_putFirst [NeZero size] (room : 1 < size) {field : Field size}
    (empty : field.bytes = []) {vals : List (List UInt8)} (terminated : ∀ val ∈ vals, 0 ∉ val) :
    (vals.foldl putFirst field).bytes =
      (vals.find? (· ≠ [])).elim [] fun val => (Field.print val : Field size).bytes := by
  -- The induction is on the values, of which the empty ones leave the field empty.
  induction vals generalizing field with
  | nil => exact empty
  | cons val vals ih =>
    have later := fun val member => terminated val (.tail _ member)
    rw [List.foldl_cons, putFirst, if_pos empty]
    by_cases nothing : val = []
    · rw [List.find?_cons_of_neg (by simpa using nothing)]
      exact ih ((Field.bytes_print_eq_nil room (terminated val (.head _))).mpr nothing) later
    · rw [List.find?_cons_of_pos (by simpa using nothing)]
      have full : (Field.print val : Field size).bytes ≠ [] :=
        fun none => nothing ((Field.bytes_print_eq_nil room (terminated val (.head _))).mp none)
      have kept : ∀ vals : List (List UInt8), vals.foldl putFirst (Field.print val : Field size) =
          .print val := by
        intro vals
        induction vals with
        | nil => rfl
        | cons other vals ih => rwa [List.foldl_cons, putFirst, if_neg full]
      rw [kept]
      rfl

theorem zero_notMem_valuesOf {key : String} :
    ∀ val ∈ valuesOf key (entryTexts content), 0 ∉ val := by
  intro val member
  obtain ⟨text, line, found⟩ := List.mem_filterMap.mp member
  obtain ⟨⟨k, val'⟩, pair, same⟩ := Option.bind_eq_some_iff.mp found
  have inText : ∀ c ∈ val, c ∈ text := by
    unfold keyValue at pair
    split at pair
    · cases pair
    · obtain ⟨rfl, rfl⟩ := Prod.mk.inj (Option.some.inj pair)
      dsimp only at same
      split at same
      · obtain rfl := Option.some.inj same
        intro c inside
        exact (List.dropWhile_sublist _).subset (List.mem_of_mem_drop inside)
      · cases same
  have terminated : 0 ∉ text := by
    have listed := (List.dropWhile_sublist _).subset ((List.takeWhile_sublist _).subset line)
    obtain ⟨raw, -, rfl⟩ := List.mem_map.mp listed
    intro zero
    have untrimmed := (List.dropWhile_sublist _).subset ((List.rdropWhile_prefix _ _).subset zero)
    exact zero_notMem_takeWhile _ untrimmed
  exact fun zero => terminated (inText 0 zero)

theorem last_iff [NeZero size] (key : String) (content : List UInt8) (holds : List UInt8 → Prop)
    (short : ∀ val, holds val → val.length + 1 < size) (nonempty : ¬holds []) :
    holds ((valuesOf key (entryTexts content)).foldl putLast (.print [] : Field size)).bytes ↔
      ∃ val ∈ lastValue key (entryTexts content), holds val := by
  rw [foldl_putLast, lastValue]
  cases last : (valuesOf key (entryTexts content)).getLast? with
  | none =>
    have nothing : ¬holds (.print [] : Field size).bytes := by
      simpa [Field.print] using nonempty
    simpa using nothing
  | some val =>
    have terminated := zero_notMem_valuesOf val (List.mem_of_getLast? last)
    simpa using Field.print_iff terminated short

theorem first_eq [NeZero size] (room : 1 < size) (key : String) (content : List UInt8)
    (fits : ∀ val ∈ firstValue key (entryTexts content), val.length < size) :
    ((valuesOf key (entryTexts content)).foldl putFirst (.print [] : Field size)).bytes =
      (firstValue key (entryTexts content)).getD [] := by
  have empty : (.print [] : Field size).bytes = [] := by simp [Field.print]
  rw [foldl_putFirst room empty zero_notMem_valuesOf]
  unfold firstValue at fits ⊢
  cases first : (valuesOf key (entryTexts content)).find? (· ≠ []) with
  | none => rfl
  | some val =>
    have terminated := zero_notMem_valuesOf val (List.mem_of_find?_eq_some first)
    exact Field.bytes_print_of_fits terminated (fits val first)

theorem firstValue_ne_nil {key : String} {texts : List (List UInt8)} {val : List UInt8}
    (first : firstValue key texts = some val) : val ≠ [] := by
  simpa using List.find?_some first

theorem length_of_saysTrue {val : List UInt8} (yes : saysTrue val = true) : val.length = 4 := by
  have same := congrArg List.length (of_decide_eq_true yes)
  rwa [List.length_map] at same

theorem lines_spec (fits : FitsEntry content) : let r := EntryReader.lines content.length {} content
    let texts := entryTexts content
    (r.type.bytes = ascii "Application" ↔ lastValue "Type" texts = some (ascii "Application")) ∧
      (saysTrue r.nodisplay.bytes ↔ ∃ val ∈ lastValue "NoDisplay" texts, saysTrue val) ∧
      (saysTrue r.hidden.bytes ↔ ∃ val ∈ lastValue "Hidden" texts, saysTrue val) ∧
      (saysTrue r.terminal.bytes ↔ ∃ val ∈ lastValue "Terminal" texts, saysTrue val) ∧
      r.name.bytes = (firstValue "Name" texts).getD [] ∧
      r.exec.bytes = (firstValue "Exec" texts).getD [] ∧
      r.icon.bytes = (firstValue "Icon" texts).getD [] ∧
      r.startup.bytes = (firstValue "StartupWMClass" texts).getD [] := by
  have yes : ∀ val, saysTrue val = true → val.length + 1 < 16 := fun val yes => by
    rw [length_of_saysTrue yes]
    decide
  have no : ¬saysTrue [] = true := by decide
  obtain ⟨seen, taken⟩ := EntryReader.texts_eq ((content.splitOn 10).map lineText)
  rw [EntryReader.lines_eq (Nat.le_refl _) fits.lines, taken]
  refine ⟨?_, ?_, ?_, ?_, ?_, ?_, ?_, ?_⟩
  · have short : ∀ val, val = ascii "Application" → val.length + 1 < 64 := by
      rintro val rfl
      decide
    rw [EntryReader.foldl_take _ "Type" putLast fun r k val => (r.set_last k val).1]
    refine (last_iff "Type" content (· = ascii "Application") short (by decide)).trans ?_
    simp
  · rw [EntryReader.foldl_take _ "NoDisplay" putLast fun r k val => (r.set_last k val).2.1]
    exact last_iff "NoDisplay" content (saysTrue ·) yes no
  · rw [EntryReader.foldl_take _ "Hidden" putLast fun r k val => (r.set_last k val).2.2.1]
    exact last_iff "Hidden" content (saysTrue ·) yes no
  · rw [EntryReader.foldl_take _ "Terminal" putLast fun r k val => (r.set_last k val).2.2.2]
    exact last_iff "Terminal" content (saysTrue ·) yes no
  · rw [EntryReader.foldl_take _ "Name" putFirst fun r k val => (r.set_first k val).1]
    exact first_eq (by decide) "Name" content fits.name
  · rw [EntryReader.foldl_take _ "Exec" putFirst fun r k val => (r.set_first k val).2.1]
    exact first_eq (by decide) "Exec" content fits.exec
  · rw [EntryReader.foldl_take _ "Icon" putFirst fun r k val => (r.set_first k val).2.2.1]
    exact first_eq (by decide) "Icon" content fits.icon
  · rw [EntryReader.foldl_take _ "StartupWMClass" putFirst fun r k val => (r.set_first k val).2.2.2]
    exact first_eq (by decide) "StartupWMClass" content fits.startup

def fileBase (path : List UInt8) : List UInt8 :=
  (Field.print (pathBase path) : Field 256).bytes

def appIdOf (path : List UInt8) (texts : List (List UInt8)) : List UInt8 :=
  (firstValue "StartupWMClass" texts).getD (dropDesktop (fileBase path))

theorem launchable_iff (fits : FitsEntry content) :
    let r := EntryReader.lines content.length {} content
    (r.type.bytes ≠ ascii "Application" ∨ saysTrue r.nodisplay.bytes ∨ saysTrue r.hidden.bytes ∨
      saysTrue r.terminal.bytes ∨ r.exec.bytes = []) ↔ ¬Launchable (entryTexts content) := by
  obtain ⟨type, nodisplay, hidden, terminal, -, exec, -, -⟩ := lines_spec fits
  dsimp only
  rw [Ne, type, nodisplay, hidden, terminal, exec]
  have absent : (firstValue "Exec" (entryTexts content)).getD [] = [] ↔
      ¬(firstValue "Exec" (entryTexts content)).isSome := by
    cases first : firstValue "Exec" (entryTexts content) with
    | none => simp
    | some val => simpa using firstValue_ne_nil first
  rw [absent]
  unfold Launchable
  simp only [List.forall_mem_cons, List.not_mem_nil]
  grind

theorem appId_eq (path : List UInt8) (fits : FitsEntry content) :
    let r := EntryReader.lines content.length {} content
    (r.chosenAppId (.print (pathBase path))).bytes = appIdOf path (entryTexts content) := by
  obtain ⟨-, -, -, -, -, -, -, startup⟩ := lines_spec fits
  unfold appIdOf EntryReader.chosenAppId
  change (if _ then _ else (Field.print (dropDesktop (fileBase path)) : Field 256)).bytes = _
  cases first : firstValue "StartupWMClass" (entryTexts content) with
  | none =>
    rw [first] at startup
    have base : (dropDesktop (fileBase path)) <:+: fileBase path := by
      unfold dropDesktop
      split
      · exact (List.take_prefix _ _).isInfix
      · exact List.infix_rfl
    have terminated : 0 ∉ dropDesktop (fileBase path) :=
      fun zero => Field.terminated _ (base.subset zero)
    have short := base.length_le.trans_lt (Field.fits _)
    rw [if_neg (by simpa using startup)]
    exact Field.bytes_print_of_fits terminated short
  | some val =>
    rw [first, Option.getD_some] at startup
    rw [if_pos (by rw [startup]; exact firstValue_ne_nil first), Option.getD_some, ← startup]
    exact Field.bytes_print_of_fits (Field.terminated _) (Field.fits _)

/--
A desktop entry is read as its lines and keys say.

A file is taken for an application exactly if the last values of its keys make it launchable, it is
not among the files that are denied, and what it is for is a valid name of an application. What is
kept then are the first values of its keys that are not empty.
-/
theorem desktopEntryParse_iff {fs : FileSystem} {path trustedRoot content : List UInt8}
    {requireTrusted : Bool}
    (opened : openDesktop fs path trustedRoot requireTrusted = .ok content)
    (fits : FitsEntry content) :
    ((∃ entry, desktopEntryParse fs path trustedRoot requireTrusted = .ok entry) ↔
      Launchable (entryTexts content) ∧ deniedDesktop (fileBase path) = false ∧
        appIdValid (appIdOf path (entryTexts content)) = true) ∧
      ∀ entry, desktopEntryParse fs path trustedRoot requireTrusted = .ok entry →
        firstValue "Exec" (entryTexts content) = some entry.exec.bytes ∧
          entry.name.bytes = (firstValue "Name" (entryTexts content)).getD (fileBase path) ∧
          entry.icon.bytes = (firstValue "Icon" (entryTexts content)).getD [] ∧
          entry.appId.bytes = appIdOf path (entryTexts content) := by
  obtain ⟨-, -, -, -, name, exec, icon, -⟩ := lines_spec fits
  have launchable := launchable_iff fits
  have appId := appId_eq path fits
  unfold desktopEntryParse
  rw [opened]
  simp only
  unfold parseContent
  change ((∃ entry, (if deniedDesktop (fileBase path) then _ else _) = _) ↔ _) ∧
    ∀ entry, (if deniedDesktop (fileBase path) then _ else _) = _ → _
  cases deniedDesktop (fileBase path) with
  | true => simp
  | false =>
    rw [if_neg Bool.false_ne_true]
    dsimp only at launchable appId name exec icon ⊢
    generalize EntryReader.lines content.length {} content = r at *
    by_cases starts : Launchable (entryTexts content)
    · rw [if_neg fun failed => launchable.mp failed starts]
      rw [appId]
      cases appIdValid (appIdOf path (entryTexts content)) with
      | false => simp
      | true =>
        simp only [starts, Bool.not_true, Bool.false_eq_true, if_false, and_self, iff_true]
        refine ⟨⟨_, rfl⟩, fun entry same => ?_⟩
        obtain rfl := Except.ok.inj same
        refine ⟨?_, ?_, icon, appId⟩
        · obtain ⟨val, first⟩ := Option.isSome_iff_exists.mp starts.2.2
          rw [exec, first]
          rfl
        · -- Without a name the application is called by its file.
          cases first : firstValue "Name" (entryTexts content) with
          | none =>
            rw [first] at name
            rw [if_pos (by simpa using name)]
            exact Field.bytes_print_of_fits (Field.terminated _) (Field.fits _)
          | some val =>
            rw [first, Option.getD_some] at name
            rw [if_neg (by rw [name]; exact firstValue_ne_nil first), name]
            rfl
    · rw [if_pos (launchable.mpr starts)]
      simp [starts]

def everyFile (content : List UInt8) : FileSystem where
  fopen path := if pathMax ≤ path.length then .error "File name too long" else .ok content
  realpath _ := .error "No such file or directory"
  stat _ := none
  openNoFollow _ := .error "No such file or directory"
  readdir _ := none
  fopen_long _ long := ⟨_, if_pos long⟩
  realpath_long _ _ := ⟨_, rfl⟩
  names _ _ listed := nomatch listed

def entryContent (lines : List String) : List UInt8 :=
  ("[Desktop Entry]" :: lines).flatMap fun line => ascii line ++ [10]

def editorEntry : List UInt8 :=
  entryContent ["Type=Application", "Terminal=true", "Exec=", "Exec=edit %c", "Name=Editor",
    "Terminal=false", "StartupWMClass=org.edit", "[Desktop Action new]", "Type=Link"]

theorem desktopEntryParse_iff_editor :
    ∃ entry, desktopEntryParse (everyFile editorEntry) (ascii "/apps/edit.desktop") [] false =
      .ok entry ∧ entry.exec.bytes = ascii "edit %c" := by
  have opened : openDesktop (everyFile editorEntry) (ascii "/apps/edit.desktop") [] false =
      .ok editorEntry := by
    decide +kernel
  have fits : FitsEntry editorEntry := by
    constructor <;> decide +kernel
  obtain ⟨accepts, keeps⟩ := desktopEntryParse_iff opened fits
  obtain ⟨entry, parsed⟩ := accepts.mpr
    ⟨⟨by decide +kernel, by decide +kernel, by decide +kernel⟩, by decide +kernel,
      by decide +kernel⟩
  refine ⟨entry, parsed, ?_⟩
  have exec : firstValue "Exec" (entryTexts editorEntry) = some (ascii "edit %c") := by
    decide +kernel
  exact Option.some.inj ((keeps entry parsed).1.symm.trans exec)

/-- A file that describes an application to launch is not taken for one. -/
def Refuses (path : String) (content : List UInt8) : Prop :=
  openDesktop (everyFile content) (ascii path) [] false = .ok content ∧
    Launchable (entryTexts content) ∧
    ∀ entry, desktopEntryParse (everyFile content) (ascii path) [] false ≠ .ok entry

/-- Some files are denied, and some do not say what they are for. -/
theorem not_desktopEntryParse_iff :
    Refuses "/apps/org.gnome.Shell.desktop" (entryContent ["Type=Application", "Exec=shell"]) ∧
      Refuses "/apps/edit.desktop"
        (entryContent ["Type=Application", "Exec=edit", "StartupWMClass=an editor"]) := by
  have refuses : ∀ path content message,
      openDesktop (everyFile content) (ascii path) [] false = .ok content →
      lastValue "Type" (entryTexts content) = some (ascii "Application") →
      (∀ key ∈ ["NoDisplay", "Hidden", "Terminal"], lastValue key (entryTexts content) = none) →
      (firstValue "Exec" (entryTexts content)).isSome →
      desktopEntryParse (everyFile content) (ascii path) [] false = .error message →
      Refuses path content := by
    intro path content message opened type shown exec failed
    refine ⟨opened, ⟨type, fun key member val last => ?_, exec⟩, fun entry parsed => ?_⟩
    · rw [shown key member] at last
      cases last
    · rw [failed] at parsed
      cases parsed
  exact ⟨refuses _ _ _ (by decide +kernel) (by decide +kernel) (by decide +kernel)
      (by decide +kernel) rfl,
    refuses _ _ _ (by decide +kernel) (by decide +kernel) (by decide +kernel)
      (by decide +kernel) rfl⟩

end Xios
