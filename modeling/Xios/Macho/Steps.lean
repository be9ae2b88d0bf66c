import Xios.Macho.Image

/-! What the loops of `weaken_slice` do to a well-formed image. -/

namespace Xios

namespace MachoWeaken

open Words Patching

section

variable {en : Order} {pre post data : Bytes} {patches : List (Patch UInt8)}

variable {off width n : Nat}

theorem natAt_embed (pre post : Bytes) (found : natAt en data off width = some n) :
    natAt en (pre ++ data ++ post) (pre.length + off) width = some n := by
  unfold natAt at found ⊢
  rw [Option.map_eq_some_iff] at found ⊢
  obtain ⟨s, found, value⟩ := found
  exact ⟨s, read_embed found, value⟩

theorem natAt_shown (pre post : Bytes) (inside : ∀ patch ∈ patches, patch.Inside data.length)
    (clear : Clear patches off width) (found : natAt en data off width = some n) :
    natAt en (pre ++ patched data patches ++ post) (pre.length + off) width = some n := by
  apply natAt_embed
  unfold natAt at found ⊢
  rwa [read_patched inside clear]

theorem cstr_shown (pre post : Bytes) (inside : ∀ patch ∈ patches, patch.Inside data.length)
    {name : Bytes} (clear : Clear patches off (name.length + 1))
    (found : cstr data off = some name) :
    cstr (pre ++ patched data patches ++ post) (pre.length + off) = some name :=
  readUntil_embed (readUntil_patched inside found clear)

theorem put_shown (en : Order) (pre post : Bytes)
    (inside : ∀ patch ∈ patches, patch.Inside data.length) (within : off + width ≤ data.length)
    (n : Nat) :
    put en (pre ++ patched data patches ++ post) (pre.length + off) width n =
      pre ++ patched data (patches ++ [⟨off, en.bytes width n⟩]) ++ post := by
  unfold put
  rw [write_embed (by rw [Order.length_bytes, length_patched inside]; exact within),
    patched_concat]

theorem natAt_inside (found : natAt en data off width = some n) : off + width ≤ data.length := by
  unfold natAt at found
  obtain ⟨s, whole, -⟩ := Option.map_eq_some_iff.mp found
  exact (length_of_read whole).2

theorem natAt_lt (found : natAt en data off width = some n) : n < 256 ^ width := by
  unfold natAt at found
  obtain ⟨s, whole, rfl⟩ := Option.map_eq_some_iff.mp found
  have bound := en.value_lt s
  rwa [(length_of_read whole).1] at bound

variable {p : Nat} {c : LoadCommand}

theorem readLoad_shown (pre post : Bytes) (inside : ∀ patch ∈ patches, patch.Inside data.length)
    (fits : c.Fits) (clear : Clear patches (p + 8) (c.cmdsize - 8))
    (found : readLoad en data p c.cmd = some c.load) :
    readLoad en (pre ++ patched data patches ++ post) (pre.length + p) c.cmd = some c.load := by
  obtain ⟨cmd, cmdsize, load⟩ := c
  dsimp only at clear found ⊢
  unfold LoadCommand.Fits at fits
  unfold readLoad at found ⊢
  -- What is read depends on the kind of command, and stands in it in each case.
  split at found
  · obtain ⟨nameOff, first, rest⟩ := Option.bind_eq_some_iff.mp found
    obtain ⟨name, second, last⟩ := Option.bind_eq_some_iff.mp rest
    cases last
    dsimp only at fits
    rw [if_pos ‹_›, Nat.add_assoc, natAt_shown _ _ inside (clear.mono (by omega) (by omega)) first]
    dsimp only [Option.bind_eq_bind, Option.bind_some]
    rw [Nat.add_assoc, cstr_shown _ _ inside (clear.mono (by omega) (by omega)) second]
    rfl
  · rw [if_neg ‹_›]
    split at found
    · obtain ⟨dataoff, first, rest⟩ := Option.bind_eq_some_iff.mp found
      obtain ⟨datasize, second, last⟩ := Option.bind_eq_some_iff.mp rest
      cases last
      dsimp only at fits
      rw [if_pos ‹_›, Nat.add_assoc,
        natAt_shown _ _ inside (clear.mono (by omega) (by omega)) first,
        Nat.add_assoc, natAt_shown _ _ inside (clear.mono (by omega) (by omega)) second]
      rfl
    · rw [if_neg ‹_›]
      split at found
      · obtain ⟨symoff, first, rest⟩ := Option.bind_eq_some_iff.mp found
        obtain ⟨nsyms, second, rest'⟩ := Option.bind_eq_some_iff.mp rest
        obtain ⟨stroff, third, rest''⟩ := Option.bind_eq_some_iff.mp rest'
        obtain ⟨strsize, fourth, last⟩ := Option.bind_eq_some_iff.mp rest''
        cases last
        dsimp only at fits
        rw [if_pos ‹_›, Nat.add_assoc,
          natAt_shown _ _ inside (clear.mono (by omega) (by omega)) first,
          Nat.add_assoc, natAt_shown _ _ inside (clear.mono (by omega) (by omega)) second,
          Nat.add_assoc, natAt_shown _ _ inside (clear.mono (by omega) (by omega)) third,
          Nat.add_assoc, natAt_shown _ _ inside (clear.mono (by omega) (by omega)) fourth]
        rfl
      · rw [if_neg ‹_›]
        exact found

theorem readCommand_inside (found : readCommand en data p = some c) : p + 4 ≤ data.length := by
  unfold readCommand at found
  obtain ⟨cmd, first, -⟩ := Option.bind_eq_some_iff.mp found
  exact natAt_inside first

theorem LoadCommand.Fits.small (fits : c.Fits) : 8 ≤ c.cmdsize := by
  unfold LoadCommand.Fits at fits
  split at fits <;> omega

theorem readCommand_shown (pre post : Bytes)
    (inside : ∀ patch ∈ patches, patch.Inside data.length) (fits : c.Fits)
    (clear : Clear patches p c.cmdsize) (found : readCommand en data p = some c) :
    readCommand en (pre ++ patched data patches ++ post) (pre.length + p) = some c := by
  have small := fits.small
  unfold readCommand at found ⊢
  obtain ⟨cmd, first, rest⟩ := Option.bind_eq_some_iff.mp found
  obtain ⟨cmdsize, second, rest'⟩ := Option.bind_eq_some_iff.mp rest
  obtain ⟨load, third, last⟩ := Option.bind_eq_some_iff.mp rest'
  cases last
  dsimp only at small clear
  rw [natAt_shown _ _ inside (clear.mono (by omega) (by omega)) first, Nat.add_assoc,
    natAt_shown _ _ inside (clear.mono (by omega) (by omega)) second]
  dsimp only [Option.bind_eq_bind, Option.bind_some]
  rw [readLoad_shown _ _ inside fits (clear.mono (by omega) (by dsimp only; omega)) third]
  rfl

end

section

variable (decode : Bytes → PyString) (targets : List PyString) (en : Order)

def commandPatch (c : Nat × LoadCommand) : Option (Patch UInt8) :=
  if Flips decode targets c.2 then some ⟨c.1, en.bytes 4 lcLoadWeakDylib⟩ else none

variable {decode targets en} {pre post data : Bytes} {patches : List (Patch UInt8)}

theorem flips_dylib {cmd cmdsize nameOff : Nat} {name : Bytes} :
    Flips decode targets ⟨cmd, cmdsize, .dylib nameOff name⟩ ↔
      cmd = lcLoadDylib ∧ Wanted decode targets name := by
  simp [Flips, LoadCommand.library]

theorem commandPatch_place {c : Nat × LoadCommand} {patch : Patch UInt8}
    (member : patch ∈ commandPatch decode targets en c) :
    patch.off = c.1 ∧ patch.new.length = 4 := by
  unfold commandPatch at member
  split at member
  · cases member
    exact ⟨rfl, en.length_bytes 4 _⟩
  · cases member

theorem scanCommand_eq (decode : Bytes → PyString) (targets : List PyString)
    {st : Scan} {p : Nat} {c : LoadCommand}
    (inside : ∀ patch ∈ patches, patch.Inside data.length)
    (buf : st.buf = pre ++ patched data patches ++ post) (place : st.p = pre.length + p)
    (found : readCommand en data p = some c) (fits : c.Fits) (clear : Clear patches p c.cmdsize) :
    scanCommand decode targets en st = some {
      buf := pre ++ patched data (patches ++ (commandPatch decode targets en (p, c)).toList) ++ post
      p := pre.length + (p + c.cmdsize)
      dylibIsWeak := st.dylibIsWeak ++ (loadsWeak decode targets c).toList
      chained := c.fixups.or st.chained
      symtab := c.symtab.or st.symtab
      lcFlips := st.lcFlips + (commandPatch decode targets en (p, c)).toList.length
    } := by
  have within := readCommand_inside found
  have read := readCommand_shown pre post inside fits clear found
  unfold scanCommand
  rw [buf, place, read]
  dsimp only [Option.bind_eq_bind, Option.bind_some, Option.pure_def]
  obtain ⟨cmd, cmdsize, load⟩ := c
  unfold commandPatch loadsWeak LoadCommand.fixups LoadCommand.symtab
  -- Only the load command of a library is written, if that is wanted.
  cases load with
  | dylib nameOff name =>
    by_cases wanted : cmd = lcLoadDylib ∧ Wanted decode targets name
    · have flips : Flips decode targets ⟨cmd, cmdsize, .dylib nameOff name⟩ :=
        flips_dylib.mpr wanted
      dsimp only
      rw [if_pos wanted, if_pos flips, put_shown _ _ _ inside within]
      simp [flips, LoadCommand.library, Nat.add_assoc]
    · have flips : ¬Flips decode targets ⟨cmd, cmdsize, .dylib nameOff name⟩ := fun flips =>
        wanted (flips_dylib.mp flips)
      dsimp only
      rw [if_neg wanted, if_neg flips]
      simp [flips, LoadCommand.library, Nat.add_assoc]
  | chainedFixups dataoff datasize => simp [Flips, LoadCommand.library, Nat.add_assoc]
  | symtab symoff nsyms stroff strsize => simp [Flips, LoadCommand.library, Nat.add_assoc]
  | other => simp [Flips, LoadCommand.library, Nat.add_assoc]

theorem filterMap_cons_toList {α β : Type*} (f : α → Option β) (x : α) (xs : List α) :
    (x :: xs).filterMap f = (f x).toList ++ xs.filterMap f := by
  cases same : f x <;> simp [same]

theorem getLast?_toList_append {α : Type*} (first : Option α) (later : List α) (x : Option α) :
    (first.toList ++ later).getLast?.or x = later.getLast?.or (first.or x) := by
  rw [List.getLast?_append, Option.or_assoc]
  cases first <;> rfl

/-- The scan makes the wanted commands weak and notes what it has seen. -/
theorem scanCommands_eq (decode : Bytes → PyString) (targets : List PyString) (pre post : Bytes)
    (patches : List (Patch UInt8)) (st : Scan) {commands : List LoadCommand} {p : Nat}
    (inside : ∀ patch ∈ patches, patch.Inside data.length)
    (before : ∀ patch ∈ patches, patch.off + patch.new.length ≤ p)
    (buf : st.buf = pre ++ patched data patches ++ post) (place : st.p = pre.length + p)
    (found : CommandsAt en data p commands) :
    scanCommands decode targets en commands.length st = some {
      buf := pre ++ patched data (patches ++
        (placed p commands).filterMap (commandPatch decode targets en)) ++ post
      p := pre.length + placedEnd p commands
      dylibIsWeak := st.dylibIsWeak ++ commands.filterMap (loadsWeak decode targets)
      chained := (commands.filterMap LoadCommand.fixups).getLast?.or st.chained
      symtab := (commands.filterMap LoadCommand.symtab).getLast?.or st.symtab
      lcFlips := st.lcFlips +
        ((placed p commands).filterMap (commandPatch decode targets en)).length
    } := by
  -- The patches so far are in front of the load command that comes next.
  induction commands generalizing st p patches with
  | nil =>
    simp [scanCommands, placed, placedEnd, ← buf, ← place]
  | cons c commands ih =>
    unfold CommandsAt placed at found
    rw [List.forall_mem_cons] at found
    have small : 8 ≤ c.cmdsize := found.1.2.small
    have step := scanCommand_eq decode targets inside buf place
      found.1.1 found.1.2 (fun patch member => Or.inl (before patch member))
    rw [List.length_cons, scanCommands, step]
    dsimp only [Option.bind_eq_bind, Option.bind_some]
    have within := readCommand_inside found.1.1
    have inside' : ∀ patch ∈ patches ++ (commandPatch decode targets en (p, c)).toList,
        patch.Inside data.length :=
      inside_concat inside (fun _ member => commandPatch_place member) within
    -- The next load command begins after what is put in this one.
    have before' : ∀ patch ∈ patches ++ (commandPatch decode targets en (p, c)).toList,
        patch.off + patch.new.length ≤ p + c.cmdsize := by
      rw [List.forall_mem_append]
      refine ⟨fun patch member => ?_, fun patch member => ?_⟩
      · have earlier := before patch member
        omega
      · obtain ⟨first, size⟩ := commandPatch_place (Option.mem_toList.mp member)
        omega
    rw [ih _ _ inside' before' rfl rfl found.2]
    simp only [placed, placedEnd, filterMap_cons_toList, getLast?_toList_append,
      List.append_assoc, List.length_append, Nat.add_assoc]

end

section

variable (decode : Bytes → PyString) (targets : List PyString) (v : Image)

def importPatch (i : Import) : Option (Patch UInt8) :=
  if v.Strong decode targets i then
    some ⟨i.pos, v.en.bytes v.format.width (v.format.weaken i.header)⟩
  else none

def strongNames (imports : List Import) : List Bytes :=
  ((imports.filter (v.Strong decode targets ·)).map Import.name).reverse

variable {decode targets v} {pre post data : Bytes} {patches : List (Patch UInt8)}

theorem importPatch_place {i : Import} {patch : Patch UInt8}
    (member : patch ∈ importPatch decode targets v i) :
    patch.off = i.pos ∧ patch.new.length = v.format.width := by
  unfold importPatch at member
  split at member
  · cases member
    exact ⟨rfl, v.en.length_bytes _ _⟩
  · cases member

theorem importAt_eq_some {en : Order} {f : ImportFormat} {ibase sbase k : Nat} {i : Import} :
    importAt en f data ibase sbase k = some i ↔ i.pos = ibase + k * f.stride ∧
      natAt en data i.pos f.width = some i.header ∧
      cstr data (sbase + f.nameOff i.header) = some i.name := by
  unfold importAt
  constructor
  · intro found
    obtain ⟨header, first, rest⟩ := Option.bind_eq_some_iff.mp found
    obtain ⟨name, second, last⟩ := Option.bind_eq_some_iff.mp rest
    cases last
    exact ⟨rfl, first, second⟩
  · obtain ⟨pos, header, name⟩ := i
    rintro ⟨rfl, first, second⟩
    rw [first]
    dsimp only [Option.bind_eq_bind, Option.bind_some]
    rw [second]
    rfl

theorem weakenImport_eq (decode : Bytes → PyString) (targets : List PyString)
    {ibase sbase k : Nat} {i : Import} {st : Marks}
    (inside : ∀ patch ∈ patches, patch.Inside data.length)
    (buf : st.buf = pre ++ patched data patches ++ post)
    (found : importAt v.en v.format data ibase sbase k = some i)
    (clear : Clear patches i.pos v.format.width)
    (clear' : Clear patches (sbase + v.format.nameOff i.header) (i.name.length + 1))
    (own : i.pos + v.format.width ≤ sbase + v.format.nameOff i.header) :
    weakenImport v.en v.format (weakOrds (v.commands.filterMap (loadsWeak decode targets)))
      (pre.length + ibase) (pre.length + sbase) st k = some {
        buf := pre ++ patched data (patches ++ (importPatch decode targets v i).toList) ++ post
        weakNames := strongNames decode targets v [i] ++ st.weakNames
        impFlips := st.impFlips + (importPatch decode targets v i).toList.length
      } := by
  obtain ⟨place, header, name⟩ := importAt_eq_some.mp found
  have within := natAt_inside header
  have shown := natAt_shown pre post inside clear header
  unfold weakenImport
  dsimp only
  rw [buf, Nat.add_assoc pre.length, ← place, shown]
  dsimp only [Option.bind_eq_bind, Option.bind_some, Option.pure_def]
  by_cases strong : v.Strong decode targets i
  · -- The name is read after the header is written, which does not touch it.
    have inside' : ∀ patch ∈ patches ++
        [⟨i.pos, v.en.bytes v.format.width (v.format.weaken i.header)⟩],
        patch.Inside data.length := by
      rw [List.forall_mem_append, List.forall_mem_singleton]
      refine ⟨inside, ?_⟩
      unfold Patch.Inside
      rw [Order.length_bytes]
      exact within
    have clear'' : Clear (patches ++
        [⟨i.pos, v.en.bytes v.format.width (v.format.weaken i.header)⟩])
        (sbase + v.format.nameOff i.header) (i.name.length + 1) := by
      rw [clear_append]
      refine ⟨clear', fun patch member => ?_⟩
      rw [List.mem_singleton.mp member, Order.length_bytes]
      exact Or.inl own
    have patch : importPatch decode targets v i =
        some ⟨i.pos, v.en.bytes v.format.width (v.format.weaken i.header)⟩ := if_pos strong
    have names : strongNames decode targets v [i] = [i.name] := by
      simp [strongNames, strong]
    unfold Image.Strong Image.IsWeak at strong
    rw [if_pos strong, put_shown _ _ _ inside within, Nat.add_assoc pre.length,
      cstr_shown _ _ inside' clear'' name, patch, names]
    rfl
  · have patch : importPatch decode targets v i = none := if_neg strong
    have names : strongNames decode targets v [i] = [] := by
      simp [strongNames, strong]
    unfold Image.Strong Image.IsWeak at strong
    rw [if_neg strong, patch, names]
    simp [← buf]

theorem strongNames_cons (i : Import) (imports : List Import) :
    strongNames decode targets v (i :: imports) =
      strongNames decode targets v imports ++ strongNames decode targets v [i] := by
  unfold strongNames
  rw [List.filter_cons]
  by_cases strong : v.Strong decode targets i <;> simp [strong]

theorem weakenImport_foldlM {ibase sbase : Nat} {ks : List Nat} {imports : List Import} {st : Marks}
    (inside : ∀ patch ∈ patches, patch.Inside data.length)
    (buf : st.buf = pre ++ patched data patches ++ post)
    (found : List.Forall₂ (fun k i => importAt v.en v.format data ibase sbase k = some i) ks
      imports)
    (clear : ∀ i ∈ imports, Clear patches i.pos v.format.width ∧
      Clear patches (sbase + v.format.nameOff i.header) (i.name.length + 1))
    (apart : imports.Pairwise fun i j => i.pos + v.format.width ≤ j.pos)
    (names : ∀ i ∈ imports, ∀ j ∈ imports,
      i.pos + v.format.width ≤ sbase + v.format.nameOff j.header) :
    ks.foldlM (weakenImport v.en v.format
      (weakOrds (v.commands.filterMap (loadsWeak decode targets)))
      (pre.length + ibase) (pre.length + sbase)) st = some {
        buf := pre ++ patched data (patches ++
          imports.filterMap (importPatch decode targets v)) ++ post
        weakNames := strongNames decode targets v imports ++ st.weakNames
        impFlips := st.impFlips + (imports.filterMap (importPatch decode targets v)).length
      } := by
  induction found generalizing st patches with
  | nil => simp [strongNames, ← buf]
  | @cons k i ks imports first rest ih =>
    rw [List.forall_mem_cons] at clear
    rw [List.pairwise_cons] at apart
    have own := names i List.mem_cons_self i List.mem_cons_self
    have step := weakenImport_eq decode targets inside buf first
      clear.1.1 clear.1.2 own
    have within := natAt_inside (importAt_eq_some.mp first).2.1
    -- The other imports do not touch the header of the first one, nor do names.
    have inside' : ∀ patch ∈ patches ++ (importPatch decode targets v i).toList,
        patch.Inside data.length :=
      inside_concat inside (fun _ member => importPatch_place member) within
    have clear' : ∀ j ∈ imports,
        Clear (patches ++ (importPatch decode targets v i).toList) j.pos v.format.width ∧
        Clear (patches ++ (importPatch decode targets v i).toList)
          (sbase + v.format.nameOff j.header) (j.name.length + 1) := by
      intro j member
      have later := apart.1 j member
      have name := names i List.mem_cons_self j (List.mem_cons_of_mem _ member)
      constructor
      · exact (clear.2 j member).1.concat (fun _ there => importPatch_place there) (Or.inl later)
      · exact (clear.2 j member).2.concat (fun _ there => importPatch_place there) (Or.inl name)
    rw [List.foldlM_cons, step]
    dsimp only [Option.bind_eq_bind, Option.bind_some]
    rw [ih inside' rfl clear' apart.2 fun i there j there' =>
      names i (List.mem_cons_of_mem _ there) j (List.mem_cons_of_mem _ there')]
    simp only [filterMap_cons_toList, List.append_assoc, List.length_append, Nat.add_assoc,
      strongNames_cons i imports]

end

section

variable (en : Order) (names : List Bytes)

/-- What is put where a symbol is marked. -/
local instance lawfulBEq_bytes : LawfulBEq Bytes := inferInstance

def symbolPatch (s : Symbol) : Option (Patch UInt8) :=
  if s.IsUndefined ∧ s.name ∈ names ∧ s.desc &&& nWeakRef = 0 then
    some ⟨s.pos + 6, en.bytes 2 (s.desc ||| nWeakRef)⟩
  else none

variable {en names} {data : Bytes} {patches : List (Patch UInt8)}

theorem symbolPatch_place {s : Symbol} {patch : Patch UInt8}
    (member : patch ∈ symbolPatch en names s) : patch.off = s.pos + 6 ∧ patch.new.length = 2 := by
  unfold symbolPatch at member
  split at member
  · cases member
    exact ⟨rfl, en.length_bytes 2 _⟩
  · cases member

theorem symbolAt_eq_some {symoff stroff i : Nat} {s : Symbol} :
    symbolAt en data symoff stroff i = some s ↔ s.pos = symoff + i * 16 ∧
      natAt en data s.pos 4 = some s.strx ∧ natAt en data (s.pos + 4) 1 = some s.type ∧
      natAt en data (s.pos + 6) 2 = some s.desc ∧ cstr data (stroff + s.strx) = some s.name := by
  unfold symbolAt
  constructor
  · intro found
    obtain ⟨strx, first, rest⟩ := Option.bind_eq_some_iff.mp found
    obtain ⟨type, second, rest'⟩ := Option.bind_eq_some_iff.mp rest
    obtain ⟨desc, third, rest''⟩ := Option.bind_eq_some_iff.mp rest'
    obtain ⟨name, fourth, last⟩ := Option.bind_eq_some_iff.mp rest''
    cases last
    exact ⟨rfl, first, second, third, fourth⟩
  · obtain ⟨pos, strx, type, desc, name⟩ := s
    rintro ⟨rfl, first, second, third, fourth⟩
    rw [first]
    dsimp only [Option.bind_eq_bind, Option.bind_some]
    rw [second]
    dsimp only [Option.bind_some]
    rw [third]
    dsimp only [Option.bind_some]
    rw [fourth]
    rfl

/-- One symbol is patched when it names a weak import. -/
theorem weakenSymbol_eq (names : List Bytes) {symoff stroff i : Nat} {s : Symbol}
    (inside : ∀ patch ∈ patches, patch.Inside data.length)
    (found : symbolAt en data symoff stroff i = some s) (clear : Clear patches s.pos 8)
    (clear' : Clear patches (stroff + s.strx) (s.name.length + 1)) :
    weakenSymbol en symoff stroff names (patched data patches) i =
      some (patched data (patches ++ (symbolPatch en names s).toList)) := by
  obtain ⟨place, strx, type, desc, name⟩ := symbolAt_eq_some.mp found
  have within := natAt_inside desc
  have shown : ∀ {off width n : Nat}, Clear patches off width →
      natAt en data off width = some n → natAt en (patched data patches) off width = some n := by
    intro off width n clear found
    have embedded := natAt_shown [] [] inside clear found
    simpa using embedded
  have string : cstr (patched data patches) (stroff + s.strx) = some s.name := by
    have embedded := cstr_shown [] [] inside clear' name
    simpa using embedded
  unfold weakenSymbol
  dsimp only
  rw [← place, shown (clear.mono (by omega) (by omega)) strx]
  dsimp only [Option.bind_eq_bind, Option.bind_some]
  rw [shown (clear.mono (by omega) (by omega)) type]
  dsimp only [Option.bind_some]
  rw [shown (clear.mono (by omega) (by omega)) desc]
  dsimp only [Option.bind_some]
  -- The symbol is only looked at if it is undefined, and only marked if its name is wanted.
  by_cases undefined : s.IsUndefined
  · by_cases named : s.name ∈ names ∧ s.desc &&& nWeakRef = 0
    · have patch : symbolPatch en names s = some ⟨s.pos + 6, en.bytes 2 (s.desc ||| nWeakRef)⟩ :=
        if_pos ⟨undefined, named⟩
      have put' := put_shown en [] [] inside within (s.desc ||| nWeakRef)
      rw [List.nil_append, List.append_nil, List.length_nil, Nat.zero_add, List.nil_append,
        List.append_nil] at put'
      unfold Symbol.IsUndefined at undefined
      rw [if_pos undefined, string, patch]
      dsimp only [Option.bind_some]
      rw [if_pos named, put']
      rfl
    · have patch : symbolPatch en names s = none := if_neg fun all => named all.2
      unfold Symbol.IsUndefined at undefined
      rw [if_pos undefined, string, patch]
      dsimp only [Option.bind_some]
      rw [if_neg named]
      simp
  · have patch : symbolPatch en names s = none := if_neg fun all => undefined all.1
    unfold Symbol.IsUndefined at undefined
    rw [if_neg undefined, patch]
    simp

theorem weakenSymbol_foldlM {symoff stroff : Nat} {is : List Nat} {symbols : List Symbol}
    (inside : ∀ patch ∈ patches, patch.Inside data.length)
    (found : List.Forall₂ (fun i s => symbolAt en data symoff stroff i = some s) is symbols)
    (clear : ∀ s ∈ symbols, Clear patches s.pos 8 ∧
      Clear patches (stroff + s.strx) (s.name.length + 1))
    (apart : symbols.Pairwise fun s t => s.pos + 16 ≤ t.pos)
    (strings : ∀ s ∈ symbols, ∀ t ∈ symbols, s.pos + 16 ≤ stroff + t.strx ∨
      stroff + t.strx + (t.name.length + 1) ≤ s.pos) :
    is.foldlM (weakenSymbol en symoff stroff names) (patched data patches) =
      some (patched data (patches ++ symbols.filterMap (symbolPatch en names))) := by
  induction found generalizing patches with
  | nil => simp
  | @cons i s is symbols first rest ih =>
    rw [List.forall_mem_cons] at clear
    rw [List.pairwise_cons] at apart
    have step := weakenSymbol_eq names inside first clear.1.1 clear.1.2
    have within := natAt_inside (symbolAt_eq_some.mp first).2.2.2.1
    -- The first symbol does not touch the others, nor do names.
    have inside' : ∀ patch ∈ patches ++ (symbolPatch en names s).toList,
        patch.Inside data.length :=
      inside_concat inside (fun _ member => symbolPatch_place member) within
    have clear' : ∀ t ∈ symbols,
        Clear (patches ++ (symbolPatch en names s).toList) t.pos 8 ∧
        Clear (patches ++ (symbolPatch en names s).toList) (stroff + t.strx)
          (t.name.length + 1) := by
      intro t member
      have later := apart.1 t member
      have beside := strings s List.mem_cons_self t (List.mem_cons_of_mem _ member)
      constructor
      · exact (clear.2 t member).1.concat (fun _ there => symbolPatch_place there) (by omega)
      · exact (clear.2 t member).2.concat (fun _ there => symbolPatch_place there) (by omega)
    rw [List.foldlM_cons, step]
    dsimp only [Option.bind_eq_bind, Option.bind_some]
    rw [ih inside' clear' apart.2 fun s there t there' =>
      strings s (List.mem_cons_of_mem _ there) t (List.mem_cons_of_mem _ there')]
    simp only [filterMap_cons_toList, List.append_assoc]

end

end MachoWeaken

end Xios
