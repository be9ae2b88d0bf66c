import Xios.Macho.Laws

/-! An image that was weakened is well-formed, and nothing is left to weaken in it. -/

namespace Xios

namespace MachoWeaken

open Words Patching

section

variable (decode : Bytes → PyString) (targets : List PyString)

def weakenedCommand (c : LoadCommand) : LoadCommand :=
  if Flips decode targets c then { c with cmd := lcLoadWeakDylib } else c

namespace Image

variable (v : Image)

instance (s : Symbol) : Decidable (v.Unmarked decode targets s) :=
  inferInstanceAs (Decidable (_ ∧ _))

def weakenedImport (i : Import) : Import :=
  if v.Strong decode targets i then { i with header := v.format.weaken i.header } else i

def weakenedSymbol (s : Symbol) : Symbol :=
  if v.Unmarked decode targets s then { s with desc := s.desc ||| nWeakRef } else s

def weakened : Image where
  en := v.en
  commands := v.commands.map (weakenedCommand decode targets)
  format := v.format
  imports := v.imports.map (v.weakenedImport decode targets)
  symbols := v.symbols.map (v.weakenedSymbol decode targets)

end Image

variable {decode targets} {data : Bytes} {v : Image}

@[simp] theorem weakenedCommand_load (c : LoadCommand) :
    (weakenedCommand decode targets c).load = c.load := by
  unfold weakenedCommand
  split <;> rfl

@[simp] theorem weakenedCommand_cmdsize (c : LoadCommand) :
    (weakenedCommand decode targets c).cmdsize = c.cmdsize := by
  unfold weakenedCommand
  split <;> rfl

theorem placed_weakened (p : Nat) (commands : List LoadCommand) :
    placed p (commands.map (weakenedCommand decode targets)) =
      (placed p commands).map fun c => (c.1, weakenedCommand decode targets c.2) := by
  induction commands generalizing p with
  | nil => rfl
  | cons c commands ih =>
    rw [List.map_cons, placed, placed, List.map_cons, weakenedCommand_cmdsize, ih]

theorem placedEnd_weakened (p : Nat) (commands : List LoadCommand) :
    placedEnd p (commands.map (weakenedCommand decode targets)) = placedEnd p commands := by
  induction commands generalizing p with
  | nil => rfl
  | cons c commands ih => rw [List.map_cons, placedEnd, placedEnd, weakenedCommand_cmdsize, ih]

theorem regions_weakened (decode : Bytes → PyString) (targets : List PyString) :
    (v.weakened decode targets).fixups = v.fixups ∧
    (v.weakened decode targets).symtabs = v.symtabs ∧
    (v.weakened decode targets).regions = v.regions := by
  have fixups : (v.weakened decode targets).fixups = v.fixups := by
    unfold Image.fixups Image.weakened
    rw [List.filterMap_map]
    apply List.filterMap_congr
    intro c _
    simp [LoadCommand.fixups]
  have symtabs : (v.weakened decode targets).symtabs = v.symtabs := by
    unfold Image.symtabs Image.weakened
    rw [List.filterMap_map]
    apply List.filterMap_congr
    intro c _
    simp [LoadCommand.symtab]
  refine ⟨fixups, symtabs, ?_⟩
  unfold Image.regions
  rw [fixups, symtabs]
  unfold Image.weakened
  rw [placedEnd_weakened]

@[simp] theorem weakenedImport_place (i : Import) :
    (v.weakenedImport decode targets i).pos = i.pos ∧
      (v.weakenedImport decode targets i).name = i.name := by
  unfold Image.weakenedImport
  split <;> exact ⟨rfl, rfl⟩

@[simp] theorem weakenedSymbol_place (decode : Bytes → PyString) (targets : List PyString)
    (s : Symbol) :
    (v.weakenedSymbol decode targets s).pos = s.pos ∧
      (v.weakenedSymbol decode targets s).strx = s.strx ∧
      (v.weakenedSymbol decode targets s).type = s.type ∧
      (v.weakenedSymbol decode targets s).name = s.name := by
  unfold Image.weakenedSymbol
  split <;> exact ⟨rfl, rfl, rfl, rfl⟩

/-- The commands of the weakened image are read as weak ones. -/
theorem readCommand_weakened (layout : Layout data v) {c : Nat × LoadCommand}
    (member : c ∈ placed 32 v.commands) :
    readCommand v.en (patched data (v.patches decode targets)) c.1 =
      some (weakenedCommand decode targets c.2) := by
  obtain ⟨found, fits⟩ := layout.commands c member
  have small := fits.small
  have inside := patches_inside decode targets layout
  unfold weakenedCommand
  split
  · rename_i flips
    -- The command is another one, for which the same is read.
    have clear : Clear (v.patches decode targets) (c.1 + 4) (c.2.cmdsize - 4) :=
      clear_command layout member (fun _ => Nat.le_refl 4) (by omega)
    have word : natAt v.en (patched data (v.patches decode targets)) c.1 4 =
        some lcLoadWeakDylib := by
      apply natAt_patched_of_mem inside (patches_apart layout)
      · exact mem_patches.mpr (Or.inl ⟨c, member, flips, rfl⟩)
      · decide
    obtain ⟨p, cmd, cmdsize, load⟩ := c
    unfold readCommand at found ⊢
    obtain ⟨cmd', first, rest⟩ := Option.bind_eq_some_iff.mp found
    obtain ⟨cmdsize', second, rest'⟩ := Option.bind_eq_some_iff.mp rest
    obtain ⟨load', third, last⟩ := Option.bind_eq_some_iff.mp rest'
    cases last
    dsimp only at small clear word
    have same : ∀ buf, readLoad v.en buf p lcLoadWeakDylib = readLoad v.en buf p cmd := by
      intro buf
      have loads : cmd = lcLoadDylib := flips.1
      rw [loads]
      unfold readLoad
      rw [if_pos (by decide), if_pos (by decide)]
    have shown := readLoad_shown [] [] inside fits
      (clear.mono (by omega) (by dsimp only; omega)) third
    rw [List.nil_append, List.append_nil, List.length_nil, Nat.zero_add] at shown
    rw [word]
    dsimp only [Option.bind_eq_bind, Option.bind_some]
    rw [natAt_patched inside (clear.mono (by omega) (by omega)), second]
    dsimp only [Option.bind_some]
    rw [same, shown]
    rfl
  · rename_i kept
    have clear : Clear (v.patches decode targets) (c.1 + 0) (c.2.cmdsize - 0) :=
      clear_command layout member (fun flips => absurd flips kept) (Nat.zero_le _)
    have shown := readCommand_shown [] [] inside fits clear found
    rwa [List.nil_append, List.append_nil, List.length_nil, Nat.zero_add] at shown

theorem forall₂_mem {α β : Type*} {R : α → β → Prop} {xs : List α} {ys : List β}
    (related : List.Forall₂ R xs ys) : List.Forall₂ (fun x y => R x y ∧ y ∈ ys) xs ys := by
  induction related with
  | nil => exact List.Forall₂.nil
  | cons first rest ih =>
    refine List.Forall₂.cons ⟨first, List.mem_cons_self⟩ (ih.imp ?_)
    exact fun _ _ both => ⟨both.1, List.mem_cons_of_mem _ both.2⟩

theorem clear_importName (layout : Layout data v) {dataoff datasize off n : Nat}
    (one : v.fixups = [(dataoff, datasize)]) (room : 28 ≤ datasize)
    (after : ∀ i ∈ v.imports, i.pos + v.format.width ≤ off) (low : dataoff ≤ off)
    (within : off + n ≤ dataoff + datasize) : Clear (v.patches decode targets) off n := by
  have place := layout.fixups_place (by rw [one]; simp : (dataoff, datasize) ∈ v.fixups) room
  apply clear_behind layout
  · omega
  · intro i inside _
    exact Or.inl (after i inside)
  · intro s inside _
    obtain ⟨stroff, -, -, -, -, beside, -⟩ := layout.symbol_place inside
    have apart := (beside (dataoff, datasize) (by rw [one]; simp)).1
    unfold Beside at apart
    omega

theorem clear_symbolName (layout : Layout data v) {s : Symbol} (member : s ∈ v.symbols)
    {stroff : Nat} (same : ∃ symtab ∈ v.symtabs, symtab.2.2.1 = stroff) :
    Clear (v.patches decode targets) (stroff + s.strx) (s.name.length + 1) := by
  obtain ⟨stroff', own, -, -, front, beside, strings, -⟩ := layout.symbol_place member
  obtain ⟨symtab, there, rfl⟩ := same
  rw [← own symtab there] at front beside strings
  apply clear_behind layout
  · omega
  · intro i inside _
    obtain ⟨region, there, sbase, -, first, last, name, -⟩ := layout.import_place inside
    have before := last i inside
    have apart := (beside region there).2
    unfold Beside at apart
    omega
  · intro t inside _
    have apart := strings t inside
    unfold Beside at apart
    omega

theorem fixupsAt_weakened (layout : Layout data v)
    {dataoff datasize importsOff symbolsOff format : Nat} (one : v.fixups = [(dataoff, datasize)])
    (table : FixupsAt v.en data v.format v.imports dataoff datasize importsOff symbolsOff format) :
    FixupsAt v.en (patched data (v.patches decode targets)) v.format
      (v.imports.map (v.weakenedImport decode targets)) dataoff datasize importsOff symbolsOff
      format := by
  have inside := patches_inside decode targets layout
  have front := table.front
  have table' := table.table
  have space := table.room
  have clear : Clear (v.patches decode targets) dataoff 28 :=
    clear_fixups layout one (Nat.le_refl _) (by omega)
  have name : ∀ i ∈ v.imports, Clear (v.patches decode targets)
      (dataoff + symbolsOff + v.format.nameOff i.header) (i.name.length + 1) := by
    intro i member
    have bound := table.names i member
    apply clear_importName layout one (by omega) _ (by omega) (by omega)
    intro j there
    have place := table.entry there
    omega
  have kept : ∀ i, v.format.nameOff (v.weakenedImport decode targets i).header =
      v.format.nameOff i.header := by
    intro i
    unfold Image.weakenedImport
    split
    · rw [table.layout]
      exact nameOff_weaken format i.header
    · rfl
  -- The header of the table and the names are clear, and each import is where it was.
  refine ⟨?_, ?_, ?_, ?_, table.known, table.layout, front, ?_, space, ?_, ?_⟩
  · rw [natAt_patched inside (clear.mono (by omega) (by omega)), table.importsAt]
  · rw [natAt_patched inside (clear.mono (by omega) (by omega)), table.symbolsAt]
  · rw [natAt_patched inside (clear.mono (by omega) (by omega)), table.count, List.length_map]
  · rw [natAt_patched inside (clear.mono (by omega) (by omega)), table.kind]
  · rwa [List.length_map]
  · rw [List.length_map, List.forall₂_map_right_iff]
    apply (forall₂_mem table.entries).imp
    rintro k i ⟨read, member⟩
    obtain ⟨place, header, string⟩ := importAt_eq_some.mp read
    have header' := natAt_import decode targets layout member
    rw [importAt_eq_some, (weakenedImport_place i).1, (weakenedImport_place i).2, kept]
    refine ⟨place, ?_, cstr_patched inside (name i member) string⟩
    rw [header']
    unfold Image.weakenedImport
    split <;> rfl
  · intro i member
    obtain ⟨i, there, rfl⟩ := List.mem_map.mp member
    rw [kept, (weakenedImport_place i).2]
    exact table.names i there

theorem symbolsAt_weakened (layout : Layout data v) {symoff nsyms stroff strsize : Nat}
    (one : v.symtabs = [(symoff, nsyms, stroff, strsize)])
    (table : SymbolsAt v.en data v.symbols symoff nsyms stroff strsize) :
    SymbolsAt v.en (patched data (v.patches decode targets))
      (v.symbols.map (v.weakenedSymbol decode targets)) symoff nsyms stroff strsize := by
  have inside := patches_inside decode targets layout
  refine ⟨?_, ?_, ?_⟩
  · rw [table.count, List.length_map]
  · rw [List.forall₂_map_right_iff]
    apply (forall₂_mem table.entries).imp
    rintro i s ⟨read, member⟩
    obtain ⟨place, strx, type, desc, string⟩ := symbolAt_eq_some.mp read
    obtain ⟨pos, strx', type', name⟩ := weakenedSymbol_place decode targets (v := v) s
    rw [symbolAt_eq_some, pos, strx', type', name]
    have clear : Clear (v.patches decode targets) (s.pos + 0) 6 :=
      clear_symbol layout member (by omega) (fun _ => by omega)
    -- A name is beside the symbols, and its place does not change.
    have name' : Clear (v.patches decode targets) (stroff + s.strx) (s.name.length + 1) :=
      clear_symbolName layout member ⟨_, by rw [one]; exact List.mem_singleton_self _, rfl⟩
    refine ⟨place, ?_, ?_, ?_, cstr_patched inside name' string⟩
    · rw [natAt_patched inside (clear.mono (by omega) (by omega)), strx]
    · rw [natAt_patched inside (clear.mono (by omega) (by omega)), type]
    · -- The description is the part of a symbol that may be patched.
      have both := natAt_symbol decode targets layout member
      unfold Image.weakenedSymbol
      split
      · exact both.1 ‹_›
      · exact both.2 ‹_›
  · intro s member
    obtain ⟨s, there, rfl⟩ := List.mem_map.mp member
    obtain ⟨-, strx, -, name⟩ := weakenedSymbol_place decode targets
      (v := v) s
    rw [strx, name]
    exact table.names s there

/-- The weakened image is laid out as the old one. -/
theorem layout_weakened (decode : Bytes → PyString) (targets : List PyString)
    (layout : Layout data v) :
    Layout (patched data (v.patches decode targets)) (v.weakened decode targets) := by
  have inside := patches_inside decode targets layout
  obtain ⟨fixups, symtabs, regions⟩ := regions_weakened decode targets
    (v := v)
  constructor
  · -- The header is in front of the load commands, and no patch touches it.
    rw [natAt_patched inside (clear_header layout (by omega))]
    exact layout.magic
  · change natAt v.en _ 16 4 = some (v.commands.map (weakenedCommand decode targets)).length
    rw [natAt_patched inside (clear_header layout (by omega)), List.length_map]
    exact layout.count
  · unfold CommandsAt
    change ∀ c ∈ placed 32 (v.commands.map (weakenedCommand decode targets)),
      readCommand v.en _ c.1 = some c.2 ∧ c.2.Fits
    rw [placed_weakened]
    intro c member
    obtain ⟨c, there, rfl⟩ := List.mem_map.mp member
    refine ⟨readCommand_weakened layout there, ?_⟩
    have fits := (layout.commands c there).2
    unfold LoadCommand.Fits at fits ⊢
    rwa [weakenedCommand_load, weakenedCommand_cmdsize]
  · -- There are chained fixups just if there were.
    have tables := layout.fixups
    rw [fixups]
    split at tables
    · change v.imports.map _ = []
      rw [tables]
      rfl
    · rename_i one
      obtain ⟨importsOff, symbolsOff, format, table⟩ := tables
      exact ⟨importsOff, symbolsOff, format, fixupsAt_weakened layout one table⟩
    · exact tables.elim
  · have tables := layout.symbols
    rw [symtabs]
    split at tables
    · change v.symbols.map _ = []
      rw [tables]
      rfl
    · rename_i one
      exact symbolsAt_weakened layout one tables
    · exact tables.elim
  · rw [regions, length_patched inside]
    exact layout.inside
  · rw [regions]
    exact layout.apart

theorem not_flips_weakened (decode : Bytes → PyString) (targets : List PyString) (c : LoadCommand) :
    ¬Flips decode targets (weakenedCommand decode targets c) := by
  unfold weakenedCommand
  split
  · rintro ⟨loads, -⟩
    exact absurd loads (by decide : lcLoadWeakDylib ≠ lcLoadDylib)
  · assumption

theorem loadsWeak_weakened (c : LoadCommand) :
    loadsWeak decode targets (weakenedCommand decode targets c) = loadsWeak decode targets c := by
  have library : (weakenedCommand decode targets c).library = c.library := by
    unfold LoadCommand.library
    rw [weakenedCommand_load]
  have settled := not_flips_weakened decode targets c
  unfold loadsWeak
  rw [library]
  congr 1
  funext _
  rw [decide_eq_decide]
  -- A load command that was made weak is weak, and another one is as it was.
  unfold weakenedCommand at settled ⊢
  split
  · rename_i flips
    simp [flips]
  · rfl

theorem not_strong_weakened (decode : Bytes → PyString) (targets : List PyString)
    (layout : Layout data v) :
    ∀ i ∈ (v.weakened decode targets).imports,
      ¬(v.weakened decode targets).Strong decode targets i := by
  intro i member
  obtain ⟨i, there, rfl⟩ := List.mem_map.mp member
  obtain ⟨format, same⟩ := layout.format_eq there
  have ords : (v.weakened decode targets).commands.filterMap (loadsWeak decode targets) =
      v.commands.filterMap (loadsWeak decode targets) := by
    change (v.commands.map (weakenedCommand decode targets)).filterMap _ = _
    rw [List.filterMap_map]
    apply List.filterMap_congr
    intro c _
    exact loadsWeak_weakened c
  rintro ⟨weak, strong⟩
  unfold Image.IsWeak at weak
  rw [ords] at weak
  change v.format.lib (v.weakenedImport decode targets i).header ∈ _ at weak
  change v.format.weak (v.weakenedImport decode targets i).header = 0 at strong
  unfold Image.weakenedImport at weak strong
  split at strong
  · exact weak_weaken _ _ strong
  · rename_i kept
    rw [if_neg kept] at weak
    exact kept ⟨weak, strong⟩

theorem patches_weakened (decode : Bytes → PyString) (targets : List PyString)
    (layout : Layout data v) :
    (v.weakened decode targets).commandPatches decode targets = [] ∧
      (v.weakened decode targets).importPatches decode targets = [] ∧
      (v.weakened decode targets).patches decode targets = [] := by
  have settled := not_strong_weakened decode targets layout
  have imports := (importPatches_eq_nil settled).1
  have commands : (v.weakened decode targets).commandPatches decode targets = [] := by
    unfold Image.commandPatches
    rw [List.filterMap_eq_nil_iff]
    intro c member
    change c ∈ placed 32 (v.commands.map (weakenedCommand decode targets)) at member
    rw [placed_weakened] at member
    obtain ⟨c, -, rfl⟩ := List.mem_map.mp member
    exact if_neg (not_flips_weakened _ _ c.2)
  refine ⟨commands, imports, ?_⟩
  unfold Image.patches
  rw [commands, imports, symbolPatches_eq_nil (Or.inl settled)]
  rfl

end

end MachoWeaken

end Xios
