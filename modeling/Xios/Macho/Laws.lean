import Xios.Macho.Bits

/-! A well-formed image is weakened just if the symbols that were weak already are marked. -/

namespace Xios

namespace MachoWeaken

open Words Patching

section

variable {en : Order} {data : Bytes} {patches : List (Patch UInt8)}

theorem natAt_patched (inside : ∀ patch ∈ patches, patch.Inside data.length) {off width : Nat}
    (clear : Clear patches off width) :
    natAt en (patched data patches) off width = natAt en data off width := by
  unfold natAt
  rw [read_patched inside clear]

theorem natAt_patched_of_mem (inside : ∀ patch ∈ patches, patch.Inside data.length)
    (apart : patches.Pairwise Apart) {off width n : Nat}
    (member : ⟨off, en.bytes width n⟩ ∈ patches) (fits : n < 256 ^ width) :
    natAt en (patched data patches) off width = some n := by
  have found := read_patched_of_mem inside apart member
  rw [Order.length_bytes] at found
  unfold natAt
  rw [found, Option.map_some, en.value_bytes fits]

theorem cstr_patched (inside : ∀ patch ∈ patches, patch.Inside data.length) {off : Nat}
    {name : Bytes} (clear : Clear patches off (name.length + 1))
    (found : cstr data off = some name) : cstr (patched data patches) off = some name :=
  readUntil_patched inside found clear

end

section

variable {data : Bytes} {v : Image}

theorem Layout.import_place (layout : Layout data v) {i : Import} (member : i ∈ v.imports) :
    ∃ region ∈ v.fixups, ∃ sbase, placedEnd 32 v.commands ≤ region.1 ∧ region.1 + 28 ≤ i.pos ∧
      (∀ j ∈ v.imports, j.pos + v.format.width ≤ sbase) ∧
      sbase + v.format.nameOff i.header + (i.name.length + 1) ≤ region.1 + region.2 ∧
      region.1 + region.2 ≤ data.length ∧
      natAt v.en data i.pos v.format.width = some i.header ∧
      cstr data (sbase + v.format.nameOff i.header) = some i.name := by
  have fixups := layout.fixups
  split at fixups
  · rw [fixups] at member
    cases member
  · rename_i dataoff datasize one
    obtain ⟨importsOff, symbolsOff, format, table⟩ := fixups
    have front := table.front
    have table' := table.table
    have room := table.room
    have name := table.names i member
    obtain ⟨first, last, header, string⟩ := table.entry member
    have after := layout.fixups_place (by rw [one]; simp : (dataoff, datasize) ∈ v.fixups)
      (by omega)
    refine ⟨(dataoff, datasize), by rw [one]; simp, dataoff + symbolsOff, after.1, first,
      fun j there => (table.entry there).2.1, ?_, after.2, header, string⟩
    omega
  · exact fixups.elim

theorem Layout.imports_apart (layout : Layout data v) :
    v.imports.Pairwise fun i j => i.pos + v.format.width ≤ j.pos := by
  have fixups := layout.fixups
  split at fixups
  · rw [fixups]
    exact List.Pairwise.nil
  · obtain ⟨importsOff, symbolsOff, format, table⟩ := fixups
    exact table.pairwise
  · exact fixups.elim

theorem Layout.symbol_place (layout : Layout data v) {s : Symbol} (member : s ∈ v.symbols) :
    ∃ stroff, (∀ symtab ∈ v.symtabs, symtab.2.2.1 = stroff) ∧
      placedEnd 32 v.commands ≤ s.pos ∧ s.pos + 16 ≤ data.length ∧
      placedEnd 32 v.commands ≤ stroff + s.strx ∧
      (∀ region ∈ v.fixups, Beside region (s.pos, 16) ∧
        Beside region (stroff + s.strx, s.name.length + 1)) ∧
      (∀ t ∈ v.symbols, Beside (t.pos, 16) (stroff + s.strx, s.name.length + 1)) ∧
      natAt v.en data s.pos 4 = some s.strx ∧ natAt v.en data (s.pos + 4) 1 = some s.type ∧
      natAt v.en data (s.pos + 6) 2 = some s.desc ∧ cstr data (stroff + s.strx) = some s.name := by
  have symbols := layout.symbols
  split at symbols
  · rw [symbols] at member
    cases member
  · rename_i symoff nsyms stroff strsize one
    obtain ⟨first, last, strx, type, desc, string⟩ := symbols.entry member
    have name := symbols.names s member
    obtain ⟨beside, strings⟩ := layout.symtab_place
      (by rw [one]; simp : (symoff, nsyms, stroff, strsize) ∈ v.symtabs)
    have bound := layout.inside (symoff, nsyms * 16) (by simp [Image.regions, one])
    have front := beside (0, placedEnd 32 v.commands) List.mem_cons_self
    have low : 32 ≤ placedEnd 32 v.commands := placed_bounds.1
    unfold Beside at front strings
    refine ⟨stroff, by rw [one]; simp, by omega, by omega, by omega, fun region there => ?_,
      fun t there => ?_, strx, type, desc, string⟩
    · have apart := beside region (List.mem_cons_of_mem _ there)
      refine ⟨apart.1.mono ⟨Nat.le_refl _, Nat.le_refl _⟩ ⟨first, last⟩,
        apart.2.mono ⟨Nat.le_refl _, Nat.le_refl _⟩ ⟨Nat.le_add_right _ _, ?_⟩⟩
      omega
    · obtain ⟨first', last', -⟩ := symbols.entry there
      unfold Beside
      omega
  · exact symbols.elim

theorem Layout.symbols_apart (layout : Layout data v) :
    v.symbols.Pairwise fun s t => s.pos + 16 ≤ t.pos := by
  have symbols := layout.symbols
  split at symbols
  · rw [symbols]
    exact List.Pairwise.nil
  · exact symbols.pairwise
  · exact symbols.elim

end

namespace Image

variable (decode : Bytes → PyString) (targets : List PyString) (v : Image)

/-- The symbol has to be marked. -/
def Unmarked (s : Symbol) : Prop :=
  s.IsUndefined ∧ s.name ∈ strongNames decode targets v v.imports ∧ s.desc &&& nWeakRef = 0

end Image

section

variable {decode : Bytes → PyString} {targets : List PyString} {data : Bytes} {v : Image}

theorem mem_patches {patch : Patch UInt8} : patch ∈ v.patches decode targets ↔
    (∃ c ∈ placed 32 v.commands, Flips decode targets c.2 ∧
      patch = ⟨c.1, v.en.bytes 4 lcLoadWeakDylib⟩) ∨
    (∃ i ∈ v.imports, v.Strong decode targets i ∧
      patch = ⟨i.pos, v.en.bytes v.format.width (v.format.weaken i.header)⟩) ∨
    ∃ s ∈ v.symbols, v.Unmarked decode targets s ∧
      patch = ⟨s.pos + 6, v.en.bytes 2 (s.desc ||| nWeakRef)⟩ := by
  unfold Image.patches Image.commandPatches Image.importPatches Image.symbolPatches
  rw [List.mem_append, List.mem_append, List.mem_filterMap, List.mem_filterMap,
    List.mem_filterMap, or_assoc]
  unfold commandPatch importPatch symbolPatch Image.Unmarked
  simp only [Option.ite_none_right_eq_some, Option.some.injEq, eq_comm (b := patch)]

theorem clear_patches {off n : Nat}
    (commands : ∀ c ∈ placed 32 v.commands, Flips decode targets c.2 →
      c.1 + 4 ≤ off ∨ off + n ≤ c.1)
    (imports : ∀ i ∈ v.imports, v.Strong decode targets i →
      i.pos + v.format.width ≤ off ∨ off + n ≤ i.pos)
    (symbols : ∀ s ∈ v.symbols, v.Unmarked decode targets s →
      s.pos + 8 ≤ off ∨ off + n ≤ s.pos + 6) : Clear (v.patches decode targets) off n := by
  intro patch member
  rcases mem_patches.mp member with ⟨c, inside, own, rfl⟩ | ⟨i, inside, own, rfl⟩ |
    ⟨s, inside, own, rfl⟩
  · rw [Order.length_bytes]
    exact commands c inside own
  · rw [Order.length_bytes]
    exact imports i inside own
  · rw [Order.length_bytes]
    have apart := symbols s inside own
    omega

theorem clear_behind (layout : Layout data v) {off n : Nat}
    (behind : placedEnd 32 v.commands ≤ off)
    (imports : ∀ i ∈ v.imports, v.Strong decode targets i →
      i.pos + v.format.width ≤ off ∨ off + n ≤ i.pos)
    (symbols : ∀ s ∈ v.symbols, v.Unmarked decode targets s →
      s.pos + 8 ≤ off ∨ off + n ≤ s.pos + 6) : Clear (v.patches decode targets) off n := by
  refine clear_patches (fun c inside _ => .inl ?_) imports symbols
  have small := (layout.commands c inside).2.small
  have bounds := placed_bounds.2 c inside
  omega

theorem patches_inside (decode : Bytes → PyString) (targets : List PyString)
    (layout : Layout data v) :
    ∀ patch ∈ v.patches decode targets, patch.Inside data.length := by
  intro patch member
  unfold Patch.Inside
  rcases mem_patches.mp member with ⟨c, inside, own, rfl⟩ | ⟨i, inside, own, rfl⟩ |
    ⟨s, inside, own, rfl⟩
  · have small := (layout.commands c inside).2.small
    have bounds := placed_bounds.2 c inside
    have bound := layout.commands_inside
    rw [Order.length_bytes]
    dsimp only
    omega
  · obtain ⟨region, -, sbase, -, -, -, -, -, header, -⟩ := layout.import_place inside
    rw [Order.length_bytes]
    exact natAt_inside header
  · obtain ⟨stroff, -, -, -, -, -, -, -, -, desc, -⟩ := layout.symbol_place inside
    rw [Order.length_bytes]
    exact natAt_inside desc

/-- No two patches of an image meet. -/
theorem patches_apart (layout : Layout data v) :
    (v.patches decode targets).Pairwise Apart := by
  unfold Image.patches
  rw [List.pairwise_append, List.pairwise_append]
  have commands := commandPatches_place decode targets layout
  have imports := importPatches_place decode targets layout
  have symbols : ∀ patch ∈ v.symbolPatches decode targets, ∃ s ∈ v.symbols,
      patch.off = s.pos + 6 ∧ patch.new.length = 2 := by
    intro patch member
    obtain ⟨s, inside, put⟩ := List.mem_filterMap.mp member
    exact ⟨s, inside, symbolPatch_place put⟩
  refine ⟨⟨?_, ?_, ?_⟩, ?_, ?_⟩
  · apply apart_filterMap fun _ _ put => commandPatch_place put
    apply placed_pairwise.imp_of_mem
    intro c d inside _ later
    have small := (layout.commands c inside).2.small
    omega
  · exact apart_filterMap (fun _ _ put => importPatch_place put) layout.imports_apart
  · intro first member second member'
    have before := commands first member
    have after := imports second member'
    unfold Apart
    omega
  · apply apart_filterMap fun _ _ put => symbolPatch_place put
    apply layout.symbols_apart.imp
    intro s t later
    omega
  · -- Symbols stand after the load commands, and beside the imports.
    intro first member second member'
    unfold Apart
    obtain ⟨s, inside, place, size⟩ := symbols second member'
    obtain ⟨stroff, -, front, -, -, beside, -⟩ := layout.symbol_place inside
    rcases List.mem_append.mp member with command | imported
    · have before := commands first command
      omega
    · obtain ⟨-, -, region, there, part⟩ := imports first imported
      have apart := (beside region there).1
      unfold Beside at apart
      omega

theorem pairwise_cases {α : Type*} {R : α → α → Prop} {items : List α} (sorted : items.Pairwise R)
    {x y : α} (first : x ∈ items) (second : y ∈ items) : x = y ∨ R x y ∨ R y x := by
  induction sorted with
  | nil => cases first
  | @cons z items before _ ih =>
    rcases List.mem_cons.mp first with rfl | first'
    · rcases List.mem_cons.mp second with rfl | second'
      · exact Or.inl rfl
      · exact Or.inr (Or.inl (before y second'))
    · rcases List.mem_cons.mp second with rfl | second'
      · exact Or.inr (Or.inr (before x first'))
      · exact ih first' second'

theorem clear_header (layout : Layout data v) {off n : Nat} (within : off + n ≤ 32) :
    Clear (v.patches decode targets) off n := by
  have low : 32 ≤ placedEnd 32 v.commands := placed_bounds.1
  apply clear_patches
  · intro c inside _
    have bounds := placed_bounds.2 c inside
    omega
  · intro i inside _
    obtain ⟨region, -, sbase, front, first, -⟩ := layout.import_place inside
    omega
  · intro s inside _
    obtain ⟨stroff, -, front, -⟩ := layout.symbol_place inside
    omega

theorem clear_command (layout : Layout data v) {c : Nat × LoadCommand}
    (member : c ∈ placed 32 v.commands) {skip : Nat}
    (kept : Flips decode targets c.2 → 4 ≤ skip) (part : skip ≤ c.2.cmdsize) :
    Clear (v.patches decode targets) (c.1 + skip) (c.2.cmdsize - skip) := by
  have bounds := placed_bounds.2 c member
  apply clear_patches
  · intro d inside flips
    have small := (layout.commands d inside).2.small
    rcases pairwise_cases placed_pairwise inside member with rfl | before | after
    · have own := kept flips
      omega
    · omega
    · omega
  · intro i inside _
    obtain ⟨region, -, sbase, front, first, -⟩ := layout.import_place inside
    omega
  · intro s inside _
    obtain ⟨stroff, -, front, -⟩ := layout.symbol_place inside
    omega

theorem clear_fixups (layout : Layout data v) {dataoff datasize : Nat}
    (one : v.fixups = [(dataoff, datasize)]) {n : Nat} (within : n ≤ 28) (room : 28 ≤ datasize) :
    Clear (v.patches decode targets) dataoff n := by
  have after := layout.fixups_place (by rw [one]; simp : (dataoff, datasize) ∈ v.fixups) room
  apply clear_behind layout
  · omega
  · intro i inside _
    obtain ⟨region, there, sbase, front, first, -⟩ := layout.import_place inside
    rw [one, List.mem_singleton] at there
    rw [there] at first
    omega
  · intro s inside _
    obtain ⟨stroff, -, front, -, -, beside, -⟩ := layout.symbol_place inside
    have apart := (beside (dataoff, datasize) (by rw [one]; simp)).1
    unfold Beside at apart
    omega

theorem clear_import (layout : Layout data v) {i : Import} (member : i ∈ v.imports)
    (kept : ¬v.Strong decode targets i) :
    Clear (v.patches decode targets) i.pos v.format.width := by
  obtain ⟨region, there, sbase, front, first, last, name, bound, -⟩ := layout.import_place member
  have before := last i member
  apply clear_behind layout
  · omega
  · intro j inside strong
    rcases pairwise_cases layout.imports_apart inside member with rfl | earlier | later
    · exact absurd strong kept
    · exact Or.inl earlier
    · exact Or.inr later
  · intro s inside _
    obtain ⟨stroff, -, -, -, -, beside, -⟩ := layout.symbol_place inside
    have apart := (beside region there).1
    unfold Beside at apart
    omega

theorem clear_symbol (layout : Layout data v) {s : Symbol} (member : s ∈ v.symbols) {skip n : Nat}
    (part : skip + n ≤ 8) (kept : v.Unmarked decode targets s → skip + n ≤ 6) :
    Clear (v.patches decode targets) (s.pos + skip) n := by
  obtain ⟨stroff, -, front, -, -, beside, -⟩ := layout.symbol_place member
  apply clear_behind layout
  · omega
  · intro i inside _
    obtain ⟨region, there, sbase, -, first, last, name, -⟩ := layout.import_place inside
    have before := last i inside
    have apart := (beside region there).1
    unfold Beside at apart
    omega
  · intro t inside unmarked
    rcases pairwise_cases layout.symbols_apart inside member with rfl | earlier | later
    · have own := kept unmarked
      omega
    · omega
    · omega

theorem Layout.format_eq (layout : Layout data v) {i : Import} (member : i ∈ v.imports) :
    ∃ format, v.format = importFormat format := by
  have fixups := layout.fixups
  split at fixups
  · rw [fixups] at member
    cases member
  · obtain ⟨importsOff, symbolsOff, format, table⟩ := fixups
    exact ⟨format, table.layout⟩
  · exact fixups.elim

theorem mem_strongNames {name : Bytes} : name ∈ strongNames decode targets v v.imports ↔
    ∃ i ∈ v.imports, v.Strong decode targets i ∧ i.name = name := by
  unfold strongNames
  simp [and_assoc]

theorem natAt_import (decode : Bytes → PyString) (targets : List PyString)
    (layout : Layout data v) {i : Import} (member : i ∈ v.imports) :
    natAt v.en (patched data (v.patches decode targets)) i.pos v.format.width =
      some (if v.Strong decode targets i then v.format.weaken i.header else i.header) := by
  obtain ⟨region, -, sbase, -, -, -, -, -, header, -⟩ := layout.import_place member
  split
  · rename_i strong
    obtain ⟨format, same⟩ := layout.format_eq member
    apply natAt_patched_of_mem (patches_inside _ _ layout) (patches_apart layout)
    · exact mem_patches.mpr (Or.inr (Or.inl ⟨i, member, strong, rfl⟩))
    · have fits := natAt_lt header
      rw [same] at fits ⊢
      exact weaken_lt fits
  · rename_i kept
    rw [natAt_patched (patches_inside _ _ layout) (clear_import layout member kept), header]

theorem natAt_symbol (decode : Bytes → PyString) (targets : List PyString)
    (layout : Layout data v) {s : Symbol} (member : s ∈ v.symbols) :
    (v.Unmarked decode targets s →
      natAt v.en (patched data (v.patches decode targets)) (s.pos + 6) 2 =
        some (s.desc ||| nWeakRef)) ∧
    (¬v.Unmarked decode targets s →
      natAt v.en (patched data (v.patches decode targets)) (s.pos + 6) 2 = some s.desc) := by
  obtain ⟨stroff, -, -, -, -, -, -, -, -, desc, -⟩ := layout.symbol_place member
  constructor
  · intro unmarked
    apply natAt_patched_of_mem (patches_inside _ _ layout) (patches_apart layout)
    · exact mem_patches.mpr (Or.inr (Or.inr ⟨s, member, unmarked, rfl⟩))
    · exact or_nWeakRef_lt (natAt_lt desc)
  · intro kept
    have clear : Clear (v.patches decode targets) (s.pos + 6) 2 :=
      clear_symbol layout member (by omega) fun unmarked => absurd unmarked kept
    rw [natAt_patched (patches_inside _ _ layout) clear, desc]

/-- The patches make the image weak unless a symbol was missed. -/
theorem weakened_iff (layout : Layout data v) :
    v.Weakened decode targets data (patched data (v.patches decode targets)) ↔
      v.Marked decode targets := by
  have inside := patches_inside decode targets layout
  constructor
  · -- A symbol that is not marked, and is not put right, is not as it should be.
    intro weakened s member named
    by_contra neither
    rw [not_or, not_not] at neither
    have kept : ¬v.Unmarked decode targets s := fun unmarked =>
      neither.2 (mem_strongNames.mp unmarked.2.1)
    have before := (natAt_symbol _ _ layout member).2 kept
    rw [weakened.symbols s member named, Option.some.injEq] at before
    exact and_nWeakRef_ne_zero before neither.1
  · intro marked
    refine ⟨length_patched inside, ?_, ?_, ?_, ?_⟩
    · intro c member flips
      apply natAt_patched_of_mem inside (patches_apart layout)
      · exact mem_patches.mpr (Or.inl ⟨c, member, flips, rfl⟩)
      · decide
    · intro i member weak
      rw [natAt_import _ _ layout member]
      split
      · rfl
      · rename_i kept
        have already : v.format.weak i.header ≠ 0 := fun strong => kept ⟨weak, strong⟩
        rw [weaken_eq_self already]
    · intro s member named
      -- A symbol without the mark has a strong import, whose name is looked for.
      by_cases already : s.desc &&& nWeakRef = 0
      · have strong := (marked s member named).resolve_left (not_not_intro already)
        exact (natAt_symbol _ _ layout member).1 ⟨named.1, mem_strongNames.mpr strong, already⟩
      · have kept : ¬v.Unmarked decode targets s := fun unmarked => already unmarked.2.2
        rw [(natAt_symbol _ _ layout member).2 kept, or_nWeakRef_eq_self already]
    · -- A patch covers what is allowed to change only.
      intro q commands imports symbols
      apply getElem?_patched inside
      intro patch member covers
      unfold Patch.Covers at covers
      rcases mem_patches.mp member with ⟨c, there, own, rfl⟩ | ⟨i, there, own, rfl⟩ |
        ⟨s, there, own, rfl⟩
      · rw [Order.length_bytes] at covers
        exact commands c there own covers
      · rw [Order.length_bytes] at covers
        exact imports i there own.1 covers
      · rw [Order.length_bytes] at covers
        obtain ⟨i, imported, strong, name⟩ := mem_strongNames.mp own.2.1
        exact symbols s there ⟨own.1, i, imported, strong.1, name⟩ covers

end

end MachoWeaken

end Xios
