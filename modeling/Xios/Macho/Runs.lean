import Xios.Macho.Steps

/-! What `weaken_slice` does to a well-formed image. -/

namespace Xios

namespace MachoWeaken

open Words Patching

theorem placed_bounds {commands : List LoadCommand} {p : Nat} :
    p ≤ placedEnd p commands ∧ ∀ c ∈ placed p commands,
      p ≤ c.1 ∧ c.1 + c.2.cmdsize ≤ placedEnd p commands := by
  -- Each load command begins where the one in front of it ends.
  induction commands generalizing p with
  | nil => exact ⟨Nat.le_refl _, by simp [placed]⟩
  | cons c commands ih =>
    obtain ⟨further, bounds⟩ := @ih (p + c.cmdsize)
    unfold placed placedEnd
    rw [List.forall_mem_cons]
    refine ⟨by omega, ⟨Nat.le_refl _, further⟩, fun d member => ?_⟩
    have bound := bounds d member
    exact ⟨by omega, bound.2⟩

theorem placed_pairwise {commands : List LoadCommand} {p : Nat} :
    (placed p commands).Pairwise fun c d => c.1 + c.2.cmdsize ≤ d.1 := by
  induction commands generalizing p with
  | nil => exact List.Pairwise.nil
  | cons c commands ih =>
    unfold placed
    rw [List.pairwise_cons]
    exact ⟨fun d member => (placed_bounds.2 d member).1, ih⟩

theorem entries_places {β : Type*} {R : Nat → β → Prop} {pos : β → Nat} {base stride : Nat}
    {ks : List Nat} {entries : List β} (related : List.Forall₂ R ks entries)
    (place : ∀ k entry, R k entry → pos entry = base + k * stride)
    (sorted : ks.Pairwise (· < ·)) :
    (∀ entry ∈ entries, ∃ k ∈ ks, R k entry) ∧
      entries.Pairwise fun first second => pos first + stride ≤ pos second := by
  induction related with
  | nil => exact ⟨by simp, List.Pairwise.nil⟩
  | @cons k entry ks entries first rest ih =>
    rw [List.pairwise_cons] at sorted
    obtain ⟨found, apart⟩ := ih sorted.2
    rw [List.forall_mem_cons, List.pairwise_cons]
    refine ⟨⟨⟨k, List.mem_cons_self, first⟩, fun other member => ?_⟩,
      fun other member => ?_, apart⟩
    · obtain ⟨k', inside, related⟩ := found other member
      exact ⟨k', List.mem_cons_of_mem _ inside, related⟩
    · obtain ⟨k', inside, related⟩ := found other member
      have later := Nat.mul_le_mul_right stride (sorted.1 k' inside)
      rw [place k entry first, place k' other related]
      rw [Nat.succ_eq_add_one, Nat.add_mul, Nat.one_mul] at later
      omega

theorem importFormat_width (format : Nat) :
    0 < (importFormat format).width ∧
      (importFormat format).width ≤ (importFormat format).stride := by
  unfold importFormat
  split
  · dsimp only
    split <;> omega
  · dsimp only
    omega

section

variable {en : Order} {data : Bytes} {f : ImportFormat} {imports : List Import}
  {dataoff datasize importsOff symbolsOff format : Nat}

theorem FixupsAt.entry
    (fixups : FixupsAt en data f imports dataoff datasize importsOff symbolsOff format)
    {i : Import} (member : i ∈ imports) : dataoff + 28 ≤ i.pos ∧
      i.pos + f.width ≤ dataoff + symbolsOff ∧ natAt en data i.pos f.width = some i.header ∧
      cstr data (dataoff + symbolsOff + f.nameOff i.header) = some i.name := by
  have front := fixups.front
  have table := fixups.table
  obtain ⟨found, -⟩ := entries_places fixups.entries
    (fun _ _ read => (importAt_eq_some.mp read).1) List.pairwise_lt_range
  obtain ⟨k, inside, read⟩ := found i member
  obtain ⟨place, header, name⟩ := importAt_eq_some.mp read
  have width := (importFormat_width format).2
  rw [← fixups.layout] at width
  -- The last entry ends where the table does.
  have last : (k + 1) * f.stride ≤ imports.length * f.stride :=
    Nat.mul_le_mul_right _ (List.mem_range.mp inside)
  rw [Nat.add_mul, Nat.one_mul] at last
  exact ⟨by omega, by omega, header, name⟩

theorem FixupsAt.pairwise
    (fixups : FixupsAt en data f imports dataoff datasize importsOff symbolsOff format) :
    imports.Pairwise fun i j => i.pos + f.width ≤ j.pos := by
  obtain ⟨-, apart⟩ := entries_places fixups.entries
    (fun _ _ read => (importAt_eq_some.mp read).1) List.pairwise_lt_range
  have width := (importFormat_width format).2
  rw [← fixups.layout] at width
  exact apart.imp fun later => by omega

variable {symbols : List Symbol} {symoff nsyms stroff strsize : Nat}

theorem SymbolsAt.entry (table : SymbolsAt en data symbols symoff nsyms stroff strsize)
    {s : Symbol} (member : s ∈ symbols) : symoff ≤ s.pos ∧ s.pos + 16 ≤ symoff + nsyms * 16 ∧
      natAt en data s.pos 4 = some s.strx ∧ natAt en data (s.pos + 4) 1 = some s.type ∧
      natAt en data (s.pos + 6) 2 = some s.desc ∧ cstr data (stroff + s.strx) = some s.name := by
  obtain ⟨found, -⟩ := entries_places table.entries
    (fun _ _ read => (symbolAt_eq_some.mp read).1) List.pairwise_lt_range
  obtain ⟨i, inside, read⟩ := found s member
  obtain ⟨place, rest⟩ := symbolAt_eq_some.mp read
  have last : i < nsyms := List.mem_range.mp inside
  exact ⟨by omega, by omega, rest⟩

theorem SymbolsAt.pairwise (table : SymbolsAt en data symbols symoff nsyms stroff strsize) :
    symbols.Pairwise fun s t => s.pos + 16 ≤ t.pos :=
  (entries_places table.entries
    (fun _ _ read => (symbolAt_eq_some.mp read).1) List.pairwise_lt_range).2

end

theorem Beside.mono {first second first' second' : Nat × Nat} (beside : Beside first second)
    (part : first.1 ≤ first'.1 ∧ first'.1 + first'.2 ≤ first.1 + first.2)
    (part' : second.1 ≤ second'.1 ∧ second'.1 + second'.2 ≤ second.1 + second.2) :
    Beside first' second' := by
  unfold Beside at beside ⊢
  omega

section

variable {data : Bytes} {v : Image}

theorem Layout.commands_inside (layout : Layout data v) :
    placedEnd 32 v.commands ≤ data.length := by
  have bound := layout.inside (0, placedEnd 32 v.commands) (by simp [Image.regions])
  simpa using bound

theorem Layout.fixups_place (layout : Layout data v) {dataoff datasize : Nat}
    (member : (dataoff, datasize) ∈ v.fixups) (room : 28 ≤ datasize) :
    placedEnd 32 v.commands ≤ dataoff ∧ dataoff + datasize ≤ data.length := by
  have apart := layout.apart
  unfold Image.regions at apart
  rw [List.cons_append, List.pairwise_cons] at apart
  have beside := apart.1 _ (List.mem_append_left _ member)
  have bound := layout.inside (dataoff, datasize) (by simp [Image.regions, member])
  unfold Beside at beside
  omega

theorem Layout.symtab_place (layout : Layout data v) {symoff nsyms stroff strsize : Nat}
    (member : (symoff, nsyms, stroff, strsize) ∈ v.symtabs) :
    (∀ region ∈ (0, placedEnd 32 v.commands) :: v.fixups,
      Beside region (symoff, nsyms * 16) ∧ Beside region (stroff, strsize)) ∧
    Beside (symoff, nsyms * 16) (stroff, strsize) := by
  have apart := layout.apart
  unfold Image.regions at apart
  rw [List.pairwise_append] at apart
  constructor
  · intro region there
    constructor
    · exact apart.2.2 region there _ (List.mem_flatMap.mpr ⟨_, member, by simp⟩)
    · exact apart.2.2 region there _ (List.mem_flatMap.mpr ⟨_, member, by simp⟩)
  · -- The two parts of one symbol table come one after the other.
    have parts := apart.2.1
    rw [List.pairwise_flatMap] at parts
    have own := parts.1 _ member
    simpa using own

end

section

variable {decode : Bytes → PyString} {targets : List PyString} {v : Image} {pre post data : Bytes}
  {patches : List (Patch UInt8)}

theorem weakenImports_eq {dataoff datasize importsOff symbolsOff format : Nat}
    (fixups : FixupsAt v.en data v.format v.imports dataoff datasize importsOff symbolsOff format)
    (inside : ∀ patch ∈ patches, patch.Inside data.length)
    (before : ∀ patch ∈ patches, patch.off + patch.new.length ≤ dataoff)
    (room : dataoff + datasize ≤ data.length) :
    weakenImports v.en (weakOrds (v.commands.filterMap (loadsWeak decode targets)))
      (pre ++ patched data patches ++ post) (pre.length + dataoff) = some {
        buf := pre ++ patched data (patches ++
          v.imports.filterMap (importPatch decode targets v)) ++ post
        weakNames := strongNames decode targets v v.imports
        impFlips := (v.imports.filterMap (importPatch decode targets v)).length
      } := by
  have front := fixups.front
  have table := fixups.table
  have space := fixups.room
  -- The load commands are patched before the chained fixups.
  have clear : ∀ {off n : Nat}, dataoff ≤ off → Clear patches off n := by
    intro off n later patch member
    have earlier := before patch member
    omega
  have last : ∃ n, natAt v.en data (dataoff + 24) 4 = some n := by
    unfold natAt Patching.read
    rw [if_pos (by omega)]
    exact ⟨_, rfl⟩
  obtain ⟨n, last⟩ := last
  unfold weakenImports
  rw [Nat.add_assoc, natAt_shown _ _ inside (clear (by omega)) fixups.importsAt]
  dsimp only [Option.bind_eq_bind, Option.bind_some]
  rw [Nat.add_assoc, natAt_shown _ _ inside (clear (by omega)) fixups.symbolsAt]
  dsimp only [Option.bind_some]
  rw [Nat.add_assoc, natAt_shown _ _ inside (clear (by omega)) fixups.count]
  dsimp only [Option.bind_some]
  rw [Nat.add_assoc, natAt_shown _ _ inside (clear (by omega)) fixups.kind]
  dsimp only [Option.bind_some]
  rw [Nat.add_assoc, natAt_shown _ _ inside (clear (by omega)) last]
  dsimp only [Option.bind_some]
  rw [← fixups.layout, Nat.add_assoc, Nat.add_assoc]
  rw [weakenImport_foldlM inside rfl fixups.entries ?_ fixups.pairwise ?_]
  · simp
  · intro i member
    have place := fixups.entry member
    exact ⟨clear (by omega), clear (by omega)⟩
  · intro i member j _
    have place := fixups.entry member
    omega

end

namespace Image

variable (decode : Bytes → PyString) (targets : List PyString) (v : Image)

def commandPatches : List (Patch UInt8) :=
  (placed 32 v.commands).filterMap (commandPatch decode targets v.en)

def importPatches : List (Patch UInt8) :=
  v.imports.filterMap (importPatch decode targets v)

def symbolPatches : List (Patch UInt8) :=
  v.symbols.filterMap (symbolPatch v.en (strongNames decode targets v v.imports))

def patches : List (Patch UInt8) :=
  v.commandPatches decode targets ++ v.importPatches decode targets ++
    v.symbolPatches decode targets

end Image

section

variable {decode : Bytes → PyString} {targets : List PyString} {v : Image} {pre post data : Bytes}

theorem commandPatches_place (decode : Bytes → PyString) (targets : List PyString)
    (layout : Layout data v) : ∀ patch ∈ v.commandPatches decode targets,
    patch.Inside data.length ∧ 32 ≤ patch.off ∧
      patch.off + patch.new.length ≤ placedEnd 32 v.commands := by
  intro patch member
  obtain ⟨c, inside, put⟩ := List.mem_filterMap.mp member
  obtain ⟨place, size⟩ := commandPatch_place put
  have small := (layout.commands c inside).2.small
  have bounds := placed_bounds.2 c inside
  have bound := layout.commands_inside
  unfold Patch.Inside
  omega

theorem importPatches_eq_nil (none : ∀ i ∈ v.imports, ¬v.Strong decode targets i) :
    v.importPatches decode targets = [] ∧ strongNames decode targets v v.imports = [] := by
  constructor
  · unfold Image.importPatches
    rw [List.filterMap_eq_nil_iff]
    intro i member
    exact if_neg (none i member)
  · unfold strongNames
    rw [List.reverse_eq_nil_iff, List.map_eq_nil_iff, List.filter_eq_nil_iff]
    simpa using none

theorem weakenChained_eq (layout : Layout data v) {scan : Scan}
    (buf : scan.buf = pre ++ patched data (v.commandPatches decode targets) ++ post)
    (weak : scan.dylibIsWeak = v.commands.filterMap (loadsWeak decode targets))
    (chained : scan.chained = v.fixups.getLast?) :
    weakenChained v.en pre.length scan = some {
      buf := pre ++ patched data (v.commandPatches decode targets ++
        v.importPatches decode targets) ++ post
      weakNames := strongNames decode targets v v.imports
      impFlips := (v.importPatches decode targets).length
    } := by
  unfold weakenChained
  rw [buf, weak, chained]
  have nothing : (∀ i ∈ v.imports, ¬v.Strong decode targets i) →
      some ({ buf := pre ++ patched data (v.commandPatches decode targets) ++ post } : Marks) =
      some {
        buf := pre ++ patched data (v.commandPatches decode targets ++
          v.importPatches decode targets) ++ post
        weakNames := strongNames decode targets v v.imports
        impFlips := (v.importPatches decode targets).length
      } := by
    intro none
    obtain ⟨patches, names⟩ := importPatches_eq_nil none
    rw [patches, names, List.append_nil]
    rfl
  have place := commandPatches_place decode targets layout
  -- The imports are only read if there are chained fixups, and a library that is weak.
  have fixups := layout.fixups
  split at fixups
  · rename_i empty
    rw [empty]
    exact nothing (by rw [fixups]; simp)
  · rename_i dataoff datasize one
    obtain ⟨importsOff, symbolsOff, format, table⟩ := fixups
    rw [one]
    dsimp only [List.getLast?_singleton]
    split
    · rename_i weak
      apply nothing
      intro i _ strong
      have member := strong.1
      unfold Image.IsWeak at member
      rw [weak] at member
      cases member
    · have front := table.front
      have table' := table.table
      have room := table.room
      have after := layout.fixups_place (by rw [one]; simp : (dataoff, datasize) ∈ v.fixups)
        (by omega)
      apply weakenImports_eq table (fun patch member => (place patch member).1) _ after.2
      intro patch member
      have before := (place patch member).2.2
      omega
  · exact fixups.elim

theorem importPatches_place (decode : Bytes → PyString) (targets : List PyString)
    (layout : Layout data v) : ∀ patch ∈ v.importPatches decode targets,
    patch.Inside data.length ∧ placedEnd 32 v.commands ≤ patch.off ∧
      ∃ region ∈ v.fixups, region.1 ≤ patch.off ∧
        patch.off + patch.new.length ≤ region.1 + region.2 := by
  intro patch member
  obtain ⟨i, inside, put⟩ := List.mem_filterMap.mp member
  obtain ⟨place, size⟩ := importPatch_place put
  have fixups := layout.fixups
  split at fixups
  · rw [fixups] at inside
    cases inside
  · rename_i dataoff datasize one
    obtain ⟨importsOff, symbolsOff, format, table⟩ := fixups
    have front := table.front
    have table' := table.table
    have room := table.room
    obtain ⟨first, last, -, -⟩ := table.entry inside
    have after := layout.fixups_place (by rw [one]; simp : (dataoff, datasize) ∈ v.fixups)
      (by omega)
    unfold Patch.Inside
    refine ⟨by omega, by omega, (dataoff, datasize), by rw [one]; simp, ?_, ?_⟩
    · dsimp only
      omega
    · dsimp only
      omega
  · exact fixups.elim

theorem patches_region (decode : Bytes → PyString) (targets : List PyString)
    (layout : Layout data v) :
    ∀ patch ∈ v.commandPatches decode targets ++ v.importPatches decode targets,
      patch.Inside data.length ∧ ∃ region ∈ (0, placedEnd 32 v.commands) :: v.fixups,
        region.1 ≤ patch.off ∧ patch.off + patch.new.length ≤ region.1 + region.2 := by
  rw [List.forall_mem_append]
  constructor
  · intro patch member
    obtain ⟨inside, first, last⟩ := commandPatches_place _ _ layout patch member
    refine ⟨inside, _, List.mem_cons_self, Nat.zero_le _, ?_⟩
    rwa [Nat.zero_add]
  · intro patch member
    obtain ⟨inside, -, region, there, part⟩ := importPatches_place _ _ layout patch member
    exact ⟨inside, region, List.mem_cons_of_mem _ there, part⟩

theorem symbols_eq (decode : Bytes → PyString) (targets : List PyString)
    (layout : Layout data v) (flips : Nat) :
    weakenSymbols v.en v.symtabs.getLast? {
      buf := patched data (v.commandPatches decode targets ++ v.importPatches decode targets)
      weakNames := strongNames decode targets v v.imports
      impFlips := flips
    } = some (patched data (v.patches decode targets)) := by
  have place := patches_region decode targets layout
  have symbols := layout.symbols
  unfold Image.patches Image.symbolPatches
  split at symbols
  · rename_i none
    rw [none, symbols]
    simp [weakenSymbols]
  · rename_i symoff nsyms stroff strsize one
    rw [one]
    unfold weakenSymbols
    dsimp only [List.getLast?_singleton]
    split
    · rename_i none
      rw [none]
      have nothing : v.symbols.filterMap (symbolPatch v.en []) = [] := by
        rw [List.filterMap_eq_nil_iff]
        intro s _
        exact if_neg fun named => by cases named.2.1
      rw [nothing, List.append_nil]
    · obtain ⟨beside, strings⟩ := layout.symtab_place
        (by rw [one]; simp : (symoff, nsyms, stroff, strsize) ∈ v.symtabs)
      apply weakenSymbol_foldlM (fun patch member => (place patch member).1) symbols.entries _
        symbols.pairwise
      · intro s member t member'
        obtain ⟨first, last, -⟩ := symbols.entry member
        have name := symbols.names t member'
        unfold Beside at strings
        omega
      · intro s member
        obtain ⟨first, last, -⟩ := symbols.entry member
        have name := symbols.names s member
        -- Each patch so far is in a part beside the symbols and beside their names.
        constructor
        · intro patch there
          obtain ⟨-, region, part, bounds⟩ := place patch there
          have apart := (beside region part).1
          unfold Beside at apart
          omega
        · intro patch there
          obtain ⟨-, region, part, bounds⟩ := place patch there
          have apart := (beside region part).2
          unfold Beside at apart
          omega
  · exact symbols.elim

theorem symbolPatches_eq_nil
    (none : (∀ i ∈ v.imports, ¬v.Strong decode targets i) ∨ v.symbols = []) :
    v.symbolPatches decode targets = [] := by
  unfold Image.symbolPatches
  rcases none with strong | symbols
  · rw [(importPatches_eq_nil strong).2, List.filterMap_eq_nil_iff]
    intro s _
    exact if_neg fun named => by cases named.2.1
  · rw [symbols]
    rfl

theorem symbols_eq_self (layout : Layout data v)
    (none : (∀ i ∈ v.imports, ¬v.Strong decode targets i) ∨ v.symbols = []) (buf : Bytes)
    (flips : Nat) :
    weakenSymbols v.en v.symtabs.getLast? {
      buf
      weakNames := strongNames decode targets v v.imports
      impFlips := flips
    } = some buf := by
  unfold weakenSymbols
  rcases none with strong | empty
  · rw [(importPatches_eq_nil strong).2]
    split <;> rfl
  · have symbols := layout.symbols
    split at symbols
    · rename_i none
      rw [none]
      rfl
    · rename_i symoff nsyms stroff strsize one
      have none : nsyms = 0 := by
        rw [symbols.count, empty]
        rfl
      rw [one, none]
      dsimp only [List.getLast?_singleton]
      split <;> rfl
    · exact symbols.elim

theorem sliceOrder_magicOf (en : Order) : sliceOrder (magicOf en) = some en := by
  cases en <;> rfl

/-- One slice is patched where its own view says, in any file around it. -/
theorem weakenSlice_eq (decode : Bytes → PyString) (targets : List PyString) (pre post : Bytes)
    (layout : Layout data v)
    (found : (pre = [] ∧ post = []) ∨ (∀ i ∈ v.imports, ¬v.Strong decode targets i) ∨
      v.symbols = []) :
    weakenSlice decode targets (pre ++ data ++ post) pre.length =
      some (pre ++ patched data (v.patches decode targets) ++ post,
        (v.commandPatches decode targets).length, (v.importPatches decode targets).length) := by
  have magic : natAt .little (pre ++ data ++ post) pre.length 4 = some (magicOf v.en) :=
    natAt_embed pre post layout.magic
  have count := natAt_embed pre post layout.count
  have scan := scanCommands_eq decode targets pre post []
    { buf := pre ++ data ++ post, p := pre.length + 32 } (by simp) (by simp) rfl rfl
    layout.commands
  unfold weakenSlice
  rw [magic]
  dsimp only [Option.bind_eq_bind, Option.bind_some]
  rw [sliceOrder_magicOf]
  dsimp only
  rw [count]
  dsimp only [Option.bind_some]
  rw [scan]
  dsimp only [Option.bind_some]
  rw [weakenChained_eq layout rfl rfl (Option.or_none (o := _))]
  dsimp only [Option.bind_some]
  rw [Option.or_none, Nat.zero_add]
  rcases found with ⟨rfl, rfl⟩ | absent
  · -- The symbol table of a whole file is found where it stands.
    have symbols := symbols_eq decode targets layout
      (v.importPatches decode targets).length
    rw [List.nil_append, List.append_nil, List.nil_append, List.append_nil]
    unfold Image.symtabs at symbols
    rw [symbols]
    rfl
  · have patches : v.patches decode targets =
        v.commandPatches decode targets ++ v.importPatches decode targets := by
      unfold Image.patches
      rw [symbolPatches_eq_nil absent, List.append_nil]
    rw [patches]
    have symbols := symbols_eq_self layout absent
    unfold Image.symtabs at symbols
    rw [symbols]
    rfl

end

end MachoWeaken

end Xios
