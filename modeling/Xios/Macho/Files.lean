import Xios.Macho.Again

/-! What `macho-weaken.py` does to files of one image, and to files of several slices. -/

namespace Xios

namespace MachoWeaken

open Words Patching

/-- An image, and where it stands in a file. -/
structure Slice where
  off : Nat
  data : Bytes
  image : Image

/-- What a file is made of. -/
inductive Container
  | thin (image : Image)
  | fat (slices : List Slice)

def Container.slices (file : Bytes) : Container → List Slice
  | .thin image => [{ off := 0, data := file, image }]
  | .fat slices => slices

/-- The slice stands where an entry of the table of slices tells. -/
structure SliceAt (file : Bytes) (i : Nat) (s : Slice) : Prop where
  off : natAt .big file (8 + i * 20 + 8) 4 = some s.off
  size : natAt .big file (8 + i * 20 + 12) 4 = some s.data.length
  data : Patching.read file s.off s.data.length = some s.data
  layout : Layout s.data s.image

/-- The table of slices is well-formed, and the slices have no place in common. -/
structure SlicesAt (file : Bytes) (slices : List Slice) : Prop where
  magic : natAt .big file 0 4 = some fatMagic
  count : natAt .big file 4 4 = some slices.length
  entries : List.Forall₂ (SliceAt file) (List.range slices.length) slices
  apart : ((0, 8 + slices.length * 20) ::
    slices.map fun s => (s.off, s.data.length)).Pairwise Beside

/-- What a file holds. -/
def FileAt (file : Bytes) : Container → Prop
  | .thin image => Layout file image
  | .fat slices => SlicesAt file slices

section

variable (decode : Bytes → PyString) (targets : List PyString)

/-- A symbol table is found where the code looks for it, or is not looked for. -/
def Container.Found : Container → Prop
  | .thin _ => True
  | .fat slices => ∀ s ∈ slices,
    (∀ i ∈ s.image.imports, ¬s.image.Strong decode targets i) ∨ s.image.symbols = []

/-- A file becomes another one in which each image is made weak, as it would be alone. -/
structure Settles (c : Container) (file out : Bytes) : Prop where
  done : ∃ lc imp, process decode targets file = some (out, lc, imp)
  length : out.length = file.length
  slices : ∀ s ∈ c.slices file, ∃ data, Patching.read out s.off s.data.length = some data ∧
    s.image.Weakened decode targets s.data data ∧
    ∃ lc imp, process decode targets s.data = some (data, lc, imp)
  others : ∀ q, (∀ s ∈ c.slices file, ¬(s.off ≤ q ∧ q < s.off + s.data.length)) →
    out[q]? = file[q]?
  again : process decode targets out = some (out, 0, 0)

end

section

variable {decode : Bytes → PyString} {targets : List PyString} {v : Image} {file data : Bytes}

theorem magic_thin (layout : Layout data v) :
    ∃ magic, natAt .big data 0 4 = some magic ∧ ¬(magic = fatMagic ∨ magic = fatCigam) := by
  have magic := layout.magic
  unfold natAt at magic ⊢
  obtain ⟨bytes, found, value⟩ := Option.map_eq_some_iff.mp magic
  have length := (length_of_read found).1
  have same := Order.bytes_value .little bytes
  rw [length, value] at same
  rw [found, ← same]
  refine ⟨_, rfl, ?_⟩
  cases v.en <;> decide

theorem patches_eq_nil (decode : Bytes → PyString) (targets : List PyString)
    (commands : (v.commandPatches decode targets).length = 0)
    (imports : (v.importPatches decode targets).length = 0) : v.patches decode targets = [] := by
  rw [List.length_eq_zero_iff] at commands imports
  have strong : ∀ i ∈ v.imports, ¬v.Strong decode targets i := by
    intro i member strong
    have absent := List.filterMap_eq_nil_iff.mp imports i member
    unfold importPatch at absent
    rw [if_pos strong] at absent
    cases absent
  have symbols := symbolPatches_eq_nil (Or.inl strong)
  unfold Image.patches
  rw [commands, imports, symbols]
  rfl

theorem process_thin (decode : Bytes → PyString) (targets : List PyString)
    (layout : Layout data v) : process decode targets data =
    some (patched data (v.patches decode targets), (v.commandPatches decode targets).length,
      (v.importPatches decode targets).length) := by
  obtain ⟨magic, found, thin⟩ := magic_thin layout
  have whole := weakenSlice_eq decode targets [] [] layout (Or.inl ⟨rfl, rfl⟩)
  rw [List.nil_append, List.append_nil, List.nil_append, List.append_nil, List.length_nil] at whole
  unfold process
  rw [found]
  dsimp only [Option.bind_eq_bind, Option.bind_some]
  rw [if_neg thin, whole]
  dsimp only [Option.bind_some]
  split
  · rfl
  · rename_i none
    rw [patches_eq_nil _ _ (by omega) (by omega)]
    rfl

theorem process_weakened (layout : Layout data v) :
    process decode targets (patched data (v.patches decode targets)) =
      some (patched data (v.patches decode targets), 0, 0) := by
  obtain ⟨commands, imports, all⟩ := patches_weakened decode targets layout
  have again := process_thin decode targets
    (layout_weakened decode targets layout)
  rw [commands, imports, all] at again
  exact again

end

namespace Slice

variable (decode : Bytes → PyString) (targets : List PyString) (s : Slice)

def patches : List (Patch UInt8) :=
  (s.image.patches decode targets).map (Patch.shift s.off)

def weakened : Slice where
  off := s.off
  data := patched s.data (s.image.patches decode targets)
  image := s.image.weakened decode targets

end Slice

section

variable {decode : Bytes → PyString} {targets : List PyString} {file : Bytes} {s : Slice}

theorem Slice.patches_place (layout : Layout s.data s.image) {patch : Patch UInt8}
    (member : patch ∈ s.patches decode targets) :
    s.off ≤ patch.off ∧ patch.off + patch.new.length ≤ s.off + s.data.length := by
  obtain ⟨own, there, rfl⟩ := List.mem_map.mp member
  have inside := patches_inside _ _ layout own there
  unfold Patch.Inside at inside
  unfold Patch.shift
  dsimp only
  omega

theorem Slice.read_patches (layout : Layout s.data s.image)
    (found : Patching.read file s.off s.data.length = some s.data) :
    Patching.read (patched file (s.patches decode targets)) s.off s.data.length =
      some (patched s.data (s.image.patches decode targets)) := by
  have inside := patches_inside decode targets layout
  obtain ⟨pre, post, rfl, first⟩ := exists_of_read found
  unfold Slice.patches
  rw [← first, patched_embed inside]
  have own := read_middle pre post (patched s.data (s.image.patches decode targets))
  rwa [length_patched inside] at own

theorem weakenSlice_slice (layout : Layout s.data s.image)
    (found : Patching.read file s.off s.data.length = some s.data)
    (absent : (∀ i ∈ s.image.imports, ¬s.image.Strong decode targets i) ∨
      s.image.symbols = []) :
    weakenSlice decode targets file s.off = some (patched file (s.patches decode targets),
      (s.image.commandPatches decode targets).length,
      (s.image.importPatches decode targets).length) := by
  obtain ⟨pre, post, rfl, first⟩ := exists_of_read found
  unfold Slice.patches
  rw [← first, weakenSlice_eq decode targets pre post layout (Or.inr absent),
    patched_embed (patches_inside _ _ layout)]

/-- Each slice is weakened in its place, and no slice sees what another one changed. -/
theorem weakenArch_foldlM (decode : Bytes → PyString) (targets : List PyString)
    (done : List (Patch UInt8)) (top lc imp : Nat) {ks : List Nat} {slices : List Slice}
    (found : List.Forall₂ (SliceAt file) ks slices)
    (table : ∀ k ∈ ks, 8 + k * 20 + 12 ≤ top) (after : ∀ s ∈ slices, top ≤ s.off)
    (apart : slices.Pairwise fun s t => Beside (s.off, s.data.length) (t.off, t.data.length))
    (absent : ∀ s ∈ slices, (∀ i ∈ s.image.imports, ¬s.image.Strong decode targets i) ∨
      s.image.symbols = [])
    (inside : ∀ patch ∈ done, patch.Inside file.length)
    (clear : ∀ s ∈ slices, Clear done s.off s.data.length) (front : Clear done 0 top) :
    ks.foldlM (weakenArch decode targets) (patched file done, lc, imp) =
      some (patched file (done ++ slices.flatMap (Slice.patches decode targets)),
        lc + (slices.map fun s => (s.image.commandPatches decode targets).length).sum,
        imp + (slices.map fun s => (s.image.importPatches decode targets).length).sum) := by
  -- What was put so far is clear of the table and of the slices that are left.
  induction found generalizing done lc imp with
  | nil => simp
  | @cons k s ks slices first rest ih =>
    rw [List.forall_mem_cons] at table after absent clear
    rw [List.pairwise_cons] at apart
    have layout := first.layout
    have bound := (length_of_read first.data).2
    have place : natAt .big (patched file done) (8 + k * 20 + 8) 4 = some s.off := by
      rw [natAt_patched inside (front.mono (Nat.zero_le _) (by omega))]
      exact first.off
    have window : Patching.read (patched file done) s.off s.data.length = some s.data := by
      rw [read_patched inside clear.1]
      exact first.data
    rw [List.foldlM_cons]
    unfold weakenArch
    rw [place]
    dsimp only [Option.bind_eq_bind, Option.bind_some]
    rw [weakenSlice_slice layout window absent.1]
    dsimp only [Option.bind_some]
    rw [← patched_append]
    -- The slice is patched where it stands, which is clear of the others and of the table.
    change ks.foldlM (weakenArch decode targets) _ = _
    rw [ih _ _ _ table.2 after.2 apart.2 absent.2]
    · rw [List.flatMap_cons, List.map_cons, List.map_cons, List.sum_cons, List.sum_cons,
        List.append_assoc, Nat.add_assoc, Nat.add_assoc]
    · rw [List.forall_mem_append]
      refine ⟨inside, fun patch member => ?_⟩
      have own := Slice.patches_place layout member
      unfold Patch.Inside
      omega
    · intro t member
      rw [clear_append]
      refine ⟨clear.2 t member, fun patch there => ?_⟩
      have own := Slice.patches_place layout there
      have beside := apart.1 t member
      unfold Beside at beside
      omega
    · rw [clear_append]
      refine ⟨front, fun patch there => ?_⟩
      have own := Slice.patches_place layout there
      have later := after.1
      omega

end

def slicesPatches (decode : Bytes → PyString) (targets : List PyString) (slices : List Slice) :
    List (Patch UInt8) :=
  slices.flatMap (Slice.patches decode targets)

section

variable {decode : Bytes → PyString} {targets : List PyString} {file : Bytes}
  {slices : List Slice}

theorem SlicesAt.slice_place (table : SlicesAt file slices) {s : Slice} (member : s ∈ slices) :
    Patching.read file s.off s.data.length = some s.data ∧ Layout s.data s.image ∧
      8 + slices.length * 20 ≤ s.off ∧ s.off + s.data.length ≤ file.length := by
  have entries := table.entries
  obtain ⟨k, -, own⟩ : ∃ k ∈ List.range slices.length, SliceAt file k s := by
    obtain ⟨i, inside, rfl⟩ := List.mem_iff_getElem.mp member
    have length := entries.length_eq
    rw [List.forall₂_iff_get] at entries
    exact ⟨_, List.get_mem _ ⟨i, by omega⟩, entries.2 i (by omega) inside⟩
  have layout := own.layout
  -- A slice has its load commands, so it does not stand in front of the table.
  have some := layout.commands_inside
  have low : 32 ≤ placedEnd 32 s.image.commands := placed_bounds.1
  have apart := table.apart
  rw [List.pairwise_cons] at apart
  have beside := apart.1 _ (List.mem_map_of_mem member)
  have bound := (length_of_read own.data).2
  unfold Beside at beside
  exact ⟨own.data, layout, by omega, bound⟩

theorem SlicesAt.pairwise (table : SlicesAt file slices) :
    slices.Pairwise fun s t => Beside (s.off, s.data.length) (t.off, t.data.length) := by
  have apart := table.apart
  rw [List.pairwise_cons] at apart
  exact List.pairwise_map.mp apart.2

theorem slicesPatches_place (table : SlicesAt file slices) {patch : Patch UInt8}
    (member : patch ∈ slicesPatches decode targets slices) :
    patch.Inside file.length ∧ 8 + slices.length * 20 ≤ patch.off ∧
      ∃ s ∈ slices, s.off ≤ patch.off ∧ patch.off + patch.new.length ≤ s.off + s.data.length := by
  obtain ⟨s, there, own⟩ := List.mem_flatMap.mp member
  obtain ⟨-, layout, low, bound⟩ := table.slice_place there
  have place := Slice.patches_place layout own
  unfold Patch.Inside
  exact ⟨by omega, by omega, s, there, place⟩

/-- All slices are weakened, and what is reported is what was done. -/
theorem process_fat (table : SlicesAt file slices)
    (found : (Container.fat slices).Found decode targets) :
    ∃ lc imp, process decode targets file =
        some (patched file (slicesPatches decode targets slices), lc, imp) ∧
      lc = (slices.map fun s => (s.image.commandPatches decode targets).length).sum ∧
      imp = (slices.map fun s => (s.image.importPatches decode targets).length).sum := by
  have loop := weakenArch_foldlM decode targets [] (8 + slices.length * 20) 0 0 table.entries
    (fun k member => by have small := List.mem_range.mp member; omega)
    (fun s member => (table.slice_place member).2.2.1) table.pairwise found (by simp)
    (fun _ _ _ member => by cases member) (fun _ member => by cases member)
  rw [List.nil_append, Nat.zero_add, Nat.zero_add] at loop
  change (List.range slices.length).foldlM (weakenArch decode targets) (file, 0, 0) = _ at loop
  refine ⟨_, _, ?_, rfl, rfl⟩
  unfold process
  rw [table.magic]
  dsimp only [Option.bind_eq_bind, Option.bind_some]
  rw [if_pos (Or.inl rfl), table.count]
  dsimp only [Option.bind_some]
  rw [loop]
  dsimp only [Option.bind_some]
  split
  · rfl
  · -- Without anything that is counted, nothing was changed.
    have nothing : slicesPatches decode targets slices = [] := by
      unfold slicesPatches
      rw [List.flatMap_eq_nil_iff]
      intro s member
      have each : ∀ count : Slice → Nat, (slices.map count).sum = 0 → count s = 0 := by
        intro count zero
        rw [List.sum_eq_zero_iff_forall_eq_nat] at zero
        exact zero _ (List.mem_map_of_mem member)
      have patches := patches_eq_nil decode targets (v := s.image)
        (each (fun s => (s.image.commandPatches decode targets).length) (by omega))
        (each (fun s => (s.image.importPatches decode targets).length) (by omega))
      unfold Slice.patches
      rw [patches]
      rfl
    rw [nothing]
    rfl

theorem read_slicesPatches (table : SlicesAt file slices) {s : Slice} (member : s ∈ slices) :
    Patching.read (patched file (slicesPatches decode targets slices)) s.off s.data.length =
      some (patched s.data (s.image.patches decode targets)) := by
  obtain ⟨found, layout, -, bound⟩ := table.slice_place member
  have apart := table.pairwise
  have inside : ∀ patch ∈ slicesPatches decode targets slices, patch.Inside file.length :=
    fun patch there => (slicesPatches_place table there).1
  have place : ∀ t ∈ slices, ∀ patch ∈ t.patches decode targets,
      t.off ≤ patch.off ∧ patch.off + patch.new.length ≤ t.off + t.data.length :=
    fun t there patch own => Slice.patches_place (table.slice_place there).2.1 own
  obtain ⟨before, after, rfl⟩ := List.append_of_mem member
  unfold slicesPatches at inside ⊢
  rw [List.flatMap_append, List.flatMap_cons] at inside ⊢
  rw [List.forall_mem_append, List.forall_mem_append] at inside
  rw [List.pairwise_append, List.pairwise_cons] at apart
  -- What is put for the slices before it and after it does not touch it.
  have earlier : Clear (before.flatMap (Slice.patches decode targets)) s.off s.data.length := by
    intro patch there
    obtain ⟨t, other, own⟩ := List.mem_flatMap.mp there
    have bounds := place t (by simp [other]) patch own
    have beside := apart.2.2 t other s (by simp)
    unfold Beside at beside
    omega
  have later : Clear (after.flatMap (Slice.patches decode targets)) s.off s.data.length := by
    intro patch there
    obtain ⟨t, other, own⟩ := List.mem_flatMap.mp there
    have bounds := place t (by simp [other]) patch own
    have beside := apart.2.1.1 t other
    unfold Beside at beside
    omega
  have length := length_patched inside.1
  have length' : (patched (patched file (before.flatMap (Slice.patches decode targets)))
      (s.patches decode targets)).length = file.length := by
    rw [length_patched (by rw [length]; exact inside.2.1), length]
  rw [patched_append, patched_append, read_patched (by rw [length']; exact inside.2.2) later]
  apply Slice.read_patches layout
  rw [read_patched inside.1 earlier, found]

theorem clear_table (table : SlicesAt file slices) {off n : Nat}
    (within : off + n ≤ 8 + slices.length * 20) :
    Clear (slicesPatches decode targets slices) off n := by
  intro patch member
  have place := (slicesPatches_place table member).2.1
  omega

theorem slicesAt_weakened (decode : Bytes → PyString) (targets : List PyString)
    (table : SlicesAt file slices) :
    SlicesAt (patched file (slicesPatches decode targets slices))
      (slices.map (Slice.weakened decode targets)) := by
  have inside : ∀ patch ∈ slicesPatches decode targets slices, patch.Inside file.length :=
    fun patch there => (slicesPatches_place table there).1
  have same : ∀ s ∈ slices, (s.weakened decode targets).data.length = s.data.length := by
    intro s member
    exact length_patched (patches_inside _ _ (table.slice_place member).2.1)
  constructor
  · rw [natAt_patched inside (clear_table table (by omega))]
    exact table.magic
  · rw [natAt_patched inside (clear_table table (by omega)), List.length_map]
    exact table.count
  · rw [List.length_map, List.forall₂_map_right_iff]
    -- Each entry of the table tells of the same place, where its slice was weakened.
    have related := forall₂_mem table.entries
    have bounds : ∀ k ∈ List.range slices.length, k < slices.length :=
      fun k member => List.mem_range.mp member
    rw [List.forall₂_iff_get] at related ⊢
    refine ⟨related.1, fun i first second => ?_⟩
    obtain ⟨own, member⟩ := related.2 i first second
    have small := bounds _ (List.get_mem _ ⟨i, first⟩)
    constructor
    · rw [natAt_patched inside (clear_table table (by omega))]
      exact own.off
    · rw [natAt_patched inside (clear_table table (by omega)), same _ member]
      exact own.size
    · rw [same _ member]
      exact read_slicesPatches table member
    · exact layout_weakened _ _ own.layout
  · have apart := table.apart
    rw [List.length_map, List.map_map]
    have parts : slices.map ((fun s => (s.off, s.data.length)) ∘ Slice.weakened decode targets) =
        slices.map fun s => (s.off, s.data.length) := by
      apply List.map_congr_left
      intro s member
      dsimp only [Function.comp_apply]
      rw [same s member]
      rfl
    rwa [parts]

/-- A second pass over the weakened file changes nothing. -/
theorem process_slices_weakened (table : SlicesAt file slices) :
    process decode targets (patched file (slicesPatches decode targets slices)) =
      some (patched file (slicesPatches decode targets slices), 0, 0) := by
  have settled : ∀ s ∈ slices,
      (s.weakened decode targets).image.commandPatches decode targets = [] ∧
      (s.weakened decode targets).image.importPatches decode targets = [] ∧
      (s.weakened decode targets).image.patches decode targets = [] :=
    fun s member => patches_weakened _ _ (table.slice_place member).2.1
  have found :
      (Container.fat (slices.map (Slice.weakened decode targets))).Found decode targets := by
    intro s member
    obtain ⟨s, there, rfl⟩ := List.mem_map.mp member
    exact Or.inl (not_strong_weakened _ _ (table.slice_place there).2.1)
  -- Nothing is counted in slices that were weakened.
  have zero : ∀ count : Slice → Nat, (∀ s ∈ slices, count (s.weakened decode targets) = 0) →
      ((slices.map (Slice.weakened decode targets)).map count).sum = 0 := by
    intro count none
    rw [List.sum_eq_zero_iff_forall_eq_nat, List.map_map]
    intro n member
    obtain ⟨s, there, rfl⟩ := List.mem_map.mp member
    exact none s there
  obtain ⟨lc, imp, again, commands, imports⟩ :=
    process_fat (slicesAt_weakened decode targets table) found
  have nothing :
      slicesPatches decode targets (slices.map (Slice.weakened decode targets)) = [] := by
    unfold slicesPatches
    rw [List.flatMap_eq_nil_iff]
    intro s member
    obtain ⟨s, there, rfl⟩ := List.mem_map.mp member
    unfold Slice.patches
    rw [(settled s there).2.2]
    rfl
  rw [zero _ fun s member => by rw [(settled s member).1]; rfl] at commands
  rw [zero _ fun s member => by rw [(settled s member).2.1]; rfl] at imports
  rw [again, nothing, commands, imports]
  rfl

end

end MachoWeaken

end Xios
