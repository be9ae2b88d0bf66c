import Xios.Macho.Files

/-! When `macho-weaken.py` does to a file what it is for. -/

namespace Xios

namespace MachoWeaken

open Words Patching

variable {decode : Bytes → PyString} {targets : List PyString} {file : Bytes} {c : Container}

theorem FileAt.layout (at' : FileAt file c) {s : Slice} (member : s ∈ c.slices file) :
    Layout s.data s.image := by
  cases c with
  | thin v =>
    rw [List.mem_singleton.mp member]
    exact at'
  | fat slices => exact (SlicesAt.slice_place at' member).2.1

theorem Settles.marked (at' : FileAt file c) {out : Bytes}
    (settles : Settles decode targets c file out) {s : Slice} (member : s ∈ c.slices file) :
    s.image.Marked decode targets := by
  have layout := FileAt.layout at' member
  obtain ⟨data, -, weakened, lc, imp, alone⟩ := settles.slices s member
  -- The image alone becomes what its patches make of it.
  rw [process_thin _ _ layout] at alone
  cases alone
  exact (weakened_iff layout).mp weakened

theorem settles_thin {v : Image} (layout : Layout file v) (marked : v.Marked decode targets) :
    Settles decode targets (.thin v) file (patched file (v.patches decode targets)) := by
  have length := length_patched (patches_inside decode targets layout)
  have weakened := (weakened_iff layout).mpr marked
  have alone := process_thin decode targets layout
  have whole := read_middle [] [] (patched file (v.patches decode targets))
  rw [List.nil_append, List.append_nil, length] at whole
  constructor
  · exact ⟨_, _, alone⟩
  · exact length
  · intro s member
    rw [List.mem_singleton.mp member]
    exact ⟨_, whole, weakened, _, _, alone⟩
  · intro q outside
    have bound := outside _ (List.mem_singleton_self _)
    dsimp only at bound
    rw [List.getElem?_eq_none (by omega), List.getElem?_eq_none (by omega)]
  · exact process_weakened layout

theorem settles_fat {slices : List Slice} (table : SlicesAt file slices)
    (found : (Container.fat slices).Found decode targets)
    (marked : ∀ s ∈ slices, s.image.Marked decode targets) :
    Settles decode targets (.fat slices) file
      (patched file (slicesPatches decode targets slices)) := by
  have inside : ∀ patch ∈ slicesPatches decode targets slices, patch.Inside file.length :=
    fun patch there => (slicesPatches_place table there).1
  obtain ⟨lc, imp, done, -, -⟩ := process_fat table found
  constructor
  · exact ⟨lc, imp, done⟩
  · exact length_patched inside
  · intro s member
    have layout := (table.slice_place member).2.1
    exact ⟨_, read_slicesPatches table member, (weakened_iff layout).mpr (marked s member), _, _,
      process_thin _ _ layout⟩
  · intro q outside
    apply getElem?_patched inside
    rintro patch member ⟨first, last⟩
    obtain ⟨-, -, s, there, low, high⟩ := slicesPatches_place table member
    exact outside s there ⟨by omega, by omega⟩
  · exact process_slices_weakened table

/-- A file becomes weak only if the symbols of each image do, and this is enough unless a symbol
table is looked for without the place of its slice. -/
theorem process_settles_iff (decode : Bytes → PyString) (targets : List PyString) {file : Bytes}
    {c : Container} (fileAt : FileAt file c) :
    ((∃ out, Settles decode targets c file out) →
      ∀ s ∈ c.slices file, s.image.Marked decode targets) ∧
    (c.Found decode targets → ((∃ out, Settles decode targets c file out) ↔
      ∀ s ∈ c.slices file, s.image.Marked decode targets)) := by
  have needed : (∃ out, Settles decode targets c file out) →
      ∀ s ∈ c.slices file, s.image.Marked decode targets :=
    fun ⟨_, settles⟩ _ member => settles.marked fileAt member
  refine ⟨needed, fun found => ⟨needed, fun marked => ?_⟩⟩
  cases c with
  | thin v => exact ⟨_, settles_thin fileAt (marked _ (List.mem_singleton_self _))⟩
  | fat slices => exact ⟨_, settles_fat fileAt found marked⟩

/-- An image that imports a name from a library, weakly already if the flag is one. -/
def sampleBytes (flag : UInt8) : Bytes :=
  [0xCF, 0xFA, 0xED, 0xFE, 0, 0, 0, 0, 0, 0, 0, 0, 0, 0, 0, 0, 3, 0, 0, 0, 0, 0, 0, 0, 0, 0, 0, 0,
    0, 0, 0, 0] ++
  -- The library is named xcb.
  [0x0C, 0, 0, 0, 32, 0, 0, 0, 24, 0, 0, 0, 0, 0, 0, 0, 0, 0, 0, 0, 0, 0, 0, 0, 120, 99, 98, 0,
    0, 0, 0, 0] ++
  [0x34, 0, 0, 0x80, 16, 0, 0, 0, 104, 0, 0, 0, 36, 0, 0, 0] ++
  [2, 0, 0, 0, 24, 0, 0, 0, 140, 0, 0, 0, 1, 0, 0, 0, 156, 0, 0, 0, 4, 0, 0, 0] ++
  [0, 0, 0, 0, 0, 0, 0, 0, 28, 0, 0, 0, 32, 0, 0, 0, 1, 0, 0, 0, 1, 0, 0, 0, 0, 0, 0, 0] ++
  -- The import, and the symbol of it, are named _f.
  [1, flag, 0, 0, 95, 102, 0, 0] ++
  [1, 0, 0, 0, 1, 0, 0, 0, 0, 0, 0, 0, 0, 0, 0, 0] ++
  [0, 95, 102, 0]

def sampleImage (flag : UInt8) : Image where
  en := .little
  commands := [⟨lcLoadDylib, 32, .dylib 24 [120, 99, 98]⟩,
    ⟨lcDyldChainedFixups, 16, .chainedFixups 104 36⟩, ⟨lcSymtab, 24, .symtab 140 1 156 4⟩]
  format := importFormat 1
  imports := [⟨132, 1 + 256 * flag.toNat, [95, 102]⟩]
  symbols := [⟨140, 1, 1, 0, [95, 102]⟩]

def sampleFat : Bytes :=
  [0xCA, 0xFE, 0xBA, 0xBE, 0, 0, 0, 1, 0, 0, 0, 0, 0, 0, 0, 0, 0, 0, 0, 64, 0, 0, 0, 160, 0, 0, 0,
    0] ++ List.replicate 36 0 ++ sampleBytes 0

def plain (bytes : Bytes) : PyString :=
  bytes.map UInt8.toNat

theorem layout_sample {flag : UInt8} (bit : flag = 0 ∨ flag = 1) :
    Layout (sampleBytes flag) (sampleImage flag) := by
  constructor
  · rcases bit with rfl | rfl <;> decide +kernel
  · rcases bit with rfl | rfl <;> decide +kernel
  · unfold CommandsAt
    rcases bit with rfl | rfl <;> decide +kernel
  · refine ⟨28, 32, 1, ?_⟩
    constructor
    · rcases bit with rfl | rfl <;> decide +kernel
    · rcases bit with rfl | rfl <;> decide +kernel
    · rcases bit with rfl | rfl <;> decide +kernel
    · rcases bit with rfl | rfl <;> decide +kernel
    · decide
    · rfl
    · decide
    · rcases bit with rfl | rfl <;> decide
    · decide
    · rcases bit with rfl | rfl <;> decide +kernel
    · rcases bit with rfl | rfl <;> decide +kernel
  · constructor
    · rfl
    · rcases bit with rfl | rfl <;> decide +kernel
    · rcases bit with rfl | rfl <;> decide
  · rcases bit with rfl | rfl <;> decide +kernel
  · rcases bit with rfl | rfl <;> decide +kernel

theorem slicesAt_sample : SlicesAt sampleFat [⟨64, sampleBytes 0, sampleImage 0⟩] := by
  constructor
  · decide +kernel
  · decide +kernel
  · apply List.Forall₂.cons
    · constructor
      · decide +kernel
      · decide +kernel
      · decide +kernel
      · exact layout_sample (Or.inl rfl)
    · exact List.Forall₂.nil
  · decide +kernel

theorem process_settles_sample :
    ∃ out, Settles plain [py "xcb"] (.thin (sampleImage 0)) (sampleBytes 0) out :=
  ((process_settles_iff plain [py "xcb"] (c := .thin (sampleImage 0))
    (layout_sample (Or.inl rfl))).2 trivial).mpr (by decide +kernel)

/-- In a fat file of the image, the symbol is not marked, and neither is that of an import that is
weak already. -/
theorem process_misses_symbols :
    (FileAt sampleFat (.fat [⟨64, sampleBytes 0, sampleImage 0⟩]) ∧
      ¬∃ out, Settles plain [py "xcb"] (.fat [⟨64, sampleBytes 0, sampleImage 0⟩]) sampleFat out) ∧
    FileAt (sampleBytes 1) (.thin (sampleImage 1)) ∧
      ¬∃ out, Settles plain [py "xcb"] (.thin (sampleImage 1)) (sampleBytes 1) out := by
  have thin : FileAt (sampleBytes 1) (.thin (sampleImage 1)) := layout_sample (Or.inr rfl)
  refine ⟨⟨slicesAt_sample, ?_⟩, thin, ?_⟩
  · rintro ⟨out, settles⟩
    obtain ⟨lc, imp, done⟩ := settles.done
    obtain ⟨data, found, weakened, -⟩ := settles.slices _ (List.mem_singleton_self _)
    have marked := weakened.symbols ⟨140, 1, 1, 0, [95, 102]⟩ (List.mem_singleton_self _)
      (by decide +kernel)
    have result : (process plain [py "xcb"] sampleFat).bind (fun (out, _) =>
        (Patching.read out 64 160).bind fun data => natAt .little data 146 2) = some 0 := by
      decide +kernel
    rw [done] at result
    dsimp only [Option.bind_some] at result
    change Patching.read out 64 160 = some data at found
    rw [found] at result
    dsimp only [Option.bind_some] at result
    change natAt .little data 146 2 = _ at marked
    rw [marked] at result
    cases result
  · rintro ⟨out, settles⟩
    have marked := settles.marked thin (List.mem_singleton_self _)
    revert marked
    decide +kernel

end MachoWeaken

end Xios
