import Xios.Output.Requested
import Xios.Output.Viewport
import Mathlib.Tactic.Ring

/-! Damage of a window that is stretched over the whole output. -/

namespace Xios

/-- How far around a texel its stretched pixels reach. -/
def stretchPad (o : Screen) (src : Area) : Option Int := do
  let columns ← Signed.int32 ((← Signed.int32 (o.width + src.w)) - 1)
  let rows ← Signed.int32 ((← Signed.int32 (o.height + src.h)) - 1)
  let padX := columns.tdiv src.w
  let padY := rows.tdiv src.h
  Signed.int32 ((if padY < padX then padX else padY) + 1)

/-- One axis of a dirty rectangle within the source, by its first texel and the one past its last -/
def sourceAxis (start length origin size : Int) : Option (Int × Int) := do
  let first ← Signed.int64 (start - origin)
  let last ← Signed.int64 ((← Signed.int64 (start + length)) - origin)
  some (if first < 0 then 0 else first, if size < last then size else last)

def stretchAxis (first last size out pad : Int) : Option (Int × Int) := do
  let low ← Signed.int32 ((← Signed.int64 (first * out)).tdiv size)
  let low ← Signed.int32 (low - pad)
  let wide ← Signed.int64 ((← Signed.int64 ((← Signed.int64 (last * out)) + size)) - 1)
  let high ← Signed.int32 (wide.tdiv size)
  let high ← Signed.int32 (high + pad)
  some (low, high)

/-- The loop body of `output_damage_add_surface_dirty_rects` for a stretched window -/
def addStretched (o : Screen) (src : Area) (pad : Int) (d : OutputDamage) (r : DamageReport) :
    Option OutputDamage := do
  let (rx0, rx1) ← sourceAxis r.x r.w src.x src.w
  let (ry0, ry1) ← sourceAxis r.y r.h src.y src.h
  if rx1 ≤ rx0 ∨ ry1 ≤ ry0 then some d
  else do
    let (ox0, ox1) ← stretchAxis rx0 rx1 src.w o.width pad
    let (oy0, oy1) ← stretchAxis ry0 ry1 src.h o.height pad
    outputDamageAddPx o d ⟨ox0, oy0, ← Signed.int32 (ox1 - ox0), ← Signed.int32 (oy1 - oy0)⟩

namespace DirtySurface

def outputDamageAddSurface (o : Screen) (s : DirtySurface) (d : OutputDamage) :
    Option OutputDamage :=
  match s.surfaceRect o with
  | none => some d
  | some r => do
    let w ← Signed.int32 (r.x1 - r.x0)
    let h ← Signed.int32 (r.y1 - r.y0)
    outputDamageAddPx o d (← scaled o ⟨r.x0, r.y0, w, h⟩)

def addScaled (o : Screen) (s : DirtySurface) (d : OutputDamage) (r : DamageReport) :
    Option OutputDamage := do
  let x0 := r.x.tdiv s.scale
  let y0 := r.y.tdiv s.scale
  let x1 ← Signed.int32 ((← Signed.int32 ((← Signed.int32 (r.x + r.w)) + s.scale)) - 1)
  let y1 ← Signed.int32 ((← Signed.int32 ((← Signed.int32 (r.y + r.h)) + s.scale)) - 1)
  let w ← Signed.int32 (x1.tdiv s.scale - x0)
  let h ← Signed.int32 (y1.tdiv s.scale - y0)
  s.outputDamageAddSurfaceRect o d ⟨x0, y0, w, h⟩

def outputDamageAddSurfaceDirtyRects (o : Screen) (s : DirtySurface) (d : OutputDamage) :
    Option (Bool × OutputDamage) :=
  if s.mapped = false ∨ s.glDirty = false ∨ s.glDirtyRects = [] then some (false, d)
  else if s.source ≠ none ∨ s.destination ≠ none then some (false, d)
  else if s.fillsOutput o then do
    let src ← s.sourceRect
    if src.w ≤ 0 ∨ src.h ≤ 0 then do some (true, ← s.outputDamageAddSurface o d)
    else do
      let pad ← stretchPad o src
      some (true, ← s.glDirtyRects.foldlM (addStretched o src pad) d)
  else do some (true, ← s.glDirtyRects.foldlM (s.addScaled o) d)

end DirtySurface

/-- The lower of the two texels whose centres are nearest to the centre of a stretched pixel. -/
def lowerTexel (out size p : Int) : Int :=
  ((2 * p + 1) * size - out) / (2 * out)

/-- A texel that a pixel is interpolated from, where the first and the last one stand in for those
outside. -/
def Samples (out size p t : Int) : Prop :=
  t = clampi (lowerTexel out size p) 0 (size - 1) ∨
    t = clampi (lowerTexel out size p + 1) 0 (size - 1)
  deriving Decidable

/-- A pixel of the output depends on a dirty texel of a source stretched over it. -/
def DependsOnDirty (o : Screen) (size : BufferSize) (rects : List DamageReport) (x y : Int) :
    Prop :=
  ∃ tx ty, Samples o.width size.width x tx ∧ Samples o.height size.height y ty ∧
    ∃ r ∈ rects, r.Contains tx ty

variable {out size : Int}

theorem Samples.near {p t : Int} (positive : 0 < size) (first : 0 ≤ p) (last : p < out)
    (sampled : Samples out size p t) :
    0 ≤ t ∧ t < size ∧ 2 * out * (t - 1) ≤ (2 * p + 1) * size - out ∧
      (2 * p + 1) * size - out < 2 * out * (t + 1) := by
  have wide : 0 < 2 * out := by omega
  have centre : 0 ≤ (2 * p + 1) * size := Int.mul_nonneg (by omega) positive.le
  have within : (2 * p + 1) * size ≤ (2 * out - 1) * size :=
    Int.mul_le_mul_of_nonneg_right (by omega) positive.le
  have whole : (2 * out - 1) * size = size * (2 * out) - size := by ring
  -- The lower texel is the last one before the first, or one of the source.
  have least : -1 ≤ lowerTexel out size p := (Int.le_ediv_iff_mul_le wide).mpr (by omega)
  have most : lowerTexel out size p < size := (Int.ediv_lt_iff_lt_mul wide).mpr (by omega)
  have below : lowerTexel out size p * (2 * out) ≤ (2 * p + 1) * size - out :=
    Int.ediv_mul_le _ (by omega)
  have above : (2 * p + 1) * size - out < (lowerTexel out size p + 1) * (2 * out) :=
    Int.lt_ediv_add_one_mul_self _ wide
  simp only [Samples, clampi] at sampled
  generalize lowerTexel out size p = lower at sampled least most below above
  -- Either way, the lower texel is the sampled one or the one before it.
  have close : 0 ≤ t ∧ t < size ∧ t - 1 ≤ lower ∧ lower ≤ t := by omega
  obtain ⟨start, stop, after, before⟩ := close
  have under := Int.mul_le_mul_of_nonneg_left after wide.le
  have beyond := Int.mul_le_mul_of_nonneg_left (by omega : lower + 1 ≤ t + 1) wide.le
  rw [Int.mul_comm lower] at below
  rw [Int.mul_comm (lower + 1)] at above
  exact ⟨start, stop, under.trans below, above.trans_le beyond⟩

variable {pad : Int}

theorem stretched_bounds {p t first last : Int} (positive : 0 < size) (start : 0 ≤ p)
    (stop : p < out) (sampled : Samples out size p t) (lower : first ≤ t) (upper : t < last)
    (padded : out ≤ (pad - 1) * size) :
    first * out / size - pad ≤ p ∧ p < (last * out + size - 1) / size + pad := by
  obtain ⟨-, -, after, before⟩ := sampled.near positive start stop
  have extent : 0 < out := by omega
  have low := Int.mul_le_mul_of_nonneg_right lower extent.le
  have high := Int.mul_le_mul_of_nonneg_right (Int.add_one_le_of_lt upper) extent.le
  -- Both inequalities become linear in these products.
  have eq1 : 2 * out * (t - 1) = 2 * (t * out) - 2 * out := by ring
  have eq2 : 2 * out * (t + 1) = 2 * (t * out) + 2 * out := by ring
  have eq3 : (2 * p + 1) * size = 2 * (p * size) + size := by ring
  have eq4 : (pad - 1) * size = pad * size - size := by ring
  have eq5 : (t + 1) * out = t * out + out := by ring
  constructor
  · have quotient : first * out / size < p + pad + 1 := by
      rw [Int.ediv_lt_iff_lt_mul positive]
      have eq6 : (p + pad + 1) * size = p * size + pad * size + size := by ring
      omega
    omega
  · have quotient : p - pad + 1 ≤ (last * out + size - 1) / size := by
      rw [Int.le_ediv_iff_mul_le positive]
      have eq6 : (p - pad + 1) * size = p * size - pad * size + size := by ring
      omega
    omega

theorem sourceAxis_eq {start length : Int} (first : -2147483648 ≤ start ∧ start ≤ 2147483647)
    (extent : -2147483648 ≤ length ∧ length ≤ 2147483647) :
    sourceAxis start length 0 size = some (max 0 start, min size (start + length)) := by
  simp only [sourceAxis, Option.bind_eq_bind]
  rw [Signed.int64_of_fits (by omega) (by omega), Option.bind_some,
    Signed.int64_of_fits (by omega) (by omega), Option.bind_some,
    Signed.int64_of_fits (by omega) (by omega), Option.bind_some]
  congr 2 <;> omega

theorem stretchAxis_eq {first last : Int} (start : 0 ≤ first) (some_ : first < last)
    (stop : last ≤ size) (sizeFits : size ≤ 2147483647) (extent : 0 < out)
    (small : out ≤ 536870912) (padded : 0 ≤ pad) (padFits : pad ≤ 536870913) :
    stretchAxis first last size out pad =
        some (first * out / size - pad, (last * out + size - 1) / size + pad) ∧
      0 ≤ first * out / size ∧ first * out / size < (last * out + size - 1) / size ∧
        (last * out + size - 1) / size ≤ out := by
  have positive : 0 < size := by omega
  have low : 0 ≤ first * out := Int.mul_nonneg start extent.le
  have step := Int.mul_le_mul_of_nonneg_right (Int.add_one_le_of_lt some_) extent.le
  have high := Int.mul_le_mul_of_nonneg_right stop extent.le
  have product := Int.mul_le_mul sizeFits small extent.le (by decide)
  have eq1 : (first + 1) * out = first * out + out := by ring
  have nonneg : 0 ≤ first * out / size := Int.ediv_nonneg low positive.le
  -- A part of the source is not stretched past the output, and not to nothing.
  have ends : (last * out + size - 1) / size ≤ out := by
    have below : (last * out + size - 1) / size < out + 1 := by
      rw [Int.ediv_lt_iff_lt_mul positive]
      have eq2 : (out + 1) * size = size * out + size := by ring
      omega
    omega
  have grows : first * out / size < (last * out + size - 1) / size := by
    have above : first * out / size + 1 ≤ (last * out + size - 1) / size := by
      rw [Int.le_ediv_iff_mul_le positive]
      have below := Int.ediv_mul_le (first * out) (by omega : size ≠ 0)
      have eq3 : (first * out / size + 1) * size = first * out / size * size + size := by ring
      omega
    omega
  refine ⟨?_, nonneg, grows, ends⟩
  simp only [stretchAxis, Option.bind_eq_bind]
  rw [Signed.int64_of_fits (by omega) (by omega), Option.bind_some,
    Int.tdiv_eq_ediv_of_nonneg low, Signed.int32_of_fits (by omega) (by omega), Option.bind_some,
    Signed.int32_of_fits (by omega) (by omega), Option.bind_some,
    Signed.int64_of_fits (by omega) (by omega), Option.bind_some,
    Signed.int64_of_fits (by omega) (by omega), Option.bind_some,
    Signed.int64_of_fits (by omega) (by omega), Option.bind_some,
    Int.tdiv_eq_ediv_of_nonneg (by omega), Signed.int32_of_fits (by omega) (by omega),
    Option.bind_some, Signed.int32_of_fits (by omega) (by omega), Option.bind_some]

/-- The padding that is wide enough for both axes. -/
structure Padded (o : Screen) (size : BufferSize) (pad : Int) : Prop where
  -- One of its pixels is for the texel next to a dirty one, the others are for the dirty one.
  columns : o.width ≤ (pad - 1) * size.width
  rows : o.height ≤ (pad - 1) * size.height
  positive : 0 ≤ pad
  fits : pad ≤ 536870913

theorem roundedQuotient (extent : 0 < out) (positive : 0 < size) :
    out ≤ (out + size - 1).tdiv size * size ∧ 0 < (out + size - 1).tdiv size ∧
      (out + size - 1).tdiv size ≤ out := by
  rw [Int.tdiv_eq_ediv_of_nonneg (by omega)]
  have upper := Int.lt_ediv_add_one_mul_self (out + size - 1) positive
  have eq1 : ((out + size - 1) / size + 1) * size = (out + size - 1) / size * size + size := by
    ring
  have least : 1 ≤ (out + size - 1) / size := (Int.le_ediv_iff_mul_le positive).mpr (by omega)
  -- A source of one texel takes the whole dividend, any other one less.
  have most : (out + size - 1) / size < out + 1 := by
    rw [Int.ediv_lt_iff_lt_mul positive]
    have eq2 : (out + 1) * size = (out + 1) * (size - 1) + (out + 1) := by ring
    have rest : out + 1 ≤ (out + 1) * (size - 1) + (out + 1) - (size - 1) := by
      have eq3 : (out + 1) * (size - 1) = out * (size - 1) + (size - 1) := by ring
      have some_ : 0 ≤ out * (size - 1) := Int.mul_nonneg extent.le (by omega)
      omega
    omega
  omega

/-- The output has pixels, and no more than a GPU can have. -/
structure Screen.Sized (o : Screen) : Prop where
  columns : 0 < o.width ∧ o.width ≤ 536870912
  rows : 0 < o.height ∧ o.height ≤ 536870912

/-- Both sums that the padding starts from fit into 32 bits. -/
def PadFits (o : Screen) (size : BufferSize) : Prop :=
  o.width + size.width ≤ 2147483647 ∧ o.height + size.height ≤ 2147483647
  deriving Decidable

variable {o : Screen}

theorem stretchPad_spec {size : BufferSize} (sized : o.Sized)
    (pixels : 0 < size.width ∧ 0 < size.height) (fits : PadFits o size) :
    ∃ pad, stretchPad o ⟨0, 0, size.width, size.height⟩ = some pad ∧ Padded o size pad := by
  obtain ⟨⟨wide, wideFits⟩, ⟨high, highFits⟩⟩ := sized
  obtain ⟨columnsFit, rowsFit⟩ := fits
  obtain ⟨columns, columnsLeast, columnsMost⟩ := roundedQuotient wide pixels.1
  obtain ⟨rows, rowsLeast, rowsMost⟩ := roundedQuotient high pixels.2
  simp only [stretchPad, Option.bind_eq_bind]
  rw [Signed.int32_of_fits (by omega) (by omega), Option.bind_some,
    Signed.int32_of_fits (by omega) (by omega), Option.bind_some,
    Signed.int32_of_fits (by omega) (by omega), Option.bind_some,
    Signed.int32_of_fits (by omega) (by omega), Option.bind_some]
  generalize (o.width + size.width - 1).tdiv size.width = padX at *
  generalize (o.height + size.height - 1).tdiv size.height = padY at *
  rw [Signed.int32_of_fits (by omega) (by omega)]
  -- The greater of the two quotients is enough for either axis.
  have enough : ∀ a b c : Int, a ≤ b → 0 < c → a * c ≤ b * c := fun a b c le positive =>
    Int.mul_le_mul_of_nonneg_right le positive.le
  refine ⟨_, rfl, ?_, ?_, by omega, by omega⟩
  · exact columns.trans (enough _ _ _ (by split <;> omega) pixels.1)
  · exact rows.trans (enough _ _ _ (by split <;> omega) pixels.2)

theorem stretchPad_none {size : BufferSize} (sized : o.Sized) (overflow : ¬PadFits o size) :
    stretchPad o ⟨0, 0, size.width, size.height⟩ = none := by
  obtain ⟨width, widthFits, height, heightFits⟩ := size.fits
  obtain ⟨⟨wide, wideFits⟩, ⟨high, highFits⟩⟩ := sized
  simp only [PadFits] at overflow
  simp only [stretchPad, Option.bind_eq_bind]
  by_cases columns : o.width + size.width ≤ 2147483647
  · -- The columns fit, so that it is the rows that do not.
    rw [Signed.int32_of_fits (by omega) columns, Option.bind_some,
      Signed.int32_of_fits (by omega) (by omega), Option.bind_some,
      Signed.int32_of_large (by omega), Option.bind_none]
  · rw [Signed.int32_of_large (by omega), Option.bind_none]

/-- A stretched rectangle covers all pixels that depend on the dirty ones. -/
theorem addStretched_spec {size : BufferSize} (sized : o.Sized)
    (pixels : 0 < size.width ∧ 0 < size.height) (padded : Padded o size pad) {d : OutputDamage}
    (well : d.WellFormed) (r : DirtyRect) :
    ∃ after, addStretched o ⟨0, 0, size.width, size.height⟩ pad d r.report = some after ∧
      after.WellFormed ∧ (∀ x y, d.Covers x y → after.Covers x y) ∧
        ∀ x y, (⟨0, 0, o.width, o.height⟩ : Rect).Contains x y →
          DependsOnDirty o size [r.report] x y → after.Covers x y := by
  have xFits : -2147483648 ≤ r.x.toInt ∧ r.x.toInt ≤ 2147483647 :=
    Signed.fits32_toInt r.x
  have yFits : -2147483648 ≤ r.y.toInt ∧ r.y.toInt ≤ 2147483647 :=
    Signed.fits32_toInt r.y
  have wFits : -2147483648 ≤ r.w.toInt ∧ r.w.toInt ≤ 2147483647 :=
    Signed.fits32_toInt r.w
  have hFits : -2147483648 ≤ r.h.toInt ∧ r.h.toInt ≤ 2147483647 :=
    Signed.fits32_toInt r.h
  simp only [addStretched, DirtyRect.report, Option.bind_eq_bind, sourceAxis_eq xFits wFits,
    sourceAxis_eq yFits hFits, Option.bind_some]
  split
  · -- Nothing of the rectangle lies within the source.
    refine ⟨d, rfl, well, fun x y covered => covered, ?_⟩
    rintro x y inside ⟨tx, ty, column, row, r', member, texel⟩
    obtain rfl := List.mem_singleton.mp member
    simp only [Rect.Contains] at inside
    obtain ⟨left, right, -, -⟩ := column.near pixels.1 inside.1 inside.2.1
    obtain ⟨top, bottom, -, -⟩ := row.near pixels.2 inside.2.2.1 inside.2.2.2
    simp only [DamageReport.Contains] at texel
    omega
  · -- The stretched rectangle has the pixels of every texel that is dirty.
    obtain ⟨columns, lowX, growX, highX⟩ := stretchAxis_eq (by omega : 0 ≤ max 0 r.x.toInt)
      (by omega : _ < min size.width (r.x.toInt + r.w.toInt)) (by omega : _ ≤ size.width)
      size.fits.2.1 sized.columns.1 sized.columns.2 padded.positive padded.fits
    obtain ⟨rows, lowY, growY, highY⟩ := stretchAxis_eq (by omega : 0 ≤ max 0 r.y.toInt)
      (by omega : _ < min size.height (r.y.toInt + r.h.toInt)) (by omega : _ ≤ size.height)
      size.fits.2.2.2 sized.rows.1 sized.rows.2 padded.positive padded.fits
    have wide := sized.columns
    have high := sized.rows
    have positive := padded.positive
    have most := padded.fits
    simp only [columns, rows, Option.bind_some]
    rw [Signed.int32_of_fits (by omega) (by omega), Option.bind_some,
      Signed.int32_of_fits (by omega) (by omega), Option.bind_some,
      outputDamageAddPx_eq d (by simp only; omega) (by simp only; omega)]
    refine ⟨_, rfl, well.addPx _ _ _, fun x y => OutputDamage.addPx_mono well _ _ _, ?_⟩
    rintro x y inside ⟨tx, ty, column, row, r', member, texel⟩
    obtain rfl := List.mem_singleton.mp member
    apply OutputDamage.addPx_covers well inside
    simp only [Rect.Contains] at inside
    simp only [DamageReport.Contains] at texel
    obtain ⟨left, right, -, -⟩ := column.near pixels.1 inside.1 inside.2.1
    obtain ⟨top, bottom, -, -⟩ := row.near pixels.2 inside.2.2.1 inside.2.2.2
    have acrossX := stretched_bounds pixels.1 inside.1 inside.2.1 column
      (by omega : max 0 r.x.toInt ≤ tx) (by omega : tx < min size.width (r.x.toInt + r.w.toInt))
      padded.columns
    have acrossY := stretched_bounds pixels.2 inside.2.2.1 inside.2.2.2 row
      (by omega : max 0 r.y.toInt ≤ ty) (by omega : ty < min size.height (r.y.toInt + r.h.toInt))
      padded.rows
    simp only [DamageReport.Contains]
    omega

theorem foldlM_addStretched {size : BufferSize} (sized : o.Sized)
    (pixels : 0 < size.width ∧ 0 < size.height) (padded : Padded o size pad)
    (rects : List DirtyRect) {d : OutputDamage} (well : d.WellFormed) :
    ∃ after, (rects.map DirtyRect.report).foldlM
        (addStretched o ⟨0, 0, size.width, size.height⟩ pad) d = some after ∧
      (∀ x y, d.Covers x y → after.Covers x y) ∧
        ∀ x y, (⟨0, 0, o.width, o.height⟩ : Rect).Contains x y →
          DependsOnDirty o size (rects.map DirtyRect.report) x y → after.Covers x y := by
  -- The induction is on the rectangles, each of which keeps what was covered before.
  induction rects generalizing d with
  | nil =>
    refine ⟨d, rfl, fun x y covered => covered, ?_⟩
    rintro x y - ⟨tx, ty, -, -, r, member, -⟩
    cases member
  | cons r rest ih =>
    obtain ⟨next, added, wellNext, kept, covers⟩ := addStretched_spec sized pixels padded well r
    obtain ⟨after, others, keptLater, coversLater⟩ := ih wellNext
    refine ⟨after, ?_, fun x y covered => keptLater x y (kept x y covered), ?_⟩
    · rw [List.map_cons, List.foldlM_cons, added]
      exact others
    · rintro x y inside ⟨tx, ty, column, row, r', member, texel⟩
      rcases List.mem_cons.mp member with rfl | later
      · exact keptLater x y (covers x y inside
          ⟨tx, ty, column, row, r.report, List.mem_singleton_self _, texel⟩)
      · exact coversLater x y inside ⟨tx, ty, column, row, r', later, texel⟩

/-- The dirty rectangles of a surface are added without overflow, and the damage then covers every
pixel of the output that depends on one of their texels. -/
def DirtySurface.Conservative (o : Screen) (s : DirtySurface) (d : OutputDamage) : Prop :=
  ∃ after, s.outputDamageAddSurfaceDirtyRects o d = some (true, after) ∧
    ∀ x y, (⟨0, 0, o.width, o.height⟩ : Rect).Contains x y →
      DependsOnDirty o s.size s.glDirtyRects x y → after.Covers x y

/-- A window stretched over the output, with dirty rectangles and without a viewport. -/
structure DirtySurface.Stretched (o : Screen) (s : DirtySurface) (rects : List DirtyRect) :
    Prop where
  fills : s.fillsOutput o = true
  mapped : s.mapped = true
  source : s.source = none
  destination : s.destination = none
  -- Its buffer has pixels, as every buffer has.
  pixels : 0 < s.size.width ∧ 0 < s.size.height
  dirty : s.glDirty = true
  listed : s.glDirtyRects = rects.map DirtyRect.report
  some_ : rects ≠ []

theorem dirtyRects_stretched {s : DirtySurface} {rects : List DirtyRect}
    (stretched : s.Stretched o rects) (d : OutputDamage) :
    s.outputDamageAddSurfaceDirtyRects o d =
      (stretchPad o ⟨0, 0, s.size.width, s.size.height⟩).bind fun pad =>
        ((rects.map DirtyRect.report).foldlM
          (addStretched o ⟨0, 0, s.size.width, s.size.height⟩ pad) d).bind fun after =>
            some (true, after) := by
  have given : s.glDirtyRects ≠ [] := by
    rw [stretched.listed]
    simpa using stretched.some_
  simp only [DirtySurface.outputDamageAddSurfaceDirtyRects, Option.bind_eq_bind,
    ShownSurface.sourceRect_whole stretched.source, Option.bind_some]
  rw [if_neg (by simp [stretched.mapped, stretched.dirty, given]),
    if_neg (by simp [stretched.source, stretched.destination]), if_pos stretched.fills,
    if_neg (by have pixels := stretched.pixels; omega), stretched.listed]

/-- Stretched damage is conservative exactly if the sums of its padding do not overflow. -/
theorem stretched_conservative_iff {o : Screen} {s : DirtySurface} {rects : List DirtyRect}
    {d : OutputDamage} (limit : Int) (gpu : limit ≤ 536870912)
    (columns : 0 < o.width ∧ o.width ≤ limit) (rows : 0 < o.height ∧ o.height ≤ limit)
    (stretched : s.Stretched o rects) (well : d.WellFormed) :
    s.Conservative o d ↔
      o.width + s.size.width ≤ 2147483647 ∧ o.height + s.size.height ≤ 2147483647 := by
  have sized : o.Sized := ⟨⟨columns.1, columns.2.trans gpu⟩, ⟨rows.1, rows.2.trans gpu⟩⟩
  unfold DirtySurface.Conservative
  rw [dirtyRects_stretched stretched]
  constructor
  · intro conservative
    by_contra overflow
    rw [stretchPad_none sized overflow] at conservative
    simp at conservative
  · intro fits
    obtain ⟨pad, found, padded⟩ := stretchPad_spec sized stretched.pixels fits
    obtain ⟨after, added, -, covers⟩ := foldlM_addStretched sized stretched.pixels padded rects well
    refine ⟨after, by rw [found, Option.bind_some, added, Option.bind_some], ?_⟩
    rw [stretched.listed]
    exact covers

/-- Full screen windows with a dirty pixel on an output of common size: one of a common size, and
one with a single row of as many pixels as 32 bits allow, less one. -/
def desktop : Screen :=
  ⟨⟨1920, 1080, 1⟩, false⟩
def commonWindow : DirtySurface where
  currentBuffer := some (.shm true)
  size := ⟨640, 400, by decide⟩
  toplevelFullscreen := true
  glDirty := true
  glDirtyRects := [⟨3, 0, 1, 1⟩]
def wideWindow : DirtySurface where
  currentBuffer := some (.shm true)
  size := ⟨2147483646, 1, by decide⟩
  toplevelFullscreen := true
  glDirty := true
  glDirtyRects := [⟨3, 0, 1, 1⟩]

theorem stretched_conservative_common : commonWindow.Conservative desktop {} :=
  (stretched_conservative_iff 16384 (by decide) (by decide) (by decide)
    (⟨rfl, rfl, rfl, rfl, by decide, rfl, rfl, by decide⟩ :
      commonWindow.Stretched desktop [⟨3, 0, 1, 1⟩])
    OutputDamage.wellFormed_empty).mpr (by decide)

/-- The sum of the width of the output and that of the wide window overflows. -/
theorem stretched_overflow : ¬wideWindow.Conservative desktop {} := by
  have sized : desktop.Sized := ⟨by decide, by decide⟩
  have stretched : wideWindow.Stretched desktop [⟨3, 0, 1, 1⟩] :=
    ⟨rfl, rfl, rfl, rfl, by decide, rfl, rfl, by decide⟩
  rintro ⟨after, added, -⟩
  rw [dirtyRects_stretched stretched, stretchPad_none sized (by decide)] at added
  cases added

end Xios
