import Xios.Output.Requested
import Xios.Output.Viewport
import Mathlib.Tactic.Ring

/-! Which requests of damage reach all that the surface shows of what they name. -/

namespace Xios

/-- The image of a pixel overlaps a pixel of the output, where a row of pixels is stretched over
another one. -/
def Meets (first length origin extent b p : Int) : Prop :=
  (b - first) * extent < (p + 1 - origin) * length ∧
    (p - origin) * length < (b + 1 - first) * extent

def imageStart (first length origin extent b : Int) : Int :=
  origin + (b - first) * extent / length

/-- The pixel of the output just past the image of all pixels before one. -/
def imageEnd (first length origin extent b : Int) : Int :=
  origin - -((b - first) * extent) / length

theorem meets_interval {length extent : Int} (pixels : 0 < length) (space : 0 < extent)
    (first origin b0 b1 p : Int) :
    (∃ b, b0 ≤ b ∧ b < b1 ∧ Meets first length origin extent b p) ↔
      b0 < b1 ∧ imageStart first length origin extent b0 ≤ p ∧
        p < imageEnd first length origin extent b1 := by
  have start : imageStart first length origin extent b0 ≤ p ↔
      (b0 - first) * extent < (p + 1 - origin) * length := by
    rw [imageStart, ← Int.ediv_lt_iff_lt_mul pixels]
    omega
  have stop : p < imageEnd first length origin extent b1 ↔
      (p - origin) * length < (b1 - first) * extent := by
    have negated : -((b1 - first) * extent) / length < origin - p ↔
        -((b1 - first) * extent) < (origin - p) * length := Int.ediv_lt_iff_lt_mul pixels
    have turned : (origin - p) * length = -((p - origin) * length) := by ring
    rw [imageEnd]
    omega
  rw [start, stop]
  -- Images of later pixels are not further to the left.
  have grows : ∀ {a b : Int}, a ≤ b → (a - first) * extent ≤ (b - first) * extent := by
    intro a b le
    exact Int.mul_le_mul_of_nonneg_right (by omega) space.le
  constructor
  · rintro ⟨b, lower, upper, below, above⟩
    exact ⟨by omega, (grows lower).trans_lt below, above.trans_le (grows (by omega))⟩
  · rintro ⟨some_, below, above⟩
    -- The pixel that the left edge of the output's one lies in, or else the first of them.
    have quotient := Int.ediv_mul_le ((p - origin) * length) space.ne'
    have next := Int.lt_ediv_add_one_mul_self ((p - origin) * length) space
    have inside : (p - origin) * length / extent < b1 - first := by
      rw [Int.ediv_lt_iff_lt_mul space]
      exact above
    have along : (p + 1 - origin) * length = (p - origin) * length + length := by ring
    generalize (p - origin) * length / extent = q at quotient next inside
    rcases Int.le_total b0 (first + q) with early | late
    · refine ⟨first + q, early, by omega, ?_, ?_⟩
      · have shifted : first + q - first = q := by omega
        rw [shifted]
        omega
      · have shifted : first + q + 1 - first = q + 1 := by omega
        rw [shifted]
        exact next
    · refine ⟨b0, le_rfl, some_, below, next.trans_le ?_⟩
      exact Int.mul_le_mul_of_nonneg_right (by omega) space.le

namespace DirtySurface

/-- The surface shows one of the pixels of a rectangle, where a space of pixels is drawn. -/
def Shows (space : Area) (dest : Rect) (r : DamageReport) (x y : Int) : Prop :=
  ∃ bx by_, r.Contains bx by_ ∧
    (space.x ≤ bx ∧ bx < space.x + space.w ∧ space.y ≤ by_ ∧ by_ < space.y + space.h) ∧
      Meets space.x space.w dest.x0 (dest.x1 - dest.x0) bx x ∧
        Meets space.y space.h dest.y0 (dest.y1 - dest.y0) by_ y

/-- The pixels of the output where the surface shows pixels of a rectangle. -/
def image (o : Screen) (space : Area) (dest : Rect) (r : DamageReport) : Rect :=
  let left := max r.x space.x
  let right := min (r.x + r.w) (space.x + space.w)
  let top := max r.y space.y
  let bottom := min (r.y + r.h) (space.y + space.h)
  if left < right ∧ top < bottom then
    ⟨max 0 (imageStart space.x space.w dest.x0 (dest.x1 - dest.x0) left),
      max 0 (imageStart space.y space.h dest.y0 (dest.y1 - dest.y0) top),
      min o.width (imageEnd space.x space.w dest.x0 (dest.x1 - dest.x0) right),
      min o.height (imageEnd space.y space.h dest.y0 (dest.y1 - dest.y0) bottom)⟩
  else ⟨0, 0, 0, 0⟩

variable {dest : Rect}

theorem contains_image (o : Screen) {space : Area} (pixels : 0 < space.w ∧ 0 < space.h)
    (drawn : dest.x0 < dest.x1 ∧ dest.y0 < dest.y1) (r : DamageReport) (x y : Int) :
    (image o space dest r).Contains x y ↔
      (⟨0, 0, o.width, o.height⟩ : Rect).Contains x y ∧ Shows space dest r x y := by
  have columns := meets_interval pixels.1 (by omega : 0 < dest.x1 - dest.x0) space.x dest.x0
    (max r.x space.x) (min (r.x + r.w) (space.x + space.w)) x
  have rows := meets_interval pixels.2 (by omega : 0 < dest.y1 - dest.y0) space.y dest.y0
    (max r.y space.y) (min (r.y + r.h) (space.y + space.h)) y
  -- Columns and rows are found apart from each other.
  have split_ : Shows space dest r x y ↔
      (∃ b, max r.x space.x ≤ b ∧ b < min (r.x + r.w) (space.x + space.w) ∧
        Meets space.x space.w dest.x0 (dest.x1 - dest.x0) b x) ∧
      ∃ b, max r.y space.y ≤ b ∧ b < min (r.y + r.h) (space.y + space.h) ∧
        Meets space.y space.h dest.y0 (dest.y1 - dest.y0) b y := by
    simp only [Shows, DamageReport.Contains]
    constructor
    · rintro ⟨bx, by_, named, present, across, down⟩
      exact ⟨⟨bx, by omega, by omega, across⟩, by_, by omega, by omega, down⟩
    · rintro ⟨⟨bx, left, right, across⟩, by_, top, bottom, down⟩
      exact ⟨bx, by_, by omega, by omega, across, down⟩
  rw [split_, columns, rows, image]
  split
  · simp only [Rect.Contains]
    omega
  · simp only [Rect.Contains]
    omega

def scaledReport (o : Screen) (t : DamageReport) : DamageReport :=
  ⟨t.x * o.outputScale, t.y * o.outputScale, t.w * o.outputScale, t.h * o.outputScale⟩

/-- Neither the pixels of a rectangle nor its far edges leave 32 bits. -/
def ScaledFits (o : Screen) (t : DamageReport) : Prop :=
  Signed.Fits32 (t.x * o.outputScale) ∧ Signed.Fits32 (t.y * o.outputScale) ∧
    Signed.Fits32 (t.w * o.outputScale) ∧ Signed.Fits32 (t.h * o.outputScale) ∧
      Signed.Fits32 (t.x * o.outputScale + t.w * o.outputScale) ∧
        Signed.Fits32 (t.y * o.outputScale + t.h * o.outputScale)
  deriving Decidable

variable {t : DamageReport}

theorem scaled_addPx_eq (o : Screen) (some_ : 0 < t.w ∧ 0 < t.h) (d : OutputDamage) :
    ((scaled o t).bind fun px => outputDamageAddPx o d px) =
      if ScaledFits o t then some (d.addPx o.width o.height (scaledReport o t)) else none := by
  have positive := o.outputScale_pos
  have wide := Int.mul_pos some_.1 positive
  have high := Int.mul_pos some_.2 positive
  split
  · rename_i fits
    obtain ⟨x, y, w, h, right, bottom⟩ := fits
    simp only [scaled, Option.bind_eq_bind]
    rw [Signed.int32_of_fits x.1 x.2, Option.bind_some, Signed.int32_of_fits y.1 y.2,
      Option.bind_some, Signed.int32_of_fits w.1 w.2, Option.bind_some,
      Signed.int32_of_fits h.1 h.2, Option.bind_some, Option.bind_some]
    exact outputDamageAddPx_eq d right bottom
  · rename_i overflow
    cases result : (scaled o t).bind fun px => outputDamageAddPx o d px with
    | none => rfl
    | some after =>
      -- Every step that succeeded has had numbers that fit.
      simp only [scaled, Option.bind_eq_bind, Option.bind_eq_some_iff, Signed.int32_eq_some,
        Option.some.injEq] at result
      obtain ⟨_, ⟨_, ⟨rfl, x⟩, _, ⟨rfl, y⟩, _, ⟨rfl, w⟩, _, ⟨rfl, h⟩, rfl⟩, added⟩ := result
      simp only [outputDamageAddPx] at added
      rw [if_neg (by omega)] at added
      simp only [Option.bind_eq_bind, Option.bind_eq_some_iff, Signed.int32_eq_some] at added
      obtain ⟨_, ⟨-, right⟩, _, ⟨-, bottom⟩, -⟩ := added
      exact absurd ⟨x, y, w, h, right, bottom⟩ overflow

def overlaid (s : DirtySurface) : Option DamageReport :=
  if s.currentBuffer = none ∨ s.displaySize.1 ≤ 0 ∨ s.displaySize.2 ≤ 0 then none
  else s.overlay.map fun p => ⟨p.x, p.y, s.displaySize.1, s.displaySize.2⟩

/-- The rectangle of the output, in its units, that a request for a part of the surface comes to. -/
def target (s : DirtySurface) (r : DamageReport) : Option DamageReport :=
  match s.overlaid with
  | some t => some t
  | none => if r.w ≤ 0 ∨ r.h ≤ 0 then none else some ⟨s.dx + r.x, s.dy + r.y, r.w, r.h⟩

variable {s : DirtySurface} {r : DamageReport}

theorem target_pos (found : s.target r = some t) : 0 < t.w ∧ 0 < t.h := by
  unfold target overlaid at found
  by_cases nothing : s.currentBuffer = none ∨ s.displaySize.1 ≤ 0 ∨ s.displaySize.2 ≤ 0
  · -- Nothing is drawn as an overlay, so that the rectangle is the one that was asked for.
    rw [if_pos nothing] at found
    simp only at found
    split at found
    · cases found
    · cases found
      simp only
      omega
  · rw [if_neg nothing] at found
    cases overlay : s.overlay with
    | some p =>
      simp only [overlay, Option.map_some, Option.some.injEq] at found
      subst found
      simp only
      omega
    | none =>
      simp only [overlay, Option.map_none] at found
      split at found
      · cases found
      · cases found
        simp only
        omega

theorem outputDamageAddOverlaySurface_eq (o : Screen) (s : DirtySurface) (d : OutputDamage) :
    s.outputDamageAddOverlaySurface o d =
      match s.overlaid with
      | some t => ((scaled o t).bind fun px => outputDamageAddPx o d px).map (true, ·)
      | none => some (false, d) := by
  unfold outputDamageAddOverlaySurface overlaid
  cases s.overlay with
  | none => simp
  | some p =>
    simp only
    split
    · rfl
    · simp only [Option.map_some, Option.bind_eq_bind]
      cases scaled o ⟨p.x, p.y, s.displaySize.1, s.displaySize.2⟩ with
      | none => rfl
      | some px =>
        simp only [Option.bind_some]
        cases outputDamageAddPx o d px <;> rfl

theorem outputDamageAddSurfaceRect_eq (o : Screen) (s : DirtySurface) (mapped : s.mapped = true)
    (d : OutputDamage) (positive : 0 < r.w ∧ 0 < r.h) :
    s.outputDamageAddSurfaceRect o d r =
      if ScaledFits o ⟨s.dx + r.x, s.dy + r.y, r.w, r.h⟩ then
        some (d.addPx o.width o.height (scaledReport o ⟨s.dx + r.x, s.dy + r.y, r.w, r.h⟩))
      else none := by
  have whole := scaled_addPx_eq o (t := ⟨s.dx + r.x, s.dy + r.y, r.w, r.h⟩) positive d
  rw [outputDamageAddSurfaceRect, if_neg (by simp [mapped]; omega)]
  simp only [Option.bind_eq_bind]
  by_cases fits : ScaledFits o ⟨s.dx + r.x, s.dy + r.y, r.w, r.h⟩
  · -- The sums fit because their products do.
    have x := fits.1.of_mul o.outputScale_pos
    have y := fits.2.1.of_mul o.outputScale_pos
    rw [Signed.int32_of_fits x.1 x.2, Option.bind_some, Signed.int32_of_fits y.1 y.2,
      Option.bind_some, whole]
  · -- Either a sum overflows, or what is made of it.
    rw [if_neg fits] at whole ⊢
    cases left : Signed.int32 (s.dx + r.x) with
    | none => rfl
    | some x =>
      cases top : Signed.int32 (s.dy + r.y) with
      | none => rfl
      | some y =>
        obtain ⟨rfl, -⟩ := Signed.int32_eq_some.mp left
        obtain ⟨rfl, -⟩ := Signed.int32_eq_some.mp top
        rw [Option.bind_some, Option.bind_some, whole]

theorem addRequest_eq (o : Screen) (s : DirtySurface) (mapped : s.mapped = true)
    (d : OutputDamage) (r : DamageReport) :
    DamageState.addRequest o ⟨s, d⟩ r =
      match s.target r with
      | none => some ⟨s, d⟩
      | some t =>
        if ScaledFits o t then some ⟨s, d.addPx o.width o.height (scaledReport o t)⟩ else none := by
  simp only [DamageState.addRequest, outputDamageAddOverlaySurface_eq, Option.bind_eq_bind]
  cases drawn : s.overlaid with
  | some t =>
    -- An overlay is added as a whole, whatever was asked for.
    have found : s.target r = some t := by simp [target, drawn]
    simp only [found, scaled_addPx_eq o (target_pos found)]
    split <;> rfl
  | none =>
    simp only [target, drawn, Option.bind_some, Bool.false_eq_true, ↓reduceIte]
    by_cases empty : r.w ≤ 0 ∨ r.h ≤ 0
    · rw [if_pos empty, outputDamageAddSurfaceRect, if_pos (by tauto), Option.bind_some]
    · rw [if_neg empty, outputDamageAddSurfaceRect_eq o s mapped d (by omega)]
      split
      next fits => simp only [fits, ↓reduceIte, Option.bind_some]
      next unfit => simp only [unfit, ↓reduceIte, Option.bind_none]

theorem addPx_empty_covers (width height : Int) (report : DamageReport) (x y : Int) :
    (({} : OutputDamage).addPx width height report).Covers x y ↔
      (⟨0, 0, width, height⟩ : Rect).Contains x y ∧ report.Contains x y := by
  simp only [OutputDamage.addPx, Rect.Contains, DamageReport.Contains]
  split
  · simp only [OutputDamage.Covers, Bool.false_eq_true, false_and, false_iff]
    omega
  · split
    · simp only [OutputDamage.Covers, Bool.false_eq_true, false_and, false_iff]
      omega
    · simp [OutputDamage.addRect, OutputDamage.unionAddRect, OutputDamage.mergeRect,
        maxOutputDamageRects, OutputDamage.Covers, Rect.Contains]
      omega

/-- Nothing is shown of what was named, or it lies within the rectangle that was added. -/
def Reached (o : Screen) (shown : Rect) (added : Option DamageReport) : Prop :=
  shown.x1 ≤ shown.x0 ∨ shown.y1 ≤ shown.y0 ∨
    ∃ t ∈ added, shown.Within
      ⟨t.x * o.outputScale, t.y * o.outputScale, (t.x + t.w) * o.outputScale,
        (t.y + t.h) * o.outputScale⟩
  deriving Decidable

/-- A request covers what is shown of it exactly when its rectangle reaches that. -/
theorem addRequest_covers_iff (o : Screen) (s : DirtySurface) (mapped : s.mapped = true)
    (r : DamageReport) {shown : Rect}
    (within : ∀ x y, shown.Contains x y → (⟨0, 0, o.width, o.height⟩ : Rect).Contains x y) :
    (∀ d : OutputDamage, d.WellFormed → ∃ st, DamageState.addRequest o ⟨s, d⟩ r = some st ∧
      ∀ x y, shown.Contains x y → st.damage.Covers x y) ↔
      (∀ t ∈ s.target r, ScaledFits o t) ∧ Reached o shown (s.target r) := by
  simp only [addRequest_eq o s mapped]
  cases s.target r with
  | none =>
    simp only [Option.some.injEq, exists_eq_left', Option.not_mem_none, false_imp_iff,
      implies_true, true_and, Reached, false_and, exists_false, or_false]
    constructor
    · intro covers
      -- Starting without damage, nothing is covered.
      have nothing := (Rect.subset_iff shown ⟨0, 0, 0, 0⟩).mp fun x y inside =>
        absurd (covers {} OutputDamage.wellFormed_empty x y inside).1 (by decide)
      simp only [Rect.Within] at nothing
      omega
    · intro empty d _ x y inside
      simp only [Rect.Contains] at inside
      omega
  | some t =>
    simp only [Option.mem_def, Option.some.injEq, forall_eq', Reached, exists_eq_left']
    have inside_iff : ∀ x y, (scaledReport o t).Contains x y ↔
        (⟨t.x * o.outputScale, t.y * o.outputScale, (t.x + t.w) * o.outputScale,
          (t.y + t.h) * o.outputScale⟩ : Rect).Contains x y := by
      intro x y
      simp only [scaledReport, DamageReport.Contains, Rect.Contains, Int.add_mul]
    rw [← Rect.subset_iff]
    by_cases fits : ScaledFits o t
    · simp only [fits, ↓reduceIte, Option.some.injEq, exists_eq_left', true_and]
      constructor
      · intro covers x y inside
        have covered := covers {} OutputDamage.wellFormed_empty x y inside
        exact (inside_iff x y).mp ((addPx_empty_covers _ _ _ x y).mp covered).2
      · intro subset d well x y inside
        exact OutputDamage.addPx_covers well (within x y inside)
          ((inside_iff x y).mpr (subset x y inside))
    · simp only [fits, ↓reduceIte, reduceCtorEq, false_and, exists_false, imp_false, iff_false]
      exact fun never => never {} OutputDamage.wellFormed_empty

variable {o : Screen}

theorem drawnRect_some {s : ShownSurface} (columns : 0 < o.width) (rows : 0 < o.height)
    (drawn : s.drawnRect o = some dest) :
    ∃ src, s.sourceRect = some src ∧ (0 < src.w ∧ 0 < src.h) ∧
      (0 < s.displaySize.1 ∧ 0 < s.displaySize.2) ∧ dest.x0 < dest.x1 ∧ dest.y0 < dest.y1 := by
  obtain ⟨src, sampled, -⟩ := s.sourceRect_spec
  have positive := o.outputScale_pos
  simp only [ShownSurface.drawnRect, sampled, Option.bind_eq_bind, Option.bind_some] at drawn
  split at drawn
  · cases drawn
  · rename_i something
    simp only [not_or, not_le] at something
    obtain ⟨-, dw, dh, sw, sh⟩ := something
    refine ⟨src, sampled, ⟨sw, sh⟩, ⟨dw, dh⟩, ?_⟩
    split at drawn
    · cases drawn
      exact ⟨columns, rows⟩
    · cases drawn
      have wide := Int.mul_pos dw positive
      have high := Int.mul_pos dh positive
      simp only
      omega

def shownUnits (o : Screen) (s : ShownSurface) (r : DamageReport) : Rect :=
  match s.drawnRect o with
  | none => ⟨0, 0, 0, 0⟩
  | some dest => image o ⟨0, 0, s.displaySize.1, s.displaySize.2⟩ dest r

def shownPixels (o : Screen) (s : ShownSurface) (r : DamageReport) : Rect :=
  match s.drawnRect o, s.sourceRect with
  | some dest, some src => image o src dest r
  | _, _ => ⟨0, 0, 0, 0⟩

theorem contains_shownUnits (columns : 0 < o.width) (rows : 0 < o.height) (s : ShownSurface)
    (r : DamageReport) (x y : Int) :
    (shownUnits o s r).Contains x y ↔ (⟨0, 0, o.width, o.height⟩ : Rect).Contains x y ∧
      ∃ dest ∈ s.drawnRect o, Shows ⟨0, 0, s.displaySize.1, s.displaySize.2⟩ dest r x y := by
  unfold shownUnits
  cases drawn : s.drawnRect o with
  | none =>
    simp only [Rect.Contains, Option.not_mem_none, false_and, exists_false, and_false, iff_false]
    omega
  | some dest =>
    obtain ⟨-, -, -, size, space⟩ := drawnRect_some columns rows drawn
    simpa using contains_image o size space r x y

theorem contains_shownPixels (columns : 0 < o.width) (rows : 0 < o.height) (s : ShownSurface)
    (r : DamageReport) (x y : Int) :
    (shownPixels o s r).Contains x y ↔ (⟨0, 0, o.width, o.height⟩ : Rect).Contains x y ∧
      ∃ dest ∈ s.drawnRect o, ∃ src ∈ s.sourceRect, Shows src dest r x y := by
  unfold shownPixels
  cases drawn : s.drawnRect o with
  | none =>
    simp only [Rect.Contains, Option.not_mem_none, false_and, exists_false, and_false, iff_false]
    omega
  | some dest =>
    obtain ⟨src, sampled, pixels, -, space⟩ := drawnRect_some columns rows drawn
    simpa [sampled] using contains_image o pixels space r x y

/-- A request is carried out without overflow, and the damage then covers what is shown of it. -/
def Covered (o : Screen) (s : DirtySurface) (request : DamageState → Option DamageState)
    (shows : Int → Int → Prop) : Prop :=
  ∀ d : OutputDamage, d.WellFormed → ∃ st, request ⟨s, d⟩ = some st ∧
    ∀ x y, (⟨0, 0, o.width, o.height⟩ : Rect).Contains x y → shows x y → st.damage.Covers x y

/-- Requests in units cover what is shown exactly if the pixels of their rectangle fit and reach
that. -/
theorem surfaceDamage_covers_iff (columns : 0 < o.width) (rows : 0 < o.height) (s : DirtySurface)
    (mapped : s.mapped = true) (r : DirtyRect) :
    Covered o s (·.surfaceDamage o r) (fun x y => ∃ dest ∈ s.drawnRect o,
        Shows ⟨0, 0, s.displaySize.1, s.displaySize.2⟩ dest r.report x y) ↔
      (∀ t ∈ s.target r.report, ScaledFits o t) ∧
        Reached o (shownUnits o s.toShownSurface r.report) (s.target r.report) := by
  have inside := contains_shownUnits columns rows s.toShownSurface r.report
  have exactly := addRequest_covers_iff o s.glDirtyFull mapped r.report fun x y shown =>
    ((inside x y).mp shown).1
  simp only [inside, and_imp] at exactly
  exact exactly

theorem clipAxis_isSome_iff {start length size : Int} (first : Signed.Fits32 start)
    (extent : 0 < length ∧ length ≤ 2147483647) (fits : 0 ≤ size ∧ size ≤ 2147483647) :
    (∃ axis, clipAxis start length size = some axis) ↔
      (0 < size → start + length ≤ 2147483647) := by
  obtain ⟨least, most⟩ := first
  simp only [clipAxis, Option.bind_eq_bind]
  by_cases negative : start < 0
  · -- What is cut off on the left makes the sum smaller.
    simp only [negative, ↓reduceIte]
    rw [Signed.int32_of_fits (by omega) (by omega), Option.bind_some]
    split
    · exact iff_of_true ⟨_, rfl⟩ (by omega)
    · rw [Signed.int32_of_fits (by omega) (by omega), Option.bind_some]
      split
      · rw [Signed.int32_of_fits (by omega) (by omega)]
        exact iff_of_true ⟨_, rfl⟩ (by omega)
      · exact iff_of_true ⟨_, rfl⟩ (by omega)
  · simp only [negative, ↓reduceIte, Option.bind_some]
    split
    · exact iff_of_true ⟨_, rfl⟩ (by omega)
    · by_cases ends : start + length ≤ 2147483647
      · rw [Signed.int32_of_fits (by omega) ends, Option.bind_some]
        split
        · rw [Signed.int32_of_fits (by omega) (by omega)]
          exact iff_of_true ⟨_, rfl⟩ (fun _ => ends)
        · exact iff_of_true ⟨_, rfl⟩ (fun _ => ends)
      · rw [Signed.int32_of_large (by omega), Option.bind_none]
        exact iff_of_false (by simp) (by omega)

/-- The far edges of a request fit where the buffer has something to clip them to. -/
def EndsFit (s : DirtySurface) (r : DamageReport) : Prop :=
  0 < r.w → 0 < r.h →
    (0 < s.size.width → r.x + r.w ≤ 2147483647) ∧ (0 < s.size.height → r.y + r.h ≤ 2147483647)
  deriving Decidable

theorem noteDirty_frame (s : DirtySurface) (r : DamageReport) :
    ∃ dirty rects, s.noteDirty r = { s with glDirty := dirty, glDirtyRects := rects } := by
  unfold noteDirty
  split
  · exact ⟨s.glDirty, s.glDirtyRects, rfl⟩
  split
  · exact ⟨s.glDirty, s.glDirtyRects, rfl⟩
  split
  · exact ⟨true, [], rfl⟩
  · exact ⟨true, s.glDirtyRects ++ [r], rfl⟩

theorem glDirtyBufferRect_spec (s : DirtySurface) (r : DirtyRect) :
    if s.EndsFit r.report then ∃ dirty rects, s.glDirtyBufferRect r.report =
        some { s with glDirty := dirty, glDirtyRects := rects }
    else s.glDirtyBufferRect r.report = none := by
  have wFits := Viewport.toInt_le r.w
  have hFits := Viewport.toInt_le r.h
  obtain ⟨width, widthFits, height, heightFits⟩ := s.size.fits
  by_cases empty : r.report.w ≤ 0 ∨ r.report.h ≤ 0
  · rw [if_pos (by simp only [EndsFit]; omega), glDirtyBufferRect, if_pos empty]
    exact ⟨s.glDirty, s.glDirtyRects, rfl⟩
  · rw [glDirtyBufferRect, if_neg empty]
    simp only [DirtyRect.report] at empty
    have across := clipAxis_isSome_iff (Signed.fits32_toInt r.x)
      ⟨(by omega : 0 < r.w.toInt), wFits⟩ ⟨width, widthFits⟩
    have down := clipAxis_isSome_iff (Signed.fits32_toInt r.y)
      ⟨(by omega : 0 < r.h.toInt), hFits⟩ ⟨height, heightFits⟩
    by_cases ends : s.EndsFit r.report
    · rw [if_pos ends]
      simp only [DirtyRect.report, Option.bind_eq_bind]
      obtain ⟨columnsFit, rowsFit⟩ := ends (by omega : 0 < r.w.toInt) (by omega : 0 < r.h.toInt)
      obtain ⟨columns, clippedX⟩ := across.mpr columnsFit
      obtain ⟨rows, clippedY⟩ := down.mpr rowsFit
      obtain ⟨dirty, rects, same⟩ := s.noteDirty_frame ⟨columns.1, rows.1, columns.2, rows.2⟩
      refine ⟨dirty, rects, ?_⟩
      rw [clippedX, Option.bind_some, clippedY, Option.bind_some, same]
    · -- If both axes could be clipped, their ends would fit.
      rw [if_neg ends]
      simp only [DirtyRect.report, Option.bind_eq_bind]
      cases columns : clipAxis r.x.toInt r.w.toInt s.size.width with
      | none => rfl
      | some axis =>
        cases rows : clipAxis r.y.toInt r.h.toInt s.size.height with
        | none => rfl
        | some other =>
          exact absurd (fun _ _ => ⟨across.mp ⟨axis, columns⟩, down.mp ⟨other, rows⟩⟩) ends

/-- The size of a request can be rounded up to units. -/
def RoundingFits (s : DirtySurface) (r : DamageReport) : Prop :=
  r.w + s.scale ≤ 2147483647 ∧ r.h + s.scale ≤ 2147483647
  deriving Decidable

/-- A request in pixels of the buffer, rounded to units: its origin and its size by itself. -/
def inUnits (s : DirtySurface) (r : DamageReport) : DamageReport :=
  ⟨r.x.tdiv s.scale, r.y.tdiv s.scale, (r.w + s.scale - 1).tdiv s.scale,
    (r.h + s.scale - 1).tdiv s.scale⟩

theorem roundedUp_eq {v scale : Int} (first : -2147483648 ≤ v) (positive : 0 < scale) :
    DamageState.roundedUp v scale =
      if v + scale ≤ 2147483647 then some ((v + scale - 1).tdiv scale) else none := by
  simp only [DamageState.roundedUp, Option.bind_eq_bind]
  split
  · rename_i fits
    rw [Signed.int32_of_fits (by omega) fits, Option.bind_some,
      Signed.int32_of_fits (by omega) (by omega), Option.bind_some]
  · rename_i large
    rw [Signed.int32_of_large (by omega), Option.bind_none]

theorem surfaceDamageBuffer_eq (o : Screen) {r : DirtyRect} {dirty rects}
    (dirtied : s.glDirtyBufferRect r.report =
      some { s with glDirty := dirty, glDirtyRects := rects }) (d : OutputDamage) :
    DamageState.surfaceDamageBuffer o ⟨s, d⟩ r =
      if s.RoundingFits r.report then
        DamageState.addRequest o ⟨{ s with glDirty := dirty, glDirtyRects := rects }, d⟩
          (s.inUnits r.report)
      else none := by
  simp only [DamageState.surfaceDamageBuffer, dirtied, Option.bind_eq_bind, Option.bind_some,
    roundedUp_eq r.w.le_toInt s.scale_pos, roundedUp_eq r.h.le_toInt s.scale_pos]
  by_cases wide : r.w.toInt + s.scale ≤ 2147483647
  · by_cases high : r.h.toInt + s.scale ≤ 2147483647
    · have both : s.RoundingFits r.report := ⟨wide, high⟩
      simp only [wide, high, both, ↓reduceIte, Option.bind_some]
      rfl
    · have both : ¬s.RoundingFits r.report := fun fits => high fits.2
      simp [wide, high, both]
  · have both : ¬s.RoundingFits r.report := fun fits => wide fits.1
    simp [wide, both]

/-- Requests in pixels of the buffer cover what is shown exactly if nothing overflows on the way and
the units they are rounded to reach that. -/
theorem surfaceDamageBuffer_covers_iff (columns : 0 < o.width) (rows : 0 < o.height)
    (s : DirtySurface) (mapped : s.mapped = true) (r : DirtyRect) :
    Covered o s (·.surfaceDamageBuffer o r) (fun x y => ∃ dest ∈ s.drawnRect o,
        ∃ src ∈ s.sourceRect, Shows src dest r.report x y) ↔
      (s.EndsFit r.report ∧ s.RoundingFits r.report ∧
        ∀ t ∈ s.target (s.inUnits r.report), ScaledFits o t) ∧
        Reached o (shownPixels o s.toShownSurface r.report) (s.target (s.inUnits r.report)) := by
  have inside := contains_shownPixels columns rows s.toShownSurface r.report
  have dirtied := glDirtyBufferRect_spec s r
  by_cases ends : s.EndsFit r.report
  · rw [if_pos ends] at dirtied
    obtain ⟨dirty, rects, dirtied⟩ := dirtied
    have exactly := addRequest_covers_iff o
      { s with glDirty := dirty, glDirtyRects := rects } mapped (s.inUnits r.report)
      fun x y shown => ((inside x y).mp shown).1
    simp only [inside, and_imp] at exactly
    simp only [Covered, surfaceDamageBuffer_eq o dirtied]
    by_cases rounds : s.RoundingFits r.report
    · simp only [ends, rounds, ↓reduceIte, true_and]
      exact exactly
    · -- The size overflows while it is rounded up.
      refine iff_of_false (fun covers => ?_) fun both => rounds both.1.2.1
      obtain ⟨st, done, -⟩ := covers {} OutputDamage.wellFormed_empty
      rw [if_neg rounds] at done
      cases done
  · -- The ends overflow before anything is added.
    rw [if_neg ends] at dirtied
    refine iff_of_false (fun covers => ?_) fun both => ends both.1.1
    obtain ⟨st, done, -⟩ := covers {} OutputDamage.wellFormed_empty
    simp [DamageState.surfaceDamageBuffer, dirtied] at done

end DirtySurface

end Xios
