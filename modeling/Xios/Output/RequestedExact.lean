import Xios.Output.RequestedLaws

/-! Requests of damage lose nothing unless numbers overflow, rounding splits a unit, or the surface
is drawn elsewhere than in its units. -/

namespace Xios

namespace DirtySurface

/-- One axis of a surface: what of its source is drawn where. -/
structure ShownAxis where
  -- The first pixel of the source and the number of them, and the units they are shown in.
  first : Int
  length : Int
  units : Int
  -- The place of the surface, in units.
  place : Int
  -- Pixels of the output, and those for a unit.
  output : Int
  scale : Int
  -- The source is stretched over the output.
  fills : Bool

namespace ShownAxis

/-- A request for the pixels from `lo` up to `hi` names one that the output shows. -/
def Seen (a : ShownAxis) (lo hi : Int) : Prop :=
  let lo := max lo a.first
  let hi := min hi (a.first + a.length)
  lo < hi ∧ (a.fills = false →
    (lo - a.first) * a.units * a.scale < (a.output - a.place * a.scale) * a.length ∧
      -(a.place * a.length) < (hi - a.first) * a.units)
  deriving Decidable

/-- Damage from `start` up to `stop`, where a unit counts `per`, leaves out nothing that a request
for the pixels from `lo` up to `hi` names, or only what lies beyond the edges of the output. -/
def Kept (a : ShownAxis) (lo hi per start stop : Int) : Prop :=
  let lo := max lo a.first
  let hi := min hi (a.first + a.length)
  if a.fills then
    (a.place * per + start) * a.scale * a.length ≤ (lo - a.first) * a.output * per ∧
      (hi - a.first) * a.output * per ≤ (a.place * per + stop) * a.scale * a.length
  else
    (a.place * per + start ≤ 0 ∨ start * a.length ≤ (lo - a.first) * a.units * per) ∧
      (a.output * per ≤ (a.place * per + stop) * a.scale ∨
        (hi - a.first) * a.units * per ≤ stop * a.length)
  deriving Decidable

/-- Where the source is drawn. -/
def origin (a : ShownAxis) : Int :=
  if a.fills then 0 else a.place * a.scale

def extent (a : ShownAxis) : Int :=
  if a.fills then a.output else a.units * a.scale

def start (a : ShownAxis) (lo : Int) : Int :=
  imageStart a.first a.length a.origin a.extent (max lo a.first)

def stop (a : ShownAxis) (hi : Int) : Int :=
  imageEnd a.first a.length a.origin a.extent (min hi (a.first + a.length))

/-- Something is drawn. -/
structure Drawn (a : ShownAxis) : Prop where
  length : 0 < a.length
  units : 0 < a.units
  output : 0 < a.output
  scale : 0 < a.scale

variable {a : ShownAxis} {lo hi : Int}

theorem Drawn.extent (drawn : a.Drawn) : 0 < a.extent := by
  unfold ShownAxis.extent
  split
  · exact drawn.output
  · exact Int.mul_pos drawn.units drawn.scale

theorem le_start_iff (drawn : a.Drawn) (lo p : Int) :
    p ≤ a.start lo ↔ (p - a.origin) * a.length ≤ (max lo a.first - a.first) * a.extent := by
  rw [start, imageStart, ← Int.le_ediv_iff_mul_le drawn.length]
  omega

theorem stop_le_iff (drawn : a.Drawn) (hi p : Int) :
    a.stop hi ≤ p ↔
      (min hi (a.first + a.length) - a.first) * a.extent ≤ (p - a.origin) * a.length := by
  have negated := Int.le_ediv_iff_mul_le drawn.length (a := a.origin - p)
    (b := -((min hi (a.first + a.length) - a.first) * a.extent))
  have turned : (a.origin - p) * a.length = -((p - a.origin) * a.length) := by ring
  rw [turned] at negated
  rw [stop, imageEnd]
  omega

theorem seen_iff (drawn : a.Drawn) : a.Seen lo hi ↔
    max lo a.first < min hi (a.first + a.length) ∧
      max 0 (a.start lo) < min a.output (a.stop hi) := by
  have left := le_start_iff drawn lo a.output
  have right := stop_le_iff drawn hi 0
  have scale := drawn.scale
  have output := drawn.output
  have length := drawn.length
  unfold Seen
  apply and_congr_right
  intro some_
  -- The image of what is named has pixels.
  have filled : a.start lo < a.stop hi := by
    by_contra none
    have below := (le_start_iff drawn lo (a.stop hi)).mp (by omega)
    have above := (stop_le_iff drawn hi (a.stop hi)).mp le_rfl
    have wide : (max lo a.first - a.first) * a.extent <
        (min hi (a.first + a.length) - a.first) * a.extent :=
      Int.mul_lt_mul_of_pos_right (by omega) drawn.extent
    omega
  have both : max 0 (a.start lo) < min a.output (a.stop hi) ↔
      ¬a.output ≤ a.start lo ∧ ¬a.stop hi ≤ 0 := by omega
  rw [both, left, right, not_le, not_le]
  unfold origin extent
  cases a.fills with
  | true =>
    simp only [reduceCtorEq, false_implies, ↓reduceIte, true_iff, Int.sub_zero, Int.zero_mul]
    constructor
    · rw [Int.mul_comm]
      exact Int.mul_lt_mul_of_pos_left (by omega) output
    · exact Int.mul_pos (by omega) output
  | false =>
    simp only [Bool.false_eq_true, ↓reduceIte, forall_const]
    have turned : (0 - a.place * a.scale) * a.length = -(a.place * a.length) * a.scale := by ring
    have scaled : (min hi (a.first + a.length) - a.first) * (a.units * a.scale) =
        (min hi (a.first + a.length) - a.first) * a.units * a.scale := by ring
    rw [← Int.mul_assoc, turned, scaled, Int.mul_lt_mul_right scale]

theorem kept_iff (drawn : a.Drawn) (lo hi first last : Int) {per : Int} (unit : 0 < per) :
    a.Kept lo hi per (first * per) (last * per) ↔
      (a.place + first) * a.scale ≤ max 0 (a.start lo) ∧
        min a.output (a.stop hi) ≤ (a.place + last) * a.scale := by
  have left := le_start_iff drawn lo ((a.place + first) * a.scale)
  have right := stop_le_iff drawn hi ((a.place + last) * a.scale)
  have scale := drawn.scale
  have begins : a.place * per + first * per = (a.place + first) * per := by ring
  have ends : a.place * per + last * per = (a.place + last) * per := by ring
  have least : 0 ≤ max lo a.first - a.first := by omega
  have most : min hi (a.first + a.length) - a.first ≤ a.length := by omega
  have cancel (x y c : Int) (positive : 0 < c) : x * c ≤ y * c ↔ x ≤ y :=
    Int.mul_le_mul_right positive
  rw [le_max_iff, min_le_iff, left, right]
  unfold Kept origin extent
  dsimp only
  rw [begins, ends]
  generalize max lo a.first - a.first = low at least ⊢
  generalize min hi (a.first + a.length) - a.first = high at most ⊢
  cases a.fills with
  | true =>
    have from_ : (a.place + first) * per * a.scale * a.length =
        (a.place + first) * a.scale * a.length * per := by ring
    have to_ : (a.place + last) * per * a.scale * a.length =
        (a.place + last) * a.scale * a.length * per := by ring
    simp only [↓reduceIte, Int.sub_zero]
    rw [from_, to_, cancel _ _ _ unit, cancel _ _ _ unit]
    -- Beyond the edges of the output nothing is drawn, so that they need no cases of their own.
    have before : (a.place + first) * a.scale ≤ 0 →
        (a.place + first) * a.scale * a.length ≤ low * a.output := fun outside =>
      (Int.mul_nonpos_of_nonpos_of_nonneg outside drawn.length.le).trans
        (Int.mul_nonneg least drawn.output.le)
    have behind : a.output ≤ (a.place + last) * a.scale →
        high * a.output ≤ (a.place + last) * a.scale * a.length := fun outside =>
      (Int.mul_le_mul_of_nonneg_right most drawn.output.le).trans (by
        rw [Int.mul_comm a.length]
        exact Int.mul_le_mul_of_nonneg_right outside drawn.length.le)
    rw [or_iff_right_of_imp before, or_iff_right_of_imp behind]
  | false =>
    have negative (x c : Int) (positive : 0 < c) : x * c ≤ 0 ↔ x ≤ 0 := by
      simpa using cancel x 0 c positive
    have from_ : ((a.place + first) * a.scale - a.place * a.scale) * a.length =
        first * a.length * a.scale := by ring
    have to_ : ((a.place + last) * a.scale - a.place * a.scale) * a.length =
        last * a.length * a.scale := by ring
    simp only [Bool.false_eq_true, ↓reduceIte]
    rw [from_, to_, ← Int.mul_assoc, ← Int.mul_assoc, cancel _ _ _ scale, cancel _ _ _ scale,
      negative _ _ unit, negative _ _ scale, Int.mul_right_comm first, cancel _ _ _ unit,
      Int.mul_right_comm last, cancel _ _ _ unit, Int.mul_right_comm (a.place + last),
      cancel _ _ _ unit]
end ShownAxis


def columns (o : Screen) (s : ShownSurface) (src : Area) : ShownAxis :=
  ⟨src.x, src.w, s.displaySize.1, s.dx, o.width, o.outputScale, s.fillsOutput o⟩

def rows (o : Screen) (s : ShownSurface) (src : Area) : ShownAxis :=
  ⟨src.y, src.h, s.displaySize.2, s.dy, o.height, o.outputScale, s.fillsOutput o⟩

/-- Damage within some edges, where a unit counts `per`, leaves out nothing that a request shows. -/
def Clear (o : Screen) (s : ShownSurface) (src : Area) (r : DamageReport) (per : Int)
    (edges : Rect) : Prop :=
  (columns o s src).Seen r.x (r.x + r.w) → (rows o s src).Seen r.y (r.y + r.h) →
    (columns o s src).Kept r.x (r.x + r.w) per edges.x0 edges.x1 ∧
      (rows o s src).Kept r.y (r.y + r.h) per edges.y0 edges.y1
  deriving Decidable

theorem axes_drawn {o : Screen} {s : ShownSurface} {dest : Rect} (width : 0 < o.width)
    (height : 0 < o.height) (drawn : s.drawnRect o = some dest) (src : Area)
    (pixels : 0 < src.w ∧ 0 < src.h) :
    ((columns o s src).Drawn ∧ dest.x0 = (columns o s src).origin ∧
        dest.x1 - dest.x0 = (columns o s src).extent) ∧
      (rows o s src).Drawn ∧ dest.y0 = (rows o s src).origin ∧
        dest.y1 - dest.y0 = (rows o s src).extent := by
  obtain ⟨sampled, found, -, size, -⟩ := drawnRect_some width height drawn
  refine ⟨⟨⟨pixels.1, size.1, width, o.outputScale_pos⟩, ?_⟩,
    ⟨pixels.2, size.2, height, o.outputScale_pos⟩, ?_⟩
  all_goals
    simp only [ShownSurface.drawnRect, found, Option.bind_eq_bind, Option.bind_some] at drawn
    split at drawn
    · cases drawn
    · split at drawn
      · rename_i fills
        cases drawn
        simp [columns, rows, ShownAxis.origin, ShownAxis.extent, fills]
      · rename_i plain
        cases drawn
        simp [columns, rows, ShownAxis.origin, ShownAxis.extent, plain]

/-- The part of a request that is shown lies in the rectangle that is added exactly if the edges of
that leave nothing out. -/
theorem reached_iff {o : Screen} {s : ShownSurface} {dest : Rect} (width : 0 < o.width)
    (height : 0 < o.height) (drawn : s.drawnRect o = some dest) (src : Area)
    (pixels : 0 < src.w ∧ 0 < src.h) (r t : DamageReport) {per : Int} (unit : 0 < per) :
    Reached o (image o src dest r) (some t) ↔
      Clear o s src r per ⟨(t.x - s.dx) * per, (t.y - s.dy) * per, (t.x + t.w - s.dx) * per,
        (t.y + t.h - s.dy) * per⟩ := by
  obtain ⟨⟨across, left, wide⟩, down, top, high⟩ := axes_drawn width height drawn src pixels
  have column : ∀ u, (columns o s src).place + (u - s.dx) = u := fun u => by
    show s.dx + (u - s.dx) = u
    omega
  have row : ∀ u, (rows o s src).place + (u - s.dy) = u := fun u => by
    show s.dy + (u - s.dy) = u
    omega
  unfold Clear
  rw [ShownAxis.seen_iff across, ShownAxis.seen_iff down, ShownAxis.kept_iff across _ _ _ _ unit,
    ShownAxis.kept_iff down _ _ _ _ unit, column, column, row, row]
  have shown : image o src dest r =
      if max r.x src.x < min (r.x + r.w) (src.x + src.w) ∧
          max r.y src.y < min (r.y + r.h) (src.y + src.h) then
        ⟨max 0 ((columns o s src).start r.x), max 0 ((rows o s src).start r.y),
          min o.width ((columns o s src).stop (r.x + r.w)),
          min o.height ((rows o s src).stop (r.y + r.h))⟩
      else ⟨0, 0, 0, 0⟩ := by
    simp only [image, wide, high]
    rw [left, top]
    rfl
  rw [shown]
  unfold Reached
  show _ ↔ (max r.x src.x < min (r.x + r.w) (src.x + src.w) ∧
      max 0 ((columns o s src).start r.x) < min o.width ((columns o s src).stop (r.x + r.w)) →
    max r.y src.y < min (r.y + r.h) (src.y + src.h) ∧
      max 0 ((rows o s src).start r.y) < min o.height ((rows o s src).stop (r.y + r.h)) →
    (t.x * o.outputScale ≤ max 0 ((columns o s src).start r.x) ∧
        min o.width ((columns o s src).stop (r.x + r.w)) ≤ (t.x + t.w) * o.outputScale) ∧
      t.y * o.outputScale ≤ max 0 ((rows o s src).start r.y) ∧
        min o.height ((rows o s src).stop (r.y + r.h)) ≤ (t.y + t.h) * o.outputScale)
  split
  · rename_i named
    simp only [Option.mem_def, Option.some.injEq, exists_eq_left', Rect.Within]
    omega
  · rename_i unnamed
    refine iff_of_true (Or.inl le_rfl) ?_
    intro column row
    exact absurd ⟨column.1, row.1⟩ unnamed

/-- The edges of the place where the surface is drawn as an overlay, from its own place on. -/
def overlayEdges (s : DirtySurface) (t : DamageReport) : Rect :=
  ⟨t.x - s.dx, t.y - s.dy, t.x + t.w - s.dx, t.y + t.h - s.dy⟩

/-- A request in units is not damaged at the wrong place: the surface is drawn as an overlay there
too, or it is not stretched over the output, or stretching moves nothing out of the rectangle. -/
def UnitsClear (o : Screen) (s : DirtySurface) (r : DamageReport) : Prop :=
  (s.drawnRect o).isSome →
    (∀ t ∈ s.overlaid, Clear o s.toShownSurface ⟨0, 0, s.displaySize.1, s.displaySize.2⟩ r 1
      (s.overlayEdges t)) ∧
    (s.overlaid = none → s.fillsOutput o = true →
      Clear o s.toShownSurface ⟨0, 0, s.displaySize.1, s.displaySize.2⟩ r 1
        ⟨r.x, r.y, r.x + r.w, r.y + r.h⟩)
  deriving Decidable

/-- The edges of a request in pixels of the buffer, where the first one loses what it is off a unit
and the size gains what it is short of one. -/
def roundedEdges (s : DirtySurface) (r : DamageReport) : Rect :=
  let x := r.x - r.x.tmod s.scale
  let y := r.y - r.y.tmod s.scale
  ⟨x, y, x + (r.w + -r.w % s.scale), y + (r.h + -r.h % s.scale)⟩

/-- Rounded to units, a request in pixels leaves nothing out that the surface shows. -/
def PixelsClear (o : Screen) (s : DirtySurface) (r : DamageReport) : Prop :=
  (s.drawnRect o).isSome → ∀ src ∈ s.sourceRect,
    (∀ t ∈ s.overlaid, Clear o s.toShownSurface src r 1 (s.overlayEdges t)) ∧
    (s.overlaid = none → Clear o s.toShownSurface src r s.scale (s.roundedEdges r))
  deriving Decidable

theorem target_overlaid {s : DirtySurface} {t : DamageReport} (found : s.overlaid = some t)
    (r : DamageReport) : s.target r = some t := by
  rw [target, found]

theorem target_plain {s : DirtySurface} (none_ : s.overlaid = none) (r : DamageReport) :
    s.target r =
      if r.w ≤ 0 ∨ r.h ≤ 0 then none else some ⟨s.dx + r.x, s.dy + r.y, r.w, r.h⟩ := by
  rw [target, none_]

/-- Nothing is named by a request without pixels. -/
theorem reached_empty (o : Screen) (s : ShownSurface) (src : Area) (dest : Rect)
    {r : DamageReport} (empty : r.w ≤ 0 ∨ r.h ≤ 0) (per : Int) (edges : Rect) :
    Reached o (image o src dest r) none ∧ Clear o s src r per edges := by
  constructor
  · left
    unfold image
    rw [if_neg (by omega)]
  · intro column row
    have across : max r.x src.x < min (r.x + r.w) (src.x + src.w) := column.1
    have down : max r.y src.y < min (r.y + r.h) (src.y + src.h) := row.1
    omega

/-- In a surface that is not stretched over the output, a unit is drawn where it is damaged. -/
theorem clear_units {o : Screen} {s : ShownSurface} (plain : ¬s.fillsOutput o = true)
    (size : 0 < s.displaySize.1 ∧ 0 < s.displaySize.2) (r : DamageReport) :
    Clear o s ⟨0, 0, s.displaySize.1, s.displaySize.2⟩ r 1
      ⟨r.x, r.y, r.x + r.w, r.y + r.h⟩ := by
  have along (v w size : Int) (positive : 0 < size) :
      v * size ≤ (max v 0 - 0) * size * 1 ∧
        (min (v + w) (0 + size) - 0) * size * 1 ≤ (v + w) * size := by
    rw [Int.mul_one, Int.mul_one]
    exact ⟨Int.mul_le_mul_of_nonneg_right (by omega) positive.le,
      Int.mul_le_mul_of_nonneg_right (by omega) positive.le⟩
  intro _ _
  unfold ShownAxis.Kept
  simp only [columns, rows, plain, Bool.false_eq_true, ↓reduceIte]
  exact ⟨⟨Or.inr (along _ r.w _ size.1).1, Or.inr (along _ _ _ size.1).2⟩,
    Or.inr (along _ r.h _ size.2).1, Or.inr (along _ _ _ size.2).2⟩

theorem reached_units_iff {o : Screen} (width : 0 < o.width) (height : 0 < o.height)
    (s : DirtySurface) (r : DamageReport) :
    Reached o (shownUnits o s.toShownSurface r) (s.target r) ↔ UnitsClear o s r := by
  unfold shownUnits UnitsClear
  cases drawn : s.drawnRect o with
  | none => simp [Reached]
  | some dest =>
    obtain ⟨-, -, -, size, -⟩ := drawnRect_some width height drawn
    have exactly := reached_iff width height drawn
      ⟨0, 0, s.displaySize.1, s.displaySize.2⟩ size r
    simp only [Option.isSome_some, forall_const]
    cases overlaid : s.overlaid with
    | some t =>
      rw [target_overlaid overlaid, exactly t Int.one_pos]
      simp [overlayEdges]
    | none =>
      rw [target_plain overlaid]
      simp only [Option.not_mem_none, false_implies, implies_true, true_and, forall_const]
      by_cases empty : r.w ≤ 0 ∨ r.h ≤ 0
      · have nothing := reached_empty o s.toShownSurface
          ⟨0, 0, s.displaySize.1, s.displaySize.2⟩ dest empty 1 ⟨r.x, r.y, r.x + r.w, r.y + r.h⟩
        rw [if_pos empty]
        exact iff_of_true nothing.1 fun _ => nothing.2
      · have edges : (⟨(s.dx + r.x - s.dx) * 1, (s.dy + r.y - s.dy) * 1,
            (s.dx + r.x + r.w - s.dx) * 1, (s.dy + r.y + r.h - s.dy) * 1⟩ : Rect) =
            ⟨r.x, r.y, r.x + r.w, r.y + r.h⟩ := by
          rw [Rect.mk.injEq]
          omega
        rw [if_neg empty, exactly _ Int.one_pos, edges]
        refine ⟨fun clear _ => clear, fun clear => ?_⟩
        by_cases fills : s.fillsOutput o = true
        · exact clear fills
        · exact clear_units fills size r

theorem rounded_up {v per : Int} (positive : 0 < per) (some_ : 0 < v) :
    (v + per - 1).tdiv per * per = v + -v % per := by
  rw [Int.tdiv_eq_ediv_of_nonneg (by omega)]
  have below := Int.ediv_mul_le (v + per - 1) positive.ne'
  have above := Int.lt_ediv_add_one_mul_self (v + per - 1) positive
  have next : ((v + per - 1) / per + 1) * per = (v + per - 1) / per * per + per := by ring
  have turned : -v = (v + per - 1) / per * per - v + per * -((v + per - 1) / per) := by ring
  rw [turned, Int.add_mul_emod_self_left, Int.emod_eq_of_lt (by omega) (by omega)]
  ring

theorem rounded_pos_iff {v per : Int} (positive : 0 < per) :
    0 < (v + per - 1).tdiv per ↔ 0 < v := by
  constructor
  · intro some_
    by_contra none
    have most : (v + per - 1).tdiv per ≤ (per - 1).tdiv per :=
      Int.tdiv_le_tdiv positive (by omega)
    rw [Int.tdiv_eq_ediv_of_nonneg (by omega : 0 ≤ per - 1),
      Int.ediv_eq_zero_of_lt (by omega) (by omega)] at most
    omega
  · intro some_
    have up := rounded_up positive some_
    have rest := Int.emod_nonneg (-v) positive.ne'
    by_contra none
    have least : (v + per - 1).tdiv per * per ≤ 0 :=
      Int.mul_nonpos_of_nonpos_of_nonneg (by omega) positive.le
    omega

theorem reached_pixels_iff {o : Screen} (width : 0 < o.width) (height : 0 < o.height)
    (s : DirtySurface) (r : DamageReport) :
    Reached o (shownPixels o s.toShownSurface r) (s.target (s.inUnits r)) ↔
      PixelsClear o s r := by
  unfold shownPixels PixelsClear
  cases drawn : s.drawnRect o with
  | none => simp [Reached]
  | some dest =>
    obtain ⟨src, sampled, pixels, -⟩ := drawnRect_some width height drawn
    have exactly := reached_iff width height drawn _ pixels r
    simp only [sampled, Option.isSome_some, forall_const, Option.mem_def, Option.some.injEq,
      forall_eq']
    cases overlaid : s.overlaid with
    | some t =>
      rw [target_overlaid overlaid, exactly t Int.one_pos]
      simp [overlayEdges]
    | none =>
      rw [target_plain overlaid]
      simp only [reduceCtorEq, false_implies, implies_true, true_and, forall_const]
      have scale := s.scale_pos
      by_cases empty : r.w ≤ 0 ∨ r.h ≤ 0
      · have nothing := reached_empty o s.toShownSurface src dest empty s.scale (s.roundedEdges r)
        have none_ : (s.inUnits r).w ≤ 0 ∨ (s.inUnits r).h ≤ 0 := by
          have wide := rounded_pos_iff (v := r.w) scale
          have high := rounded_pos_iff (v := r.h) scale
          simp only [inUnits]
          omega
        rw [if_pos none_]
        exact iff_of_true nothing.1 nothing.2
      · have edges : (⟨(s.dx + (s.inUnits r).x - s.dx) * s.scale,
            (s.dy + (s.inUnits r).y - s.dy) * s.scale,
            (s.dx + (s.inUnits r).x + (s.inUnits r).w - s.dx) * s.scale,
            (s.dy + (s.inUnits r).y + (s.inUnits r).h - s.dy) * s.scale⟩ : Rect) =
            s.roundedEdges r := by
          have left := Int.tdiv_mul_add_tmod r.x s.scale
          have top := Int.tdiv_mul_add_tmod r.y s.scale
          have wide := rounded_up (v := r.w) scale (by omega)
          have high := rounded_up (v := r.h) scale (by omega)
          simp only [inUnits, roundedEdges, Rect.mk.injEq, Int.sub_mul, Int.add_mul, wide, high]
          omega
        have some_ : ¬((s.inUnits r).w ≤ 0 ∨ (s.inUnits r).h ≤ 0) := by
          have wide := rounded_pos_iff (v := r.w) scale
          have high := rounded_pos_iff (v := r.h) scale
          simp only [inUnits]
          omega
        rw [if_neg some_, exactly _ scale, edges]

/-- Requests of both kinds cover what the surface shows exactly if nothing overflows on the way, and
neither rounding to units nor stretching moves what is shown out of what is damaged. -/
theorem damage_requests_cover_iff {o : Screen} (width : 0 < o.width) (height : 0 < o.height)
    (s : DirtySurface) (mapped : s.mapped = true) (r : DirtyRect) :
    (Covered o s (·.surfaceDamage o r) (fun x y => ∃ dest ∈ s.drawnRect o,
        Shows ⟨0, 0, s.displaySize.1, s.displaySize.2⟩ dest r.report x y) ↔
      (∀ t ∈ s.target r.report, ScaledFits o t) ∧ UnitsClear o s r.report) ∧
    (Covered o s (·.surfaceDamageBuffer o r) (fun x y => ∃ dest ∈ s.drawnRect o,
        ∃ src ∈ s.sourceRect, Shows src dest r.report x y) ↔
      (s.EndsFit r.report ∧ s.RoundingFits r.report ∧
        ∀ t ∈ s.target (s.inUnits r.report), ScaledFits o t) ∧ PixelsClear o s r.report) := by
  rw [← reached_units_iff width height, ← reached_pixels_iff width height]
  exact ⟨surfaceDamage_covers_iff width height s mapped r,
    surfaceDamageBuffer_covers_iff width height s mapped r⟩

def smallWindow : DirtySurface where
  currentBuffer := some (.shm true)
  size := ⟨64, 64, by decide⟩
  bufferScale := 2
  scaleFits := two_fits

theorem damage_requests_cover_even :
    Covered ⟨⟨100, 100, 2⟩, false⟩ smallWindow
      (·.surfaceDamageBuffer ⟨⟨100, 100, 2⟩, false⟩ ⟨4, 4, 8, 8⟩) (fun x y =>
        ∃ dest ∈ smallWindow.drawnRect ⟨⟨100, 100, 2⟩, false⟩, ∃ src ∈ smallWindow.sourceRect,
          Shows src dest (DirtyRect.report ⟨4, 4, 8, 8⟩) x y) :=
  (damage_requests_cover_iff (o := ⟨⟨100, 100, 2⟩, false⟩) (by decide) (by decide) smallWindow rfl
    ⟨4, 4, 8, 8⟩).2.mpr (by decide)

/-- The request for everything overflows where two pixels of the output are a unit, and the request
for two columns that do not belong to one unit leaves the second one out. -/
theorem damage_requests_miss :
    ¬Covered ⟨⟨100, 100, 2⟩, false⟩ smallWindow
      (·.surfaceDamage ⟨⟨100, 100, 2⟩, false⟩ ⟨0, 0, 2147483647, 2147483647⟩) (fun x y =>
        ∃ dest ∈ smallWindow.drawnRect ⟨⟨100, 100, 2⟩, false⟩,
          Shows ⟨0, 0, smallWindow.displaySize.1, smallWindow.displaySize.2⟩ dest
            (DirtyRect.report ⟨0, 0, 2147483647, 2147483647⟩) x y) ∧
      ¬Covered ⟨⟨100, 100, 2⟩, false⟩ smallWindow
        (·.surfaceDamageBuffer ⟨⟨100, 100, 2⟩, false⟩ ⟨1, 0, 2, 2⟩) (fun x y =>
          ∃ dest ∈ smallWindow.drawnRect ⟨⟨100, 100, 2⟩, false⟩, ∃ src ∈ smallWindow.sourceRect,
            Shows src dest (DirtyRect.report ⟨1, 0, 2, 2⟩) x y) := by
  constructor
  · rw [surfaceDamage_covers_iff (by decide) (by decide) smallWindow rfl]
    decide
  · rw [surfaceDamageBuffer_covers_iff (by decide) (by decide) smallWindow rfl]
    decide

end DirtySurface

end Xios
