import Xios.Windows.Geometry

/-! Where the protocol wants a popup, and where the bits of its edges take it instead. -/

namespace Xios

/-- One of the three places along an axis. -/
inductive Side where
  -- The left edge, or the top one.
  | low
  | middle
  -- The right edge, or the bottom one.
  | high
  deriving DecidableEq, Repr

namespace Side

/-- The other side. -/
def mirror : Side → Side
  | low => high
  | middle => middle
  | high => low

def anchored (side : Side) (start length : Int) : Int :=
  match side with
  | low => start
  | middle => start + length.tdiv 2
  | high => start + length

def extended (side : Side) (point length : Int) : Int :=
  match side with
  | low => point - length
  | middle => point - length.tdiv 2
  | high => point

end Side

/-- One of the nine anchors and gravities: an edge, a corner, or the middle. -/
structure Edge where
  x : Side
  y : Side
  deriving DecidableEq, Repr

namespace Edge

def code : Edge → BitVec 32
  | ⟨.middle, .middle⟩ => 0
  | ⟨.middle, .low⟩ => 1
  | ⟨.middle, .high⟩ => 2
  | ⟨.low, .middle⟩ => 3
  | ⟨.high, .middle⟩ => 4
  | ⟨.low, .low⟩ => 5
  | ⟨.low, .high⟩ => 6
  | ⟨.high, .low⟩ => 7
  | ⟨.high, .high⟩ => 8

def mirrorX (e : Edge) : Edge :=
  { e with x := e.x.mirror }

def mirrorY (e : Edge) : Edge :=
  { e with y := e.y.mirror }

/-- Where an edge ends up whose number is taken for bits of left and right. -/
def mistakenX : Edge → Edge
  -- The top and the bottom have a bit of the left edge.
  | ⟨.middle, .low⟩ => ⟨.high, .middle⟩
  | ⟨.middle, .high⟩ => ⟨.high, .middle⟩
  -- The corner at the bottom left loses its bottom.
  | ⟨.low, .high⟩ => ⟨.high, .low⟩
  -- The corners at the right stay.
  | ⟨.high, .low⟩ => ⟨.high, .low⟩
  | ⟨.high, .high⟩ => ⟨.high, .high⟩
  | e => e.mirrorX

/-- Where an edge ends up whose number is taken for bits of top and bottom. -/
def mistakenY : Edge → Edge
  -- The corners at the right stay.
  | ⟨.high, .low⟩ => ⟨.high, .low⟩
  | ⟨.high, .high⟩ => ⟨.high, .high⟩
  | e => e.mirrorY

theorem flipEdges_x (e : Edge) : Positioner.flipEdges e.code 3 4 = e.mistakenX.code := by
  obtain ⟨x, y⟩ := e
  cases x <;> cases y <;> decide

theorem flipEdges_y (e : Edge) : Positioner.flipEdges e.code 1 2 = e.mistakenY.code := by
  obtain ⟨x, y⟩ := e
  cases x <;> cases y <;> decide

@[simp] theorem mistakenY_x (e : Edge) : e.mistakenY.x = e.x := by
  obtain ⟨x, y⟩ := e
  cases x <;> cases y <;> rfl

end Edge

namespace Positioner

def toward (p : Positioner) (anchor gravity : Edge) : Positioner :=
  { p with edge := anchor.code, gravity := gravity.code }

/-- The place that the protocol defines for a popup without adjustments. -/
def desired (p : Positioner) (origin : Point) (anchor gravity : Edge) : Point where
  x := gravity.x.extended (anchor.x.anchored (origin.x + p.anchor.x) p.anchor.w + p.offX) p.sizeW
  y := gravity.y.extended (anchor.y.anchored (origin.y + p.anchor.y) p.anchor.h + p.offY) p.sizeH

def unadjusted (p : Positioner) (origin : Point) : Point :=
  let first := p.calcPosition p.edge p.gravity
  { x := origin.x + first.x, y := origin.y + first.y }

/-- Where `popup_place` is after it has tried both flips -/
def flipped (p : Positioner) (o : Output) (origin : Point) : Point :=
  p.flip o origin 8 1 2 (p.flip o origin 4 3 4 (p.unadjusted origin))

/-- The popup is not constrained on the x axis. -/
def FreeX (p : Positioner) (o : Output) (corner : Point) : Prop :=
  0 ≤ corner.x ∧ corner.x + p.sizeW ≤ o.logicalWidth
  deriving Decidable

/-- The popup is not constrained on the y axis. -/
def FreeY (p : Positioner) (o : Output) (corner : Point) : Prop :=
  0 ≤ corner.y ∧ corner.y + p.sizeH ≤ o.logicalHeight
  deriving Decidable

/-- The client allows a kind of adjustment. -/
def Allows (p : Positioner) (bit : BitVec 32) : Prop :=
  p.constraint &&& bit ≠ 0
  deriving Decidable

/-- A popup is placed as the protocol says. -/
structure Follows (p : Positioner) (o : Output) (origin : Point) (anchor gravity : Edge) :
    Prop where
  unadjusted : (p.toward anchor gravity).unadjusted origin = p.desired origin anchor gravity
  -- Constrained on one axis only, it is flipped there if that helps.
  flipX : p.Allows 4 → ¬p.FreeX o (p.desired origin anchor gravity) →
    p.FreeY o (p.desired origin anchor gravity) →
    (p.toward anchor gravity).flipped o origin =
      if p.FreeX o (p.desired origin anchor.mirrorX gravity.mirrorX) then
        p.desired origin anchor.mirrorX gravity.mirrorX
      else p.desired origin anchor gravity
  flipY : p.Allows 8 → p.FreeX o (p.desired origin anchor gravity) →
    ¬p.FreeY o (p.desired origin anchor gravity) →
    (p.toward anchor gravity).flipped o origin =
      if p.FreeY o (p.desired origin anchor.mirrorY gravity.mirrorY) then
        p.desired origin anchor.mirrorY gravity.mirrorY
      else p.desired origin anchor gravity
  -- It slides into the output if it is not too large for it.
  slideX : p.Allows 1 → p.sizeW ≤ o.logicalWidth →
    p.FreeX o ((p.toward anchor gravity).place o origin)
  slideY : p.Allows 2 → p.sizeH ≤ o.logicalHeight →
    p.FreeY o ((p.toward anchor gravity).place o origin)
  -- It is not moved along an axis without any adjustments.
  keepX : ¬p.Allows 1 → ¬p.Allows 4 → ¬p.Allows 16 →
    ((p.toward anchor gravity).place o origin).x = (p.desired origin anchor gravity).x
  keepY : ¬p.Allows 2 → ¬p.Allows 8 → ¬p.Allows 32 →
    ((p.toward anchor gravity).place o origin).y = (p.desired origin anchor gravity).y

/-- A popup that is flipped to a place other than the mirrored one must fit at neither of them. -/
def SameFlip (p : Positioner) (o : Output) (taken mirrored : Point) : Prop :=
  taken = mirrored ∨
    ¬(p.FreeX o taken ∧ p.FreeY o taken) ∧ ¬(p.FreeX o mirrored ∧ p.FreeY o mirrored)

/-- No flip is tried at the wrong edges, or it makes no difference. -/
structure Harmless (p : Positioner) (o : Output) (origin : Point) (anchor gravity : Edge) :
    Prop where
  alongX : p.Allows 4 → ¬p.FreeX o (p.desired origin anchor gravity) →
    p.FreeY o (p.desired origin anchor gravity) →
    p.SameFlip o (p.desired origin anchor.mistakenX gravity.mistakenX)
      (p.desired origin anchor.mirrorX gravity.mirrorX)
  alongY : p.Allows 8 → p.FreeX o (p.desired origin anchor gravity) →
    ¬p.FreeY o (p.desired origin anchor gravity) →
    -- A flip along the other axis comes first, although the popup is not constrained there.
    if p.Allows 4 ∧ p.FreeX o (p.desired origin anchor.mistakenX gravity.mistakenX) ∧
        p.FreeY o (p.desired origin anchor.mistakenX gravity.mistakenX) then
      p.desired origin anchor.mistakenX gravity.mistakenX =
        p.desired origin anchor.mirrorY gravity.mirrorY
    else
      p.SameFlip o (p.desired origin anchor.mistakenY gravity.mistakenY)
        (p.desired origin anchor.mirrorY gravity.mirrorY)
  keepY : p.Allows 4 → ¬p.Allows 2 → ¬p.Allows 8 → ¬p.Allows 32 →
    ¬(p.FreeX o (p.desired origin anchor gravity) ∧ p.FreeY o (p.desired origin anchor gravity)) →
    p.FreeX o (p.desired origin anchor.mistakenX gravity.mistakenX) →
    p.FreeY o (p.desired origin anchor.mistakenX gravity.mistakenX) →
    (p.desired origin anchor.mistakenX gravity.mistakenX).y = (p.desired origin anchor gravity).y

theorem calcPosition_code (p : Positioner) (origin : Point) (anchor gravity : Edge) :
    ({ x := origin.x + (p.calcPosition anchor.code gravity.code).x
       y := origin.y + (p.calcPosition anchor.code gravity.code).y } : Point) =
      p.desired origin anchor gravity := by
  obtain ⟨anchorX, anchorY⟩ := anchor
  obtain ⟨gravityX, gravityY⟩ := gravity
  simp only [desired, Point.mk.injEq]
  constructor
  · -- Which columns are meant does not depend on the rows.
    have left (x y : Side) : isLeft (Edge.code ⟨x, y⟩) = decide (x = .low) := by
      cases x <;> cases y <;> rfl
    have right (x y : Side) : isRight (Edge.code ⟨x, y⟩) = decide (x = .high) := by
      cases x <;> cases y <;> rfl
    have across (x y : Side) : hasX (Edge.code ⟨x, y⟩) = decide (x ≠ .middle) := by
      cases x <;> cases y <;> rfl
    simp only [calcPosition, left, right, across]
    cases anchorX <;> cases gravityX <;> simp [Side.anchored, Side.extended] <;> omega
  · have top (x y : Side) : isTop (Edge.code ⟨x, y⟩) = decide (y = .low) := by
      cases x <;> cases y <;> rfl
    have bottom (x y : Side) : isBottom (Edge.code ⟨x, y⟩) = decide (y = .high) := by
      cases x <;> cases y <;> rfl
    have along (x y : Side) : hasY (Edge.code ⟨x, y⟩) = decide (y ≠ .middle) := by
      cases x <;> cases y <;> rfl
    simp only [calcPosition, top, bottom, along]
    cases anchorY <;> cases gravityY <;> simp [Side.anchored, Side.extended] <;> omega

theorem unadjusted_toward (p : Positioner) (origin : Point) (anchor gravity : Edge) :
    (p.toward anchor gravity).unadjusted origin = p.desired origin anchor gravity :=
  calcPosition_code p origin anchor gravity

theorem fits_iff (p : Positioner) (o : Output) (corner : Point) :
    p.fits o corner = true ↔ p.FreeX o corner ∧ p.FreeY o corner := by
  simp only [fits, FreeX, FreeY, Bool.and_eq_true, decide_eq_true_eq]
  omega

theorem flip_toward (p : Positioner) (o : Output) (origin place : Point) (anchor gravity : Edge)
    (bit : BitVec 32) {a b : BitVec 32} {moved : Edge → Edge}
    (exchanged : ∀ e : Edge, flipEdges e.code a b = (moved e).code) :
    (p.toward anchor gravity).flip o origin bit a b place =
      if ¬p.fits o place ∧ p.Allows bit ∧
          p.fits o (p.desired origin (moved anchor) (moved gravity)) then
        p.desired origin (moved anchor) (moved gravity)
      else place := by
  have there := calcPosition_code p origin (moved anchor) (moved gravity)
  rw [← exchanged anchor, ← exchanged gravity] at there
  have same : (p.toward anchor gravity).calcPosition = p.calcPosition := rfl
  have fits : (p.toward anchor gravity).fits o = p.fits o := rfl
  have constraint : (p.toward anchor gravity).constraint = p.constraint := rfl
  have edges : (p.toward anchor gravity).edge = anchor.code ∧
      (p.toward anchor gravity).gravity = gravity.code := ⟨rfl, rfl⟩
  simp only [flip, same, fits, constraint, edges.1, edges.2, there, Allows]
  by_cases here : p.fits o place = true
  · simp [here]
  · by_cases allowed : p.constraint &&& bit = 0#32
    · simp [allowed]
    · simp [here, allowed]

theorem place_eq (p : Positioner) (o : Output) (origin : Point) :
    p.place o origin =
      { x :=
          if p.Allows 1 then
            clampi (p.flipped o origin).x 0
              (if o.logicalWidth - p.sizeW < 0 then 0 else o.logicalWidth - p.sizeW)
          else (p.flipped o origin).x
        y :=
          if p.Allows 2 then
            clampi (p.flipped o origin).y 0
              (if o.logicalHeight - p.sizeH < 0 then 0 else o.logicalHeight - p.sizeH)
          else (p.flipped o origin).y } :=
  rfl

theorem flipped_x {p : Positioner} {o : Output} {origin : Point} {anchor gravity : Edge}
    (fixed : ¬p.Allows 4) :
    ((p.toward anchor gravity).flipped o origin).x = (p.desired origin anchor gravity).x := by
  rw [flipped, unadjusted_toward, flip_toward _ _ _ _ _ _ _ Edge.flipEdges_x,
    flip_toward _ _ _ _ _ _ _ Edge.flipEdges_y]
  simp only [fixed, false_and, and_false, ↓reduceIte]
  split
  · simp only [desired, Edge.mistakenY_x]
  · rfl

/-- Of two places, those that a popup goes to unless it does not fit there are the same exactly if
neither or both are. -/
theorem sameFlip_iff {p : Positioner} {o : Output} {here taken mirrored : Point}
    (stuck : ¬p.fits o here) :
    (if p.fits o taken then taken else here) = (if p.fits o mirrored then mirrored else here) ↔
      p.SameFlip o taken mirrored := by
  simp only [SameFlip, ← fits_iff]
  by_cases first : p.fits o taken = true
  · by_cases second : p.fits o mirrored = true
    · simp [first, second]
    · have apart : taken ≠ here := fun same => stuck (same ▸ first)
      have differ : taken ≠ mirrored := fun same => second (same ▸ first)
      simp [first, second, apart, differ]
  · by_cases second : p.fits o mirrored = true
    · have apart : here ≠ mirrored := fun same => stuck (same ▸ second)
      have differ : taken ≠ mirrored := fun same => first (same ▸ second)
      simp [first, second, apart, differ]
    · simp [first, second]

theorem clampi_within {v size limit : Int} (room : size ≤ limit) :
    0 ≤ clampi v 0 (if limit - size < 0 then 0 else limit - size) ∧
      clampi v 0 (if limit - size < 0 then 0 else limit - size) + size ≤ limit := by
  unfold clampi
  omega

section

variable {p : Positioner} {o : Output} {origin : Point} {anchor gravity : Edge}

theorem flipped_toward :
    (p.toward anchor gravity).flipped o origin =
      let first :=
        if ¬p.fits o (p.desired origin anchor gravity) ∧ p.Allows 4 ∧
            p.fits o (p.desired origin anchor.mistakenX gravity.mistakenX) then
          p.desired origin anchor.mistakenX gravity.mistakenX
        else p.desired origin anchor gravity
      if ¬p.fits o first ∧ p.Allows 8 ∧
          p.fits o (p.desired origin anchor.mistakenY gravity.mistakenY) then
        p.desired origin anchor.mistakenY gravity.mistakenY
      else first := by
  rw [flipped, unadjusted_toward, flip_toward _ _ _ _ _ _ _ Edge.flipEdges_x,
    flip_toward _ _ _ _ _ _ _ Edge.flipEdges_y]

theorem flipped_alongX (allowed : p.Allows 4)
    (stuck : ¬p.FreeX o (p.desired origin anchor gravity)) :
    (p.toward anchor gravity).flipped o origin =
      if p.fits o (p.desired origin anchor.mistakenX gravity.mistakenX) then
        p.desired origin anchor.mistakenX gravity.mistakenX
      else p.desired origin anchor gravity := by
  have unfit : ¬p.fits o (p.desired origin anchor gravity) := by
    rw [fits_iff]
    exact fun fits => stuck fits.1
  -- A flip along the other axis keeps the columns, which do not fit.
  have other : ¬p.fits o (p.desired origin anchor.mistakenY gravity.mistakenY) := by
    rw [fits_iff]
    simp only [FreeX, desired, Edge.mistakenY_x] at stuck ⊢
    exact fun fits => stuck fits.1
  rw [flipped_toward]
  by_cases fits : p.fits o (p.desired origin anchor.mistakenX gravity.mistakenX) = true
  · simp only [unfit, allowed, fits, Bool.false_eq_true, not_false_eq_true, not_true_eq_false,
      and_self, false_and, ↓reduceIte]
  · simp only [other, fits, Bool.false_eq_true, and_false, ↓reduceIte]

theorem flipped_alongY (allowed : p.Allows 8)
    (stuck : ¬p.fits o (p.desired origin anchor gravity)) :
    (p.toward anchor gravity).flipped o origin =
      if p.Allows 4 ∧ p.fits o (p.desired origin anchor.mistakenX gravity.mistakenX) then
        p.desired origin anchor.mistakenX gravity.mistakenX
      else if p.fits o (p.desired origin anchor.mistakenY gravity.mistakenY) then
        p.desired origin anchor.mistakenY gravity.mistakenY
      else p.desired origin anchor gravity := by
  rw [flipped_toward]
  by_cases first :
      p.Allows 4 ∧ p.fits o (p.desired origin anchor.mistakenX gravity.mistakenX) = true
  · simp only [stuck, first.1, first.2, Bool.false_eq_true, not_false_eq_true, not_true_eq_false,
      and_self, false_and, ↓reduceIte]
  · simp only [stuck, first, allowed, Bool.false_eq_true, not_false_eq_true, true_and, ↓reduceIte]

theorem flipped_y (fixed : ¬p.Allows 8) :
    ((p.toward anchor gravity).flipped o origin).y = (p.desired origin anchor gravity).y ↔
      (p.Allows 4 → ¬p.fits o (p.desired origin anchor gravity) →
        p.fits o (p.desired origin anchor.mistakenX gravity.mistakenX) →
        (p.desired origin anchor.mistakenX gravity.mistakenX).y =
          (p.desired origin anchor gravity).y) := by
  rw [flipped_toward]
  simp only [fixed, false_and, and_false, ↓reduceIte]
  split
  next taken => exact ⟨fun same _ _ _ => same, fun same => same taken.2.1 taken.1 taken.2.2⟩
  next left => exact ⟨fun _ allowed unfit fits => absurd ⟨unfit, allowed, fits⟩ left, fun _ => rfl⟩

/-- Constrained along the x axis only, a popup is flipped as the protocol says exactly if the edges
where the bits take it make no difference. -/
theorem flipped_alongX_iff (allowed : p.Allows 4)
    (stuck : ¬p.FreeX o (p.desired origin anchor gravity))
    (free : p.FreeY o (p.desired origin anchor gravity)) :
    (p.toward anchor gravity).flipped o origin =
        (if p.FreeX o (p.desired origin anchor.mirrorX gravity.mirrorX) then
          p.desired origin anchor.mirrorX gravity.mirrorX
        else p.desired origin anchor gravity) ↔
      p.SameFlip o (p.desired origin anchor.mistakenX gravity.mistakenX)
        (p.desired origin anchor.mirrorX gravity.mirrorX) := by
  have unfit : ¬p.fits o (p.desired origin anchor gravity) := by
    rw [fits_iff]
    exact fun fits => stuck fits.1
  -- The mirrored place has the same rows.
  have free : p.FreeY o (p.desired origin anchor.mirrorX gravity.mirrorX) := free
  rw [flipped_alongX allowed stuck, ← sameFlip_iff unfit]
  simp only [fits_iff, free, and_true]

/-- When the code's vertical flip is the one the protocol asks for. -/
theorem flipped_alongY_iff (allowed : p.Allows 8)
    (free : p.FreeX o (p.desired origin anchor gravity))
    (stuck : ¬p.FreeY o (p.desired origin anchor gravity)) :
    (p.toward anchor gravity).flipped o origin =
        (if p.FreeY o (p.desired origin anchor.mirrorY gravity.mirrorY) then
          p.desired origin anchor.mirrorY gravity.mirrorY
        else p.desired origin anchor gravity) ↔
      if p.Allows 4 ∧ p.FreeX o (p.desired origin anchor.mistakenX gravity.mistakenX) ∧
          p.FreeY o (p.desired origin anchor.mistakenX gravity.mistakenX) then
        p.desired origin anchor.mistakenX gravity.mistakenX =
          p.desired origin anchor.mirrorY gravity.mirrorY
      else
        p.SameFlip o (p.desired origin anchor.mistakenY gravity.mistakenY)
          (p.desired origin anchor.mirrorY gravity.mirrorY) := by
  have unfit : ¬p.fits o (p.desired origin anchor gravity) := by
    rw [fits_iff]
    exact fun fits => stuck fits.2
  -- The mirrored place has the same columns.
  have free : p.FreeX o (p.desired origin anchor.mirrorY gravity.mirrorY) := free
  have mirrored : p.FreeY o (p.desired origin anchor.mirrorY gravity.mirrorY) ↔
      p.fits o (p.desired origin anchor.mirrorY gravity.mirrorY) = true := by
    rw [fits_iff]
    exact ⟨fun fits => ⟨free, fits⟩, fun fits => fits.2⟩
  rw [flipped_alongY allowed unfit]
  simp only [← fits_iff, mirrored]
  by_cases first : p.Allows 4 ∧
      p.fits o (p.desired origin anchor.mistakenX gravity.mistakenX) = true
  · rw [if_pos first, if_pos first]
    split
    · exact Iff.rfl
    next unmirrored =>
      -- The place fits, so it is neither the first nor the mirrored one.
      constructor
      · intro same
        exact absurd (same ▸ first.2) unfit
      · intro same
        exact absurd (same ▸ first.2) unmirrored
  · rw [if_neg first, if_neg first]
    exact sameFlip_iff unfit

/-- Without adjustments along the y axis, a popup stays there unless it is flipped along the other
one to other rows. -/
theorem place_y_iff (slid : ¬p.Allows 2) (fixed : ¬p.Allows 8) :
    ((p.toward anchor gravity).place o origin).y = (p.desired origin anchor gravity).y ↔
      (p.Allows 4 →
        ¬(p.FreeX o (p.desired origin anchor gravity) ∧
          p.FreeY o (p.desired origin anchor gravity)) →
        p.FreeX o (p.desired origin anchor.mistakenX gravity.mistakenX) →
        p.FreeY o (p.desired origin anchor.mistakenX gravity.mistakenX) →
        (p.desired origin anchor.mistakenX gravity.mistakenX).y =
          (p.desired origin anchor gravity).y) := by
  have slid : ¬(p.toward anchor gravity).Allows 2 := slid
  rw [place_eq, if_neg slid, flipped_y fixed]
  simp only [fits_iff, and_imp]

/-- A popup is placed as the protocol says exactly if no flip at the wrong edges makes a
difference. -/
theorem follows_iff (p : Positioner) (o : Output) (origin : Point) (anchor gravity : Edge) :
    p.Follows o origin anchor gravity ↔ p.Harmless o origin anchor gravity := by
  constructor
  · intro follows
    refine ⟨fun allowed stuck free => ?_, fun allowed free stuck => ?_,
      fun allowed slid fixed kept => ?_⟩
    · exact (flipped_alongX_iff allowed stuck free).mp (follows.flipX allowed stuck free)
    · exact (flipped_alongY_iff allowed free stuck).mp (follows.flipY allowed free stuck)
    · exact (place_y_iff slid fixed).mp (follows.keepY slid fixed kept) allowed
  · intro harmless
    refine ⟨unadjusted_toward p origin anchor gravity, fun allowed stuck free => ?_,
      fun allowed free stuck => ?_, fun allowed room => ?_, fun allowed room => ?_,
      fun slid fixed _ => ?_, fun slid fixed kept => ?_⟩
    · exact (flipped_alongX_iff allowed stuck free).mpr (harmless.alongX allowed stuck free)
    · exact (flipped_alongY_iff allowed free stuck).mpr (harmless.alongY allowed free stuck)
    · have allowed : (p.toward anchor gravity).Allows 1 := allowed
      rw [place_eq, if_pos allowed]
      exact clampi_within room
    · have allowed : (p.toward anchor gravity).Allows 2 := allowed
      rw [place_eq, if_pos allowed]
      exact clampi_within room
    · have slid : ¬(p.toward anchor gravity).Allows 1 := slid
      rw [place_eq, if_neg slid]
      exact flipped_x fixed
    · exact (place_y_iff slid fixed).mpr fun allowed => harmless.keepY allowed slid fixed kept

end

def buttonMenu : Positioner where
  sizeW := 200
  sizeH := 150
  anchor := ⟨300, 100, 80, 20⟩
  constraint := 4

/-- At the right border it is not flipped, although it would fit to the left of the button's right
edge. -/
theorem menu_not_flipped :
    ¬buttonMenu.Follows ⟨400, 400, 1⟩ {} ⟨.low, .high⟩ ⟨.high, .high⟩ := by
  intro follows
  have flipped := follows.flipX (by decide) (by decide) (by decide)
  exact absurd flipped (by decide)

end Positioner

end Xios
