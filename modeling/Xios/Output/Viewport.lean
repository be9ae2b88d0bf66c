import Xios.Output.Extent

/-! Viewports: which sources are accepted, and what is sampled of the buffer for them. -/

namespace Xios

/-- Errors a client is disconnected for. -/
inductive ViewportError where
  | noSurface
  -- A rectangle or a size that cannot be meant.
  | badValue
  -- The size of the source is not whole, and no destination says otherwise.
  | badSize
  -- The source does not lie within the buffer.
  | outOfBuffer
  deriving DecidableEq, Repr

namespace Viewport

/-- All four numbers of a request are minus one, which takes the source away. -/
def Unset (x y w h : Int32) : Prop :=
  x.toInt = -256 ∧ y.toInt = -256 ∧ w.toInt = -256 ∧ h.toInt = -256
  deriving Decidable

theorem toInt_le (v : Int32) : v.toInt ≤ 2147483647 := by
  have below := v.toInt_lt
  omega

def setSource (attached : Bool) (v : Viewport) (x y w h : Int32) : Except ViewportError Viewport :=
  if attached = false then .error .noSurface
  else if Unset x y w h then .ok { v with source := none }
  else if bad : x.toInt < 0 ∨ y.toInt < 0 ∨ w.toInt ≤ 0 ∨ h.toInt ≤ 0 then .error .badValue
  else
    .ok { v with
      source := some
        { x := x.toInt
          y := y.toInt
          w := w.toInt
          h := h.toInt
          origin := ⟨by omega, toInt_le x, by omega, toInt_le y⟩
          extent := ⟨by omega, toInt_le w, by omega, toInt_le h⟩ } }

end Viewport

namespace ViewportSource

/-- A side of the source is not a whole number of units. -/
def Fractional (src : ViewportSource) : Prop :=
  src.w % 256 ≠ 0 ∨ src.h % 256 ≠ 0
  deriving Decidable

/-- The source reaches past the right or the bottom edge of a buffer at a scale. -/
def Exceeds (src : ViewportSource) (scale : Int) (size : BufferSize) : Prop :=
  256 * size.width < (src.x + src.w) * scale ∨ 256 * size.height < (src.y + src.h) * scale
  deriving Decidable

end ViewportSource

namespace ShownSurface

/-- One comparison of `viewport_validate_commit`, which exists if no step of it overflows -/
def pastEdge (scale start length lim : Int) : Option Bool := do
  let reach ← Signed.int64 (start + length)
  let wide ← Signed.int64 (lim * 256)
  some (wide.tdiv scale < reach)

/-- `viewport_validate_commit` -/
def validateCommit (s : ShownSurface) : Option (Except ViewportError Unit) :=
  match s.source with
  | none => some (.ok ())
  | some src =>
    if s.destination = none ∧ src.Fractional then some (.error .badSize)
    else if s.currentBuffer = none then some (.ok ())
    else do
      let wide ← pastEdge s.scale src.x src.w s.size.width
      let outside ← if wide then some true else pastEdge s.scale src.y src.h s.size.height
      if outside then some (.error .outOfBuffer) else some (.ok ())

end ShownSurface

theorem tdiv_lt_iff_lt_mul {a b c : Int} (dividend : 0 ≤ a) (divisor : 0 < c) :
    a.tdiv c < b ↔ a < b * c := by
  rw [Int.tdiv_eq_ediv_of_nonneg dividend]
  exact Int.ediv_lt_iff_lt_mul divisor

/-- Where a coordinate of a source lies in the buffer, rounded and stopped at the edge. -/
def scaledEdge (v scale lim : Int) : Int :=
  min ((v * scale + 128) / 256) lim

theorem scaledEdge_bounds {v scale lim : Int} (start : 0 ≤ v) (positive : 0 < scale)
    (least : 0 ≤ lim) : 0 ≤ scaledEdge v scale lim ∧ scaledEdge v scale lim ≤ lim := by
  have product : 0 ≤ v * scale := Int.mul_nonneg start positive.le
  simp only [scaledEdge]
  omega

theorem scaledEdge_mono {a b scale : Int} (lim : Int) (positive : 0 < scale) (further : a ≤ b) :
    scaledEdge a scale lim ≤ scaledEdge b scale lim := by
  have scaled : a * scale ≤ b * scale := Int.mul_le_mul_of_nonneg_right further positive.le
  have rounded : (a * scale + 128) / 256 ≤ (b * scale + 128) / 256 :=
    Int.ediv_le_ediv (by decide) (by omega)
  simp only [scaledEdge]
  omega

theorem viewportToBufferPx_eq {v scale lim : Int} (start : 0 ≤ v) (positive : 0 < scale)
    (least : 0 ≤ lim) (most : lim ≤ 2147483647) :
    viewportToBufferPx v scale lim = some (scaledEdge v scale lim) := by
  have wide : Signed.int64 (lim * 256) = some (lim * 256) :=
    Signed.int64_of_fits (by omega) (by omega)
  -- Nothing is negative, so that truncation and rounding down are the same.
  have product : 0 ≤ v * scale := Int.mul_nonneg start positive.le
  simp only [viewportToBufferPx, scaledEdge, wide, Option.bind_eq_bind, Option.bind_some,
    tdiv_lt_iff_lt_mul (by omega : 0 ≤ lim * 256) positive]
  split
  · -- The guard has caught a product that may not fit, and which lies past the edge.
    rw [min_eq_right (by omega)]
  · -- The product is at most the buffer's edge in 256ths, so that nothing overflows.
    rw [Signed.int64_of_fits (by omega) (by omega), Option.bind_some,
      Signed.int64_of_fits (by omega) (by omega), Option.bind_some,
      Int.tdiv_eq_ediv_of_nonneg (by omega)]
    split
    · rw [min_eq_left (by omega)]
    · rw [min_eq_right (by omega)]

namespace ShownSurface

theorem pastEdge_eq {scale start length lim : Int} (positive : 0 < scale)
    (first : 0 ≤ start ∧ start ≤ 2147483647) (extent : 0 < length ∧ length ≤ 2147483647)
    (edge : 0 ≤ lim ∧ lim ≤ 2147483647) :
    pastEdge scale start length lim = some (decide (256 * lim < (start + length) * scale)) := by
  have wide : Signed.int64 (lim * 256) = some (lim * 256) :=
    Signed.int64_of_fits (by omega) (by omega)
  have reach : Signed.int64 (start + length) = some (start + length) :=
    Signed.int64_of_fits (by omega) (by omega)
  simp only [pastEdge, reach, wide, Option.bind_eq_bind, Option.bind_some,
    tdiv_lt_iff_lt_mul (by omega : 0 ≤ lim * 256) positive]
  rw [Int.mul_comm lim 256]

theorem validateCommit_eq (s : ShownSurface) :
    s.validateCommit = some
      (match s.source with
      | none => .ok ()
      | some src =>
        if s.destination = none ∧ src.Fractional then .error .badSize
        else if s.currentBuffer ≠ none ∧ src.Exceeds s.scale s.size then .error .outOfBuffer
        else .ok ()) := by
  obtain ⟨width, widthFits, height, heightFits⟩ := s.size.fits
  unfold validateCommit
  cases s.source with
  | none => rfl
  | some src =>
    obtain ⟨left, leftFits, top, topFits⟩ := src.origin
    obtain ⟨wide, wideFits, high, highFits⟩ := src.extent
    have columns := pastEdge_eq s.scale_pos ⟨left, leftFits⟩ ⟨wide, wideFits⟩ ⟨width, widthFits⟩
    have rows := pastEdge_eq s.scale_pos ⟨top, topFits⟩ ⟨high, highFits⟩ ⟨height, heightFits⟩
    simp only [columns, rows, Option.bind_eq_bind, Option.bind_some]
    -- A size that is not whole is found before the buffer is looked at.
    by_cases fractional : s.destination = none ∧ src.Fractional
    · rw [if_pos fractional, if_pos fractional]
    rw [if_neg fractional, if_neg fractional]
    have exceeds : src.Exceeds s.scale s.size ↔
        256 * s.size.width < (src.x + src.w) * s.scale ∨
          256 * s.size.height < (src.y + src.h) * s.scale := Iff.rfl
    by_cases gone : s.currentBuffer = none
    · simp [gone]
    -- The rows are compared only if the columns fit.
    by_cases past : 256 * s.size.width < (src.x + src.w) * s.scale
    · simp [gone, exceeds, past]
    · by_cases below : 256 * s.size.height < (src.y + src.h) * s.scale
      · simp [gone, exceeds, past, below]
      · simp [gone, exceeds, past, below]

theorem sourceEdges_spec (s : ShownSurface) :
    ∃ r, s.sourceEdges = some r ∧ 0 ≤ r.x ∧ 0 ≤ r.y ∧ 0 ≤ r.w ∧ 0 ≤ r.h ∧
      r.x + r.w ≤ s.size.width ∧ r.y + r.h ≤ s.size.height := by
  obtain ⟨width, widthFits, height, heightFits⟩ := s.size.fits
  unfold sourceEdges
  cases s.source with
  -- Without a source the edges are those of the buffer.
  | none => exact ⟨_, rfl, by simp [width, height]⟩
  | some src =>
    obtain ⟨left, leftFits, top, topFits⟩ := src.origin
    obtain ⟨wide, wideFits, high, highFits⟩ := src.extent
    have positive := s.scale_pos
    have x0 := scaledEdge_bounds left positive width
    have y0 := scaledEdge_bounds top positive height
    have x1 := scaledEdge_bounds (by omega : 0 ≤ src.x + src.w) positive width
    have y1 := scaledEdge_bounds (by omega : 0 ≤ src.y + src.h) positive height
    -- The far edges do not come before the near ones, so that the size is not negative.
    have columns := scaledEdge_mono s.size.width positive (by omega : src.x ≤ src.x + src.w)
    have rows := scaledEdge_mono s.size.height positive (by omega : src.y ≤ src.y + src.h)
    simp only [Option.bind_eq_bind]
    rw [viewportToBufferPx_eq left positive width widthFits, Option.bind_some,
      viewportToBufferPx_eq top positive height heightFits, Option.bind_some,
      Signed.int64_of_fits (by omega) (by omega), Option.bind_some,
      viewportToBufferPx_eq (by omega) positive width widthFits, Option.bind_some,
      Signed.int64_of_fits (by omega) (by omega), Option.bind_some,
      viewportToBufferPx_eq (by omega) positive height heightFits, Option.bind_some,
      Signed.int64_of_fits (by omega) (by omega), Option.bind_some,
      Signed.int64_of_fits (by omega) (by omega), Option.bind_some,
      Signed.int32_of_fits (by omega) (by omega), Option.bind_some,
      Signed.int32_of_fits (by omega) (by omega), Option.bind_some,
      Signed.int32_of_fits (by omega) (by omega), Option.bind_some,
      Signed.int32_of_fits (by omega) (by omega), Option.bind_some]
    exact ⟨_, rfl, by simp only; omega⟩

theorem sourceRect_spec (s : ShownSurface) :
    ∃ r, s.sourceRect = some r ∧ 0 ≤ r.x ∧ 0 ≤ r.y ∧ 0 ≤ r.w ∧ 0 ≤ r.h ∧
      r.x + r.w ≤ s.size.width ∧ r.y + r.h ≤ s.size.height := by
  obtain ⟨-, widthFits, -, heightFits⟩ := s.size.fits
  obtain ⟨r, edges, left, top, wide, high, right, bottom⟩ := s.sourceEdges_spec
  refine ⟨r, ?_, left, top, wide, high, right, bottom⟩
  -- The edges lie within the buffer already, so that there is nothing to clip.
  simp only [sourceRect, edges, Option.bind_eq_bind, Option.bind_some]
  rw [if_neg (by omega), if_neg (by omega), Signed.int32_of_fits (by omega) (by omega),
    Option.bind_some, if_neg (by omega), Signed.int32_of_fits (by omega) (by omega),
    Option.bind_some, if_neg (by omega)]

theorem sourceRect_whole {s : ShownSurface} (whole : s.source = none) :
    s.sourceRect = some ⟨0, 0, s.size.width, s.size.height⟩ := by
  obtain ⟨width, widthFits, height, heightFits⟩ := s.size.fits
  simp only [sourceRect, sourceEdges, whole, Option.bind_eq_bind, Option.bind_some]
  rw [if_neg (by omega), Signed.int32_of_fits (by omega) (by omega), Option.bind_some,
    if_neg (by omega), Signed.int32_of_fits (by omega) (by omega), Option.bind_some,
    if_neg (by omega)]

end ShownSurface

theorem Viewport.setSource_source {before after : Viewport} {x y w h : Int32}
    (accepted : before.setSource true x y w h = .ok after) (given : ¬Unset x y w h) :
    ∃ src, after.source = some src ∧ src.x = x.toInt ∧ src.y = y.toInt ∧ src.w = w.toInt ∧
      src.h = h.toInt := by
  simp only [setSource, Bool.true_eq_false, ↓reduceIte, if_neg given] at accepted
  split at accepted
  · cases accepted
  · cases accepted
    exact ⟨_, rfl, rfl, rfl, rfl, rfl⟩

/-- Commits are rejected exactly for sources that are not whole or do not lie within the buffer, and
whatever the source, what is sampled lies within the buffer. -/
theorem viewport_source_exact (s : ShownSurface) :
    (∀ (before after : Viewport) (x y w h : Int32),
      before.setSource true x y w h = .ok after → ¬Viewport.Unset x y w h →
        s.viewport = some after →
          ∃ verdict, s.validateCommit = some verdict ∧
            ((∃ error, verdict = .error error) ↔
              (after.destination = none ∧ (w.toInt % 256 ≠ 0 ∨ h.toInt % 256 ≠ 0)) ∨
                s.currentBuffer ≠ none ∧
                  (256 * s.size.width < (x.toInt + w.toInt) * s.scale ∨
                    256 * s.size.height < (y.toInt + h.toInt) * s.scale))) ∧
      ∃ r, s.sourceRect = some r ∧ 0 ≤ r.x ∧ 0 ≤ r.y ∧ 0 ≤ r.w ∧ 0 ≤ r.h ∧
        r.x + r.w ≤ s.size.width ∧ r.y + r.h ≤ s.size.height := by
  refine ⟨?_, s.sourceRect_spec⟩
  intro before after x y w h accepted given shown
  obtain ⟨src, kept, sameX, sameY, sameW, sameH⟩ := Viewport.setSource_source accepted given
  have source : s.source = some src := by simp [ShownSurface.source, shown, kept]
  have destination : s.destination = after.destination := by
    simp [ShownSurface.destination, shown]
  refine ⟨_, s.validateCommit_eq, ?_⟩
  rw [← sameX, ← sameY, ← sameW, ← sameH, source, ← destination]
  change _ ↔ (s.destination = none ∧ src.Fractional) ∨
    s.currentBuffer ≠ none ∧ src.Exceeds s.scale s.size
  simp only
  -- The two errors are looked for in turn.
  by_cases fractional : s.destination = none ∧ src.Fractional
  · rw [if_pos fractional]
    simp [fractional]
  · rw [if_neg fractional]
    by_cases outside : s.currentBuffer ≠ none ∧ src.Exceeds s.scale s.size
    · rw [if_pos outside]
      simp [outside]
    · rw [if_neg outside]
      simp only [reduceCtorEq, exists_false, false_iff, not_or]
      exact ⟨fractional, outside⟩

def croppedSurface : ShownSurface where
  currentBuffer := some (.shm true)
  size := ⟨10, 5, by decide⟩
  bufferScale := 2
  scaleFits := two_fits
  viewport := some
    { source := some ⟨128, 0, 512, 640, by decide, by decide⟩, destination := some (7, 7) }

theorem viewport_source_exact_cropped :
    ∃ verdict, croppedSurface.validateCommit = some verdict ∧ ∀ error, verdict ≠ .error error := by
  obtain ⟨verdict, judged, exactly⟩ := (viewport_source_exact croppedSurface).1
    { destination := some (7, 7) } _ 128 0 512 640 rfl (by decide) rfl
  refine ⟨verdict, judged, fun error bad => ?_⟩
  have impossible := exactly.mp ⟨error, bad⟩
  exact absurd impossible (by decide)

end Xios
