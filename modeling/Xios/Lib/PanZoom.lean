import Mathlib.Algebra.Order.Field.Basic
import Mathlib.Tactic.FieldSimp
import Mathlib.Tactic.Linarith
import Mathlib.Tactic.Ring

/-! One axis of a picture that is shown at some size, and moved from the middle of its window. -/

namespace PanZoom

variable {K : Type*} [Field K] [LinearOrder K] [IsStrictOrderedRing K]

/-- Where a picture of some size begins that is moved away from the middle of its window. -/
def start (mid size pan : K) : K :=
  mid - size / 2 + pan

/-- How far a picture can be moved without leaving part of its window empty. -/
def limit (window size : K) : K :=
  max 0 ((size - window) / 2)

def clamp (most pan : K) : K :=
  min (max pan (-most)) most

def share (start size place : K) : K :=
  (place - start) / size

/-- The move after which a picture of some size has a given share of it before some place. -/
def panTo (mid size place part : K) : K :=
  place - mid + size * (1 / 2 - part)

omit [IsStrictOrderedRing K] in
theorem limit_nonneg (window size : K) : 0 ≤ limit window size :=
  le_max_left _ _

theorem clamp_within {most : K} (nonneg : 0 ≤ most) (pan : K) :
    -most ≤ clamp most pan ∧ clamp most pan ≤ most := by
  constructor
  · apply le_min
    · exact le_max_right _ _
    · linarith
  · exact min_le_right _ _

omit [IsStrictOrderedRing K] in
theorem clamp_of_within {most pan : K} (above : -most ≤ pan) (below : pan ≤ most) :
    clamp most pan = pan := by
  rw [clamp, max_eq_left above, min_eq_left below]

theorem clamp_clamp {most : K} (nonneg : 0 ≤ most) (pan : K) :
    clamp most (clamp most pan) = clamp most pan := by
  obtain ⟨above, below⟩ := clamp_within nonneg pan
  exact clamp_of_within above below

theorem start_covers {window size pan : K} (mid : K) (large : window ≤ size)
    (above : -limit window size ≤ pan) (below : pan ≤ limit window size) :
    start mid size pan ≤ mid - window / 2 ∧
      mid + window / 2 ≤ start mid size pan + size := by
  have most : limit window size = (size - window) / 2 := by
    rw [limit, max_eq_right]
    linarith
  rw [most] at above below
  unfold start
  constructor <;> linarith

theorem start_centred {window size pan : K} (mid : K) (small : size < window)
    (above : -limit window size ≤ pan) (below : pan ≤ limit window size) :
    start mid size pan + size / 2 = mid := by
  have most : limit window size = 0 := by
    rw [limit, max_eq_left]
    linarith
  rw [most] at above below
  unfold start
  linarith

theorem share_panTo {size : K} (positive : 0 < size) (mid place part : K) :
    share (start mid size (panTo mid size place part)) size place = part := by
  have nonzero : size ≠ 0 := positive.ne'
  unfold share start panTo
  field_simp
  ring

end PanZoom
