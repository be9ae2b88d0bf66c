import Mathlib.Order.Lattice
import Mathlib.Data.Int.Order.Basic

/-! Half-open integer rectangles, their hulls, and lists of them used as regions. -/

/-- A rectangle given by its first pixel and the pixel just past its last one. -/
structure Rect where
  -- First column inside.
  x0 : Int
  -- First row inside.
  y0 : Int
  -- First column past the right edge.
  x1 : Int
  -- First row past the bottom edge.
  y1 : Int
  deriving DecidableEq, Repr

namespace Rect

/-- A pixel lies in a rectangle. -/
def Contains (r : Rect) (x y : Int) : Prop :=
  r.x0 ≤ x ∧ x < r.x1 ∧ r.y0 ≤ y ∧ y < r.y1
  deriving Decidable

/-- Every edge of the inner rectangle lies within the outer one. -/
def Within (inner outer : Rect) : Prop :=
  outer.x0 ≤ inner.x0 ∧ outer.y0 ≤ inner.y0 ∧ inner.x1 ≤ outer.x1 ∧ inner.y1 ≤ outer.y1
  deriving Decidable

def hull (a b : Rect) : Rect :=
  ⟨min a.x0 b.x0, min a.y0 b.y0, max a.x1 b.x1, max a.y1 b.y1⟩

def touches (a b : Rect) : Bool :=
  decide (b.x0 ≤ a.x1 ∧ a.x0 ≤ b.x1 ∧ b.y0 ≤ a.y1 ∧ a.y0 ≤ b.y1)

theorem Within.refl (r : Rect) : r.Within r :=
  ⟨le_rfl, le_rfl, le_rfl, le_rfl⟩

variable {a b : Rect}

theorem Within.trans {c : Rect} (first : a.Within b) (second : b.Within c) : a.Within c := by
  simp only [Within] at *
  omega

variable {outer : Rect} {x y : Int}

theorem Within.contains {inner : Rect} (within : inner.Within outer) (inside : inner.Contains x y) :
    outer.Contains x y := by
  simp only [Within, Contains] at *
  omega

theorem within_hull_left (a b : Rect) : a.Within (hull a b) := by
  simp only [Within, hull]
  omega

theorem within_hull_right (a b : Rect) : b.Within (hull a b) := by
  simp only [Within, hull]
  omega

theorem hull_within (left : a.Within outer) (right : b.Within outer) : (hull a b).Within outer := by
  simp only [Within, hull] at *
  omega

/-- A pixel lies in one of some rectangles. -/
def Covers (rects : List Rect) (x y : Int) : Prop :=
  ∃ r ∈ rects, r.Contains x y
  deriving Decidable

@[simp] theorem covers_cons (r : Rect) (rects : List Rect) (x y : Int) :
    Covers (r :: rects) x y ↔ r.Contains x y ∨ Covers rects x y := by
  simp [Covers]

@[simp] theorem covers_nil (x y : Int) : ¬Covers [] x y := by
  simp [Covers]

@[simp] theorem covers_append (left right : List Rect) (x y : Int) :
    Covers (left ++ right) x y ↔ Covers left x y ∨ Covers right x y := by
  simp [Covers, or_and_right, exists_or]

/-- Grow a rectangle over every listed one that it touches, keeping the others in order. -/
def absorb : Rect → List Rect → Rect × List Rect
  | grown, [] => (grown, [])
  | grown, r :: rest =>
    if touches grown r then absorb (hull grown r) rest
    else
      let (grown, kept) := absorb grown rest
      (grown, r :: kept)

theorem absorb_covers {grown : Rect} {rects : List Rect}
    (covered : grown.Contains x y ∨ Covers rects x y) :
    (absorb grown rects).1.Contains x y ∨ Covers (absorb grown rects).2 x y := by
  -- The induction follows the scan, which either swallows the next rectangle or keeps it.
  induction rects generalizing grown with
  | nil => simpa [absorb] using covered
  | cons r rest ih =>
    simp only [covers_cons] at covered
    simp only [absorb]
    split
    · apply ih
      rcases covered with inside | inside | covered
      · exact Or.inl ((within_hull_left grown r).contains inside)
      · exact Or.inl ((within_hull_right grown r).contains inside)
      · exact Or.inr covered
    · simp only [covers_cons]
      rcases covered with inside | inside | covered
      · rcases ih (Or.inl inside) with grew | kept
        · exact Or.inl grew
        · exact Or.inr (Or.inr kept)
      · exact Or.inr (Or.inl inside)
      · rcases ih (Or.inr covered) with grew | kept
        · exact Or.inl grew
        · exact Or.inr (Or.inr kept)

theorem absorb_length (grown : Rect) (rects : List Rect) :
    (absorb grown rects).2.length ≤ rects.length := by
  induction rects generalizing grown with
  | nil => simp [absorb]
  | cons r rest ih =>
    simp only [absorb]
    split
    · exact (ih _).trans (by simp)
    · simpa using ih grown

theorem absorb_all {holds : Rect → Prop}
    (hull : ∀ {a b : Rect}, holds a → holds b → holds (a.hull b)) {grown : Rect}
    (rects : List Rect) (own : holds grown) (others : ∀ r ∈ rects, holds r) :
    holds (absorb grown rects).1 ∧ ∀ r ∈ (absorb grown rects).2, holds r := by
  induction rects generalizing grown with
  | nil => simpa [absorb] using own
  | cons r rest ih =>
    simp only [List.mem_cons, forall_eq_or_imp] at others
    simp only [absorb]
    split
    · exact ih (hull own others.1) others.2
    · obtain ⟨grew, kept⟩ := ih own others.2
      simpa using ⟨grew, others.1, kept⟩

def intersects (a b : Rect) : Bool :=
  decide (b.x0 < a.x1 ∧ a.x0 < b.x1 ∧ b.y0 < a.y1 ∧ a.y0 < b.y1)

def intersection (a b : Rect) : Option Rect :=
  if a.intersects b then
    let r : Rect := ⟨max a.x0 b.x0, max a.y0 b.y0, min a.x1 b.x1, min a.y1 b.y1⟩
    if r.x0 < r.x1 ∧ r.y0 < r.y1 then some r else none
  else none

/-- The parts of a rectangle above, below, to the left and to the right of another one. -/
def subtract (src cut : Rect) : List Rect :=
  match src.intersection cut with
  | none => [src]
  | some ix =>
    [⟨src.x0, src.y0, src.x1, ix.y0⟩, ⟨src.x0, ix.y1, src.x1, src.y1⟩,
      ⟨src.x0, ix.y0, ix.x0, ix.y1⟩, ⟨ix.x1, ix.y0, src.x1, ix.y1⟩].filter fun r =>
        r.x0 < r.x1 ∧ r.y0 < r.y1

theorem intersects_of_contains (first : a.Contains x y) (second : b.Contains x y) :
    a.intersects b = true := by
  simp only [Contains] at first second
  simp only [intersects, decide_eq_true_eq]
  omega

theorem intersection_of_contains (first : a.Contains x y) (second : b.Contains x y) :
    ∃ r, a.intersection b = some r ∧ r.Within a := by
  have overlap := intersects_of_contains first second
  simp only [Contains] at first second
  refine ⟨⟨max a.x0 b.x0, max a.y0 b.y0, min a.x1 b.x1, min a.y1 b.y1⟩, ?_, ?_⟩
  · simp only [intersection, overlap, ↓reduceIte]
    rw [if_pos (by omega)]
  · simp only [Within]
    omega

theorem Within.intersects {inner other : Rect} (within : inner.Within outer)
    (overlap : inner.intersects other = true) : outer.intersects other = true := by
  simp only [Within] at within
  simp only [Rect.intersects, decide_eq_true_eq] at overlap ⊢
  omega

theorem subtract_of_apart {src cut : Rect} (apart : src.intersects cut = false) :
    src.subtract cut = [src] := by
  simp [subtract, intersection, apart]

theorem contains_of_intersection {r : Rect} (common : a.intersection b = some r) (x y : Int) :
    r.Contains x y ↔ a.Contains x y ∧ b.Contains x y := by
  unfold intersection at common
  split at common
  · simp only at common
    split at common
    · cases common
      simp only [Contains]
      omega
    · cases common
  · cases common

theorem intersection_bounds {r : Rect} (common : a.intersection b = some r) :
    r.Within a ∧ r.x0 < r.x1 ∧ r.y0 < r.y1 := by
  unfold intersection at common
  split at common
  · simp only at common
    split at common
    · rename_i nonempty
      cases common
      refine ⟨?_, nonempty⟩
      simp only [Within]
      omega
    · cases common
  · cases common

theorem apart_of_intersection (nothing : a.intersection b = none) (first : a.Contains x y) :
    ¬b.Contains x y := by
  intro second
  obtain ⟨r, common, -⟩ := intersection_of_contains first second
  rw [nothing] at common
  cases common

theorem covers_filter_nonempty (rects : List Rect) (x y : Int) :
    Covers (rects.filter fun r => r.x0 < r.x1 ∧ r.y0 < r.y1) x y ↔ Covers rects x y := by
  simp only [Covers, List.mem_filter, decide_eq_true_eq]
  constructor
  · rintro ⟨r, ⟨listed, -⟩, inside⟩
    exact ⟨r, listed, inside⟩
  · rintro ⟨r, listed, inside⟩
    refine ⟨r, ⟨listed, ?_⟩, inside⟩
    simp only [Contains] at inside
    omega

theorem covers_subtract (src cut : Rect) (x y : Int) :
    Covers (src.subtract cut) x y ↔ src.Contains x y ∧ ¬cut.Contains x y := by
  unfold subtract
  split
  · rename_i nothing
    simp only [covers_cons, covers_nil, or_false]
    exact ⟨fun inside => ⟨inside, apart_of_intersection nothing inside⟩, And.left⟩
  · rename_i ix common
    have both := contains_of_intersection common x y
    obtain ⟨within, columns, rows⟩ := intersection_bounds common
    rw [covers_filter_nonempty]
    -- A pixel of the rectangle lies in the common part, or in one of the four parts around it.
    have around : src.Contains x y ∧ ¬cut.Contains x y ↔ src.Contains x y ∧ ¬ix.Contains x y := by
      rw [both]
      exact and_congr_right fun inside => not_congr ⟨fun cut_ => ⟨inside, cut_⟩, And.right⟩
    rw [around]
    simp only [covers_cons, covers_nil, or_false]
    simp only [Contains, Within] at within ⊢
    omega

/-- No pixel belongs to both rectangles. -/
def Apart (a b : Rect) : Prop :=
  ∀ x y, a.Contains x y → ¬b.Contains x y

theorem subtract_apart (src cut : Rect) : (src.subtract cut).Pairwise Apart := by
  unfold subtract
  split
  · exact List.pairwise_singleton _ _
  · rename_i ix common
    obtain ⟨within, columns, rows⟩ := intersection_bounds common
    apply List.Pairwise.filter
    simp only [Within] at within
    simp only [List.pairwise_cons, List.mem_cons, List.not_mem_nil, or_false, forall_eq_or_imp,
      forall_eq, false_imp_iff, implies_true, and_true, List.Pairwise.nil, Apart, Contains]
    refine ⟨⟨?_, ?_, ?_⟩, ⟨?_, ?_⟩, ?_⟩ <;>
      · intro x y first second
        omega

theorem covers_flatMap_subtract (rects : List Rect) (cut : Rect) (x y : Int) :
    Covers (rects.flatMap (·.subtract cut)) x y ↔ Covers rects x y ∧ ¬cut.Contains x y := by
  induction rects with
  | nil => simp
  | cons r rest ih =>
    rw [List.flatMap_cons, covers_append, covers_subtract, ih, covers_cons, or_and_right]

theorem flatMap_subtract_apart {rects : List Rect} (cut : Rect) (apart : rects.Pairwise Apart) :
    (rects.flatMap (·.subtract cut)).Pairwise Apart := by
  rw [List.pairwise_flatMap]
  refine ⟨fun r _ => subtract_apart r cut, apart.imp ?_⟩
  intro a b separate p part q other x y inside
  -- A part has only pixels of the rectangle it is left of.
  have first := ((covers_subtract a cut x y).mp ⟨p, part, inside⟩).1
  intro second
  exact separate x y first ((covers_subtract b cut x y).mp ⟨q, other, second⟩).1

theorem subtract_length (src cut : Rect) : (src.subtract cut).length ≤ 4 := by
  unfold subtract
  split
  · simp
  · exact List.length_filter_le _ _

theorem subset_iff (inner outer : Rect) :
    (∀ x y, inner.Contains x y → outer.Contains x y) ↔
      inner.x1 ≤ inner.x0 ∨ inner.y1 ≤ inner.y0 ∨ inner.Within outer := by
  simp only [Contains, Within]
  constructor
  · intro subset
    by_cases empty : inner.x1 ≤ inner.x0 ∨ inner.y1 ≤ inner.y0
    · omega
    · -- The first pixel and the last one tell where the edges are.
      have first := subset inner.x0 inner.y0 (by omega)
      have last := subset (inner.x1 - 1) (inner.y1 - 1) (by omega)
      omega
  · intro within x y inside
    omega

end Rect
