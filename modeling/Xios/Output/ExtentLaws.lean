import Mathlib.Data.List.Find
import Xios.Output.Viewport

/-! What is drawn of a surface, what is damaged for it and what the pointer hits agree or not. -/

namespace Xios

namespace ShownSurface

/-- One rectangle is drawn, damaged and hit, and its corners are those of the surface. -/
structure OneRect (o : Screen) (s : ShownSurface) : Prop where
  drawn : s.drawnRect o = s.outputRectPx o
  hits : ∀ x y, s.hit o x y = true ↔
    ∃ r ∈ s.outputRectPx o, r.Contains (x * o.outputScale) (y * o.outputScale)
  -- A column or row at the end of the rectangle is the one at the end of the surface.
  corners : ∀ r, s.surfaceRect o = some r →
    s.localCoords o r.x0 r.y0 = some (0, 0) ∧
      s.localCoords o r.x1 r.y0 = some (s.displaySize.1 * 256, 0) ∧
        s.localCoords o r.x0 r.y1 = some (0, s.displaySize.2 * 256) ∧
          s.localCoords o r.x1 r.y1 = some (s.displaySize.1 * 256, s.displaySize.2 * 256)

end ShownSurface

namespace ShownSurface

theorem units_eq (o : Screen) {px : Int} (positive : 0 < px) :
    bufferToLogical px o.scale = (px + o.outputScale - 1) / o.outputScale := by
  have scale := o.outputScale_pos
  rw [bufferToLogical, ← Output.outputScale]
  exact Int.tdiv_eq_ediv_of_nonneg (by omega)

theorem units_spec (o : Screen) {px : Int} (positive : 0 < px) :
    0 < bufferToLogical px o.scale ∧
      (bufferToLogical px o.scale * o.outputScale = px ↔ px % o.outputScale = 0) := by
  have scale := o.outputScale_pos
  rw [units_eq o positive]
  have least : 1 ≤ (px + o.outputScale - 1) / o.outputScale :=
    (Int.le_ediv_iff_mul_le scale).mpr (by omega)
  refine ⟨least, ?_⟩
  constructor
  · intro whole
    rw [← whole]
    exact Int.mul_emod_left _ _
  · intro whole
    obtain ⟨n, rfl⟩ := Int.dvd_of_emod_eq_zero whole
    have quotient : (o.outputScale * n + o.outputScale - 1) / o.outputScale = n := by
      rw [Int.add_sub_assoc, Int.add_comm, Int.add_mul_ediv_left _ _ scale.ne',
        Int.ediv_eq_zero_of_lt (by omega) (by omega), Int.zero_add]
    rw [quotient, Int.mul_comm]

/-- The pointer is over the topmost surface whose damaged rectangle it is in. -/
theorem surfaceAt_eq_outputRectPx {o : Screen} {mapped : List ShownSurface}
    (each : ∀ s ∈ mapped, s.OneRect o) (inScope : ShownSurface → Bool) (x y : Int) :
    surfaceAt o none inScope mapped x y =
      mapped.reverse.find? fun s => (!o.nativeMode || inScope s) && !s.iconified &&
        decide (∃ r ∈ s.outputRectPx o, r.Contains (x * o.outputScale) (y * o.outputScale)) := by
  unfold surfaceAt
  refine List.find?_congr fun s here => ?_
  rw [Bool.eq_iff_iff.mpr (((each s (List.mem_reverse.mp here)).hits x y).trans
    decide_eq_true_iff.symm)]

end ShownSurface

end Xios
