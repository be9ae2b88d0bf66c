import Xios.Lib.Painter
import Xios.Output.Extent
import Xios.Output.Texture

/-! Repaints leave out what opaque surfaces hide, and show the same picture as without that. -/

namespace Xios

namespace ShownSurface

/-- `surface_opaque_full` -/
def opaqueFull (s : ShownSurface) : Bool :=
  match s.opaqueRegion with
  | none => false
  | some r =>
    r.x0 ≤ 0 && r.y0 ≤ 0 && s.displaySize.1 ≤ r.x1 && s.displaySize.2 ≤ r.y1

/-- `surface_blends` -/
def blends (s : ShownSurface) : Bool :=
  match s.currentBuffer with
  | none => false
  | some kind =>
    if s.isXwayland && s.xwaylandOpaque then false
    else
      let argb := match kind with
        | .shm argb => argb
        | .other => true
      match s.role with
      | .layer => argb
      | .toplevel | .popup => argb && !s.opaqueFull
      | _ => false

/-- `surface_opaque_output_rect_px` -/
def opaqueOutputRectPx (o : Screen) (s : ShownSurface) : Option Rect :=
  if s.blends || s.iconified then none else s.outputRectPx o

end ShownSurface

def rectSubtractOne (cap : Nat) (src cut : Rect) : Option (List Rect) :=
  if cap < (src.subtract cut).length then none else some (src.subtract cut)

def subtractNext (cap : Nat) (cut : Rect) (out : List Rect) (r : Rect) : Option (List Rect) :=
  match rectSubtractOne 4 r cut with
  | none => none
  | some pieces => if cap < out.length + pieces.length then none else some (out ++ pieces)

def rectListSubtractOne (cap : Nat) (cut : Rect) (rects : List Rect) : Option (List Rect) :=
  rects.foldlM (subtractNext cap cut) []

/-- The loop of `surface_visible_damage_rects` over the opaque surfaces further up -/
def hideOpaque (cap : Nat) (original : Rect) : List Rect → List Rect → List Rect
  | visible, [] => visible
  | visible, cut :: cuts =>
    match rectListSubtractOne cap cut visible with
    | none => [original]
    | some [] => []
    | some (r :: rest) => hideOpaque cap original (r :: rest) cuts

def surfaceVisibleDamageRects (o : Screen) (cap : Nat) (damage : Rect) (s : ShownSurface)
    (above : List ShownSurface) : List Rect :=
  match (s.outputRectPx o).bind (·.intersection damage) with
  | none => []
  | some original => hideOpaque cap original [original] (above.filterMap (·.opaqueOutputRectPx o))

/-- A surface with what it makes of the pixels it is drawn over. -/
structure PaintedSurface (β : Type*) where
  surface : ShownSurface
  -- The colour of a pixel, from the colour that was there.
  paint : Int → Int → β → β
  -- Without blending the colour that was there does not matter.
  overwrites : surface.blends = false → ∀ x y a b, paint x y a = paint x y b

namespace PaintedSurface

variable {β : Type*}

/-- `composite_one`, after `iosc_gl_set_damage` -/
def compositeOne (o : Screen) (p : PaintedSurface β) (canvas : Int → Int → β) (clip : Rect) :
    Int → Int → β :=
  fun x y =>
    if clip.Contains x y ∧ ∃ r ∈ p.surface.outputRectPx o, r.Contains x y then
      p.paint x y (canvas x y)
    else canvas x y

/-- The loop of `recomposite_now` over the surfaces, from the lowest to the topmost one -/
def compositeAll (o : Screen) (clips : PaintedSurface β → List (PaintedSurface β) → List Rect) :
    List (PaintedSurface β) → (Int → Int → β) → Int → Int → β
  | [], canvas => canvas
  | p :: above, canvas =>
    if p.surface.iconified then compositeAll o clips above canvas
    else compositeAll o clips above ((clips p above).foldl (p.compositeOne o) canvas)

def recompositeNow (o : Screen) (plan : List Rect) (mapped : List (PaintedSurface β))
    (canvas : Int → Int → β) : Int → Int → β :=
  plan.foldl (fun canvas d =>
    compositeAll o (fun p above =>
      surfaceVisibleDamageRects o maxVisibleRects d p.surface (above.map surface)) mapped canvas)
    canvas

/-- Repaint with nothing but each of the rectangles as a clip. -/
def recompositeUnculled (o : Screen) (plan : List Rect) (mapped : List (PaintedSurface β))
    (canvas : Int → Int → β) : Int → Int → β :=
  plan.foldl (fun canvas d => compositeAll o (fun _ _ => [d]) mapped canvas) canvas

end PaintedSurface

theorem rectSubtractOne_four (src cut : Rect) :
    rectSubtractOne 4 src cut = some (src.subtract cut) :=
  if_neg (not_lt.mpr (Rect.subtract_length src cut))

theorem rectListSubtractOne_eq (cap : Nat) (cut : Rect) (rects : List Rect) :
    rectListSubtractOne cap cut rects =
      if (rects.flatMap (·.subtract cut)).length ≤ cap then some (rects.flatMap (·.subtract cut))
      else none := by
  -- The loop goes on with the parts found so far, for which there was room.
  have general : ∀ out : List Rect, out.length ≤ cap →
      rects.foldlM (subtractNext cap cut) out =
      if (out ++ rects.flatMap (·.subtract cut)).length ≤ cap then
        some (out ++ rects.flatMap (·.subtract cut))
      else none := by
    induction rects with
    | nil =>
      intro out room
      simp [room]
    | cons r rest ih =>
      intro out room
      rw [List.foldlM_cons]
      simp only [subtractNext, rectSubtractOne_four, List.flatMap_cons]
      by_cases full : cap < out.length + (r.subtract cut).length
      · -- What does not fit now does not fit with the parts of further rectangles either.
        rw [if_pos full, if_neg]
        · rfl
        · simp only [List.length_append]
          omega
      · rw [if_neg full]
        have more := ih (out ++ r.subtract cut) (by simpa using full)
        rw [List.append_assoc] at more
        exact more
  have whole := general [] (Nat.zero_le cap)
  rw [List.nil_append] at whole
  exact whole

/-- Cutting opaque rectangles away leaves what they do not cover, in disjoint parts. -/
theorem hideOpaque_spec (cap : Nat) {original : Rect} {visible : List Rect} (cuts : List Rect)
    (within : ∀ x y, Rect.Covers visible x y → original.Contains x y)
    (apart : visible.Pairwise Rect.Apart) :
    (∀ x y, Rect.Covers visible x y → ¬Rect.Covers cuts x y →
        Rect.Covers (hideOpaque cap original visible cuts) x y) ∧
      (∀ x y, Rect.Covers (hideOpaque cap original visible cuts) x y → original.Contains x y) ∧
        (hideOpaque cap original visible cuts).Pairwise Rect.Apart := by
  -- The induction is on the opaque surfaces still to be looked at.
  induction cuts generalizing visible with
  | nil => exact ⟨fun x y shown _ => shown, within, apart⟩
  | cons cut cuts ih =>
    have rest := fun x y => Rect.covers_flatMap_subtract visible cut x y
    have separate := Rect.flatMap_subtract_apart cut apart
    unfold hideOpaque
    rw [rectListSubtractOne_eq]
    split
    · -- There are too many parts, and the original stands in for all of them.
      refine ⟨fun x y shown _ => ?_, ?_, List.pairwise_singleton _ _⟩
      · simpa using within x y shown
      · simp
    · -- Nothing is left.
      rename_i nothing
      split at nothing
      · injection nothing with empty
        rw [empty] at rest
        refine ⟨fun x y shown unhidden => ?_, by simp, List.Pairwise.nil⟩
        rw [Rect.covers_cons, not_or] at unhidden
        exact (rest x y).mpr ⟨shown, unhidden.1⟩
      · cases nothing
    · -- What is left of the parts is not covered by this surface, and goes on to the next one.
      rename_i r others left
      split at left
      · injection left with left
        rw [left] at rest separate
        have inside : ∀ x y, Rect.Covers (r :: others) x y → original.Contains x y :=
          fun x y shown => within x y ((rest x y).mp shown).1
        obtain ⟨enough, bounded, disjoint⟩ := ih inside separate
        refine ⟨fun x y shown unhidden => ?_, bounded, disjoint⟩
        rw [Rect.covers_cons, not_or] at unhidden
        exact enough x y ((rest x y).mpr ⟨shown, unhidden.1⟩) unhidden.2
      · cases left

theorem surfaceVisibleDamageRects_spec (o : Screen) (cap : Nat) (damage : Rect) (s : ShownSurface)
    (above : List ShownSurface) :
    (∀ x y, (∃ r ∈ s.outputRectPx o, r.Contains x y) → damage.Contains x y →
        (∀ t ∈ above, ∀ r ∈ t.opaqueOutputRectPx o, ¬r.Contains x y) →
          Rect.Covers (surfaceVisibleDamageRects o cap damage s above) x y) ∧
      (∀ x y, Rect.Covers (surfaceVisibleDamageRects o cap damage s above) x y →
        (∃ r ∈ s.outputRectPx o, r.Contains x y) ∧ damage.Contains x y) ∧
      (surfaceVisibleDamageRects o cap damage s above).Pairwise Rect.Apart := by
  unfold surfaceVisibleDamageRects
  cases placed : s.outputRectPx o with
  | none => simp
  | some r =>
    simp only [Option.bind_some, Option.mem_def, Option.some.injEq, exists_eq_left']
    split
    · -- Nothing of the surface is damaged.
      rename_i nothing
      refine ⟨fun x y inside damaged _ => ?_, by simp, List.Pairwise.nil⟩
      exact absurd damaged (Rect.apart_of_intersection nothing inside)
    · rename_i original common
      have both := Rect.contains_of_intersection common
      obtain ⟨enough, within, apart⟩ := hideOpaque_spec cap
        (above.filterMap (·.opaqueOutputRectPx o))
        (fun x y shown => by simpa using shown : ∀ x y, Rect.Covers [original] x y → _)
        (List.pairwise_singleton _ _)
      refine ⟨fun x y inside damaged unhidden => ?_, fun x y shown => ?_, apart⟩
      · apply enough
        · simpa using (both x y).mpr ⟨inside, damaged⟩
        · rintro ⟨cut, listed, hides⟩
          obtain ⟨t, member, opaque_⟩ := List.mem_filterMap.mp listed
          exact unhidden t member cut opaque_ hides
      · exact (both x y).mp (within x y shown)

namespace PaintedSurface

variable {β : Type*} (o : Screen)

def layer (p : PaintedSurface β) : Layer β where
  rect := if p.surface.iconified then none else p.surface.outputRectPx o
  paint := p.paint
  solid := !p.surface.blends
  overwrites solid := p.overwrites (by simpa using solid)

theorem compositeAll_eq (clips : PaintedSurface β → List (PaintedSurface β) → List Rect)
    (mapped : List (PaintedSurface β)) (canvas : Int → Int → β) :
    compositeAll o clips mapped canvas = Layer.paintAll (layer o) clips mapped canvas := by
  induction mapped generalizing canvas with
  | nil => rfl
  | cons p above ih =>
    simp only [compositeAll, Layer.paintAll]
    by_cases hidden : p.surface.iconified = true
    · -- An iconified window is passed over, and its layer paints nothing.
      have nothing : (p.layer o).draw = fun canvas _ => canvas := by
        funext canvas clip x y
        simp [Layer.draw, Layer.Covers, layer, hidden]
      rw [if_pos hidden, ih, nothing, List.foldl_fixed]
    · have same : (p.layer o).draw = p.compositeOne o := by
        funext canvas clip x y
        simp [Layer.draw, Layer.Covers, layer, hidden, compositeOne]
      rw [if_neg hidden, ih, same]

theorem hidden_iff (above : List (PaintedSurface β)) (x y : Int) :
    Layer.Hidden (layer o) above x y ↔
      ∃ t ∈ above.map surface, ∃ r ∈ t.opaqueOutputRectPx o, r.Contains x y := by
  simp only [Layer.Hidden, List.mem_map, exists_exists_and_eq_and]
  refine exists_congr fun p => and_congr_right fun _ => ?_
  by_cases hidden : p.surface.iconified = true
  · simp [layer, Layer.Covers, ShownSurface.opaqueOutputRectPx, hidden]
  · by_cases blends : p.surface.blends = true
    · simp [layer, ShownSurface.opaqueOutputRectPx, blends]
    · simp [layer, Layer.Covers, ShownSurface.opaqueOutputRectPx, hidden, blends]

theorem visible_culls (cap : Nat) (damage : Rect) :
    Layer.Culls (layer o) damage fun (p : PaintedSurface β) above =>
      surfaceVisibleDamageRects o cap damage p.surface (above.map surface) where
  inside p above x y shown :=
    ((surfaceVisibleDamageRects_spec o cap damage p.surface (above.map surface)).2.1 x y shown).2
  enough p above x y damaged covered unhidden := by
    apply (surfaceVisibleDamageRects_spec o cap damage p.surface (above.map surface)).1 x y
    · obtain ⟨r, placed, inside⟩ := covered
      simp only [layer] at placed
      split at placed
      · cases placed
      · exact ⟨r, placed, inside⟩
    · exact damaged
    · intro t member r opaque_ hides
      exact unhidden ((hidden_iff o above x y).mpr ⟨t, member, r, opaque_, hides⟩)
  apart p above :=
    (surfaceVisibleDamageRects_spec o cap damage p.surface (above.map surface)).2.2

end PaintedSurface

/-- What occlusion leaves of a surface is enough, within what is damaged, and divides it, and the
picture is the one without occlusion. -/
theorem occlusion_exact {β : Type*} (o : Screen) :
    (∀ (cap : Nat) (damage : Rect) (s : ShownSurface) (above : List ShownSurface),
      (∀ x y, (∃ r ∈ s.outputRectPx o, r.Contains x y) → damage.Contains x y →
        (∀ t ∈ above, ∀ r ∈ t.opaqueOutputRectPx o, ¬r.Contains x y) →
          Rect.Covers (surfaceVisibleDamageRects o cap damage s above) x y) ∧
      (∀ x y, Rect.Covers (surfaceVisibleDamageRects o cap damage s above) x y →
        (∃ r ∈ s.outputRectPx o, r.Contains x y) ∧ damage.Contains x y) ∧
      (surfaceVisibleDamageRects o cap damage s above).Pairwise Rect.Apart) ∧
    ∀ (plan : List Rect) (mapped : List (PaintedSurface β)) (canvas : Int → Int → β),
      PaintedSurface.recompositeNow o plan mapped canvas =
        PaintedSurface.recompositeUnculled o plan mapped canvas := by
  refine ⟨surfaceVisibleDamageRects_spec o, ?_⟩
  intro plan mapped canvas
  unfold PaintedSurface.recompositeNow PaintedSurface.recompositeUnculled
  congr 1
  funext canvas damage
  rw [PaintedSurface.compositeAll_eq, PaintedSurface.compositeAll_eq]
  exact Layer.paintAll_culled (PaintedSurface.visible_culls o maxVisibleRects damage) mapped canvas

def coveredWindow : ShownSurface where
  currentBuffer := some (.shm true)
  size := ⟨4, 4, by decide⟩
def coveringWindow : ShownSurface where
  currentBuffer := some (.shm false)
  size := ⟨2, 2, by decide⟩
  dx := 1
  dy := 1

theorem occlusion_exact_corner :
    Rect.Covers (surfaceVisibleDamageRects ⟨⟨8, 8, 1⟩, false⟩ maxVisibleRects ⟨0, 0, 8, 8⟩
      coveredWindow [coveringWindow]) 0 0 :=
  ((occlusion_exact (β := Unit) ⟨⟨8, 8, 1⟩, false⟩).1 maxVisibleRects ⟨0, 0, 8, 8⟩ coveredWindow
    [coveringWindow]).1 0 0 (by decide) (by decide) (by decide)

end Xios
