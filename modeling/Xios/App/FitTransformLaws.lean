import Xios.App.FitTransform
import Xios.Lib.PanZoom
import Mathlib.Tactic.Positivity

/-! Zooming keeps the content under its anchor, and the view and the framebuffer map to each other. -/

namespace Xios

/-- The rectangle is given by its upper left corner and has an inside. -/
structure CGRect.Upright (r : CGRect) : Prop where
  width : 0 < r.size.width
  height : 0 < r.size.height

namespace CGRect.Upright

variable {r : CGRect} (upright : r.Upright)

include upright

theorem width_eq : r.width = r.size.width :=
  abs_of_pos upright.width

theorem height_eq : r.height = r.size.height :=
  abs_of_pos upright.height

theorem sides_pos : 0 < r.width ∧ 0 < r.height :=
  ⟨upright.width_eq.symm ▸ upright.width, upright.height_eq.symm ▸ upright.height⟩

theorem minX_eq : r.minX = r.origin.x :=
  min_eq_left (by linarith [upright.width])

theorem minY_eq : r.minY = r.origin.y :=
  min_eq_left (by linarith [upright.height])

theorem maxX_eq : r.maxX = r.origin.x + r.size.width :=
  max_eq_right (by linarith [upright.width])

theorem maxY_eq : r.maxY = r.origin.y + r.size.height :=
  max_eq_right (by linarith [upright.height])

end CGRect.Upright

/-- There is something to show, and something to show it on. -/
structure ViewGeometry.Positive (g : ViewGeometry) : Prop where
  -- The framebuffer has pixels.
  fbWidth : 0 < g.fbWidth
  fbHeight : 0 < g.fbHeight
  -- So have the view and its layer.
  bounds : g.bounds.Upright
  drawable : 0 < g.drawableSize.width ∧ 0 < g.drawableSize.height
  contentsScale : 0 < g.contentsScale

namespace FitTransform

def pixelX (t : FitTransform) (point : CGPoint) : Rat :=
  (point.x - t.contentRect.minX) / t.contentRect.width * t.fbWidth

def pixelY (t : FitTransform) (point : CGPoint) : Rat :=
  (point.y - t.contentRect.minY) / t.contentRect.height * t.fbHeight

/-- The content covers a view that it is large enough for, and is in the middle of any other. -/
structure Settled (t : FitTransform) (view : CGRect) : Prop where
  wide : view.width ≤ t.contentRect.width →
    t.contentRect.minX ≤ view.minX ∧ view.maxX ≤ t.contentRect.maxX
  narrow : t.contentRect.width < view.width → t.contentRect.midX = view.midX
  tall : view.height ≤ t.contentRect.height →
    t.contentRect.minY ≤ view.minY ∧ view.maxY ≤ t.contentRect.maxY
  low : t.contentRect.height < view.height → t.contentRect.midY = view.midY

variable {fbWidth fbHeight : Int} {viewBounds : CGRect} {drawableSize : CGSize}
  {contentsScale zoom : Rat} {t : FitTransform}

theorem make_eq_some {pan : CGPoint}
    (made : make fbWidth fbHeight viewBounds drawableSize contentsScale zoom pan = some t) :
    0 < fbWidth ∧ 0 < fbHeight ∧ t.fbWidth = fbWidth ∧ t.fbHeight = fbHeight ∧
      t.contentRect.size = ⟨fbWidth * t.scale, fbHeight * t.scale⟩ ∧
      (0 < zoom → 0 < t.scale) := by
  unfold make at made
  split at made
  · rename_i positive
    obtain ⟨across, down, width, height, -⟩ := positive
    obtain rfl := Option.some.inj made
    refine ⟨across, down, rfl, rfl, rfl, fun zoomed => ?_⟩
    have across' : (0 : Rat) < fbWidth := by exact_mod_cast across
    have down' : (0 : Rat) < fbHeight := by exact_mod_cast down
    exact mul_pos (lt_min (div_pos width across') (div_pos height down')) zoomed
  · cases made

/-- The view place of a framebuffer point is mapped back to that point. -/
theorem framebufferPoint_viewRect {pan : CGPoint}
    (made : make fbWidth fbHeight viewBounds drawableSize contentsScale zoom pan = some t)
    (zoomed : 0 < zoom) {x y : Rat} (left : 0 ≤ x) (right : x ≤ fbWidth - 1) (top : 0 ≤ y)
    (bottom : y ≤ fbHeight - 1) :
    t.framebufferPoint (t.viewRect ⟨⟨x, y⟩, ⟨0, 0⟩⟩).origin = some ⟨x, y⟩ := by
  obtain ⟨across, down, width, height, size, positive⟩ := make_eq_some made
  have scaled := positive zoomed
  have across' : (0 : Rat) < fbWidth := by exact_mod_cast across
  have down' : (0 : Rat) < fbHeight := by exact_mod_cast down
  have wide : t.contentRect.size.width = fbWidth * t.scale := by rw [size]
  have high : t.contentRect.size.height = fbHeight * t.scale := by rw [size]
  have upright : t.contentRect.Upright :=
    ⟨by rw [wide]; exact mul_pos across' scaled, by rw [high]; exact mul_pos down' scaled⟩
  have place : (t.viewRect ⟨⟨x, y⟩, ⟨0, 0⟩⟩).origin =
      ⟨t.contentRect.origin.x + x * t.scale, t.contentRect.origin.y + y * t.scale⟩ := by
    rw [← upright.minX_eq, ← upright.minY_eq]
    show CGPoint.mk (_ + min x (x + 0) * _) (_ + min y (y + 0) * _) = _
    rw [add_zero, add_zero, min_self, min_self]
  -- The place is on the content, since no pixel reaches beyond its last column and row.
  have onContent : t.contentRect.contains
      ⟨t.contentRect.origin.x + x * t.scale, t.contentRect.origin.y + y * t.scale⟩ = true := by
    have before : x * t.scale < fbWidth * t.scale := mul_lt_mul_of_pos_right (by linarith) scaled
    have above : y * t.scale < fbHeight * t.scale := mul_lt_mul_of_pos_right (by linarith) scaled
    have after := mul_nonneg left scaled.le
    have below := mul_nonneg top scaled.le
    simp only [CGRect.contains, upright.minX_eq, upright.maxX_eq, upright.minY_eq,
      upright.maxY_eq, wide, high, decide_eq_true_eq]
    refine ⟨?_, ?_, ?_, ?_⟩ <;> linarith
  have column : PanZoom.share t.contentRect.origin.x (fbWidth * t.scale)
      (t.contentRect.origin.x + x * t.scale) * fbWidth = x := by
    have nonzero : t.scale ≠ 0 := scaled.ne'
    rw [PanZoom.share]
    field_simp
    ring
  have row : PanZoom.share t.contentRect.origin.y (fbHeight * t.scale)
      (t.contentRect.origin.y + y * t.scale) * fbHeight = y := by
    have nonzero : t.scale ≠ 0 := scaled.ne'
    rw [PanZoom.share]
    field_simp
    ring
  rw [place, framebufferPoint]
  simp only
  rw [if_pos ⟨onContent, by rw [upright.width_eq]; exact upright.width,
    by rw [upright.height_eq]; exact upright.height⟩, upright.width_eq, upright.height_eq,
    upright.minX_eq, upright.minY_eq, wide, high, width, height]
  simp only [PanZoom.share] at column row
  rw [column, row]
  push_cast
  rw [min_eq_right right, max_eq_right left, min_eq_right bottom, max_eq_right top]

end FitTransform

namespace ViewportState

variable {g : ViewGeometry} {z : Rat} {pan : CGPoint}

def contentSize (g : ViewGeometry) (z : Rat) : CGSize :=
  let scale := min (g.bounds.width / g.fbWidth) (g.bounds.height / g.fbHeight) * z
  ⟨g.fbWidth * scale, g.fbHeight * scale⟩

theorem contentSize_pos (positive : g.Positive) (zoomed : 0 < z) :
    0 < (contentSize g z).width ∧ 0 < (contentSize g z).height := by
  have across : (0 : Rat) < g.fbWidth := by exact_mod_cast positive.fbWidth
  have down : (0 : Rat) < g.fbHeight := by exact_mod_cast positive.fbHeight
  obtain ⟨width, height⟩ := positive.bounds.sides_pos
  have scaled := mul_pos (lt_min (div_pos width across) (div_pos height down)) zoomed
  exact ⟨mul_pos across scaled, mul_pos down scaled⟩

theorem fit_spec (positive : g.Positive) (z : Rat) (pan : CGPoint) :
    ∃ t, fit g z pan = some t ∧ t.fbWidth = g.fbWidth ∧ t.fbHeight = g.fbHeight ∧
      t.contentRect.size = contentSize g z ∧
      t.contentRect.origin.x = PanZoom.start g.bounds.midX (contentSize g z).width pan.x ∧
      t.contentRect.origin.y = PanZoom.start g.bounds.midY (contentSize g z).height pan.y := by
  obtain ⟨width, height⟩ := positive.bounds.sides_pos
  refine ⟨_, if_pos ⟨positive.fbWidth, positive.fbHeight, width, height, positive.drawable.1,
    positive.drawable.2, positive.contentsScale⟩, rfl, rfl, rfl, rfl, rfl⟩

theorem clampedPan_eq (positive : g.Positive) (zoomed : 0 < z) (p : CGPoint) :
    clampedPan p z g =
      ⟨PanZoom.clamp (PanZoom.limit g.bounds.size.width (contentSize g z).width) p.x,
        PanZoom.clamp (PanZoom.limit g.bounds.size.height (contentSize g z).height) p.y⟩ := by
  obtain ⟨t, fitted, -, -, size, -⟩ := fit_spec positive z .zero
  obtain ⟨wide, high⟩ := contentSize_pos positive zoomed
  have upright : t.contentRect.Upright := ⟨size ▸ wide, size ▸ high⟩
  simp only [clampedPan, fitted, upright.width_eq, upright.height_eq, positive.bounds.width_eq,
    positive.bounds.height_eq, size]
  rfl

theorem clampedPan_clampedPan (positive : g.Positive) (zoomed : 0 < z) (p : CGPoint) :
    clampedPan (clampedPan p z g) z g = clampedPan p z g := by
  rw [clampedPan_eq positive zoomed, clampedPan_eq positive zoomed]
  simp only [PanZoom.clamp_clamp (PanZoom.limit_nonneg _ _)]

theorem settled_of_clamped (positive : g.Positive) (zoomed : 0 < z) {t : FitTransform}
    (fitted : fit g z pan = some t) (clamped : clampedPan pan z g = pan) : t.Settled g.bounds := by
  obtain ⟨t', fitted', -, -, size, x, y⟩ := fit_spec positive z pan
  obtain rfl : t = t' := Option.some.inj (fitted.symm.trans fitted')
  obtain ⟨wide, high⟩ := contentSize_pos positive zoomed
  have upright : t.contentRect.Upright := ⟨size ▸ wide, size ▸ high⟩
  have width : t.contentRect.size.width = (contentSize g z).width := by rw [size]
  have height : t.contentRect.size.height = (contentSize g z).height := by rw [size]
  -- A clamped pan is within the limits of both axes.
  rw [clampedPan_eq positive zoomed] at clamped
  have across := PanZoom.clamp_within
    (PanZoom.limit_nonneg g.bounds.size.width (contentSize g z).width) pan.x
  have down := PanZoom.clamp_within
    (PanZoom.limit_nonneg g.bounds.size.height (contentSize g z).height) pan.y
  have panX : PanZoom.clamp (PanZoom.limit g.bounds.size.width (contentSize g z).width) pan.x =
      pan.x := congrArg CGPoint.x clamped
  have panY : PanZoom.clamp (PanZoom.limit g.bounds.size.height (contentSize g z).height) pan.y =
      pan.y := congrArg CGPoint.y clamped
  rw [panX] at across
  rw [panY] at down
  have midX : g.bounds.midX - g.bounds.size.width / 2 = g.bounds.origin.x ∧
      g.bounds.midX + g.bounds.size.width / 2 = g.bounds.origin.x + g.bounds.size.width := by
    unfold CGRect.midX
    constructor <;> ring
  have midY : g.bounds.midY - g.bounds.size.height / 2 = g.bounds.origin.y ∧
      g.bounds.midY + g.bounds.size.height / 2 = g.bounds.origin.y + g.bounds.size.height := by
    unfold CGRect.midY
    constructor <;> ring
  refine ⟨?_, ?_, ?_, ?_⟩
  · intro large
    rw [positive.bounds.width_eq, upright.width_eq, width] at large
    have covers := PanZoom.start_covers g.bounds.midX large across.1 across.2
    rw [midX.1, midX.2, ← x] at covers
    rw [upright.minX_eq, upright.maxX_eq, positive.bounds.minX_eq, positive.bounds.maxX_eq, width]
    exact covers
  · intro small
    rw [positive.bounds.width_eq, upright.width_eq, width] at small
    have centred := PanZoom.start_centred g.bounds.midX small across.1 across.2
    rwa [← x, ← width] at centred
  · intro large
    rw [positive.bounds.height_eq, upright.height_eq, height] at large
    have covers := PanZoom.start_covers g.bounds.midY large down.1 down.2
    rw [midY.1, midY.2, ← y] at covers
    rw [upright.minY_eq, upright.maxY_eq, positive.bounds.minY_eq, positive.bounds.maxY_eq, height]
    exact covers
  · intro small
    rw [positive.bounds.height_eq, upright.height_eq, height] at small
    have centred := PanZoom.start_centred g.bounds.midY small down.1 down.2
    rwa [← y, ← height] at centred

theorem clampedZoom_within (z : Rat) : minZoom ≤ clampedZoom z ∧ clampedZoom z ≤ maxZoom := by
  refine ⟨le_min (le_max_right _ _) (by decide), min_le_right _ _⟩

theorem pos_of_minZoom_le (least : minZoom ≤ z) : 0 < z :=
  lt_of_lt_of_le (by decide) least

/-- Without clamping, the pixel below the anchor does not move. -/
theorem pixel_nextPan (positive : g.Positive) {old new : FitTransform} {zoom : Rat}
    {anchor : Option CGPoint} (zoomed : 0 < zoom) (before : fit g zoom pan = some old)
    {pan' : CGPoint} (after : fit g (clampedZoom z) pan' = some new) :
    (pan'.x = (nextPan old z anchor g).x →
        new.pixelX (anchorPoint anchor g) = old.pixelX (anchorPoint anchor g)) ∧
      (pan'.y = (nextPan old z anchor g).y →
        new.pixelY (anchorPoint anchor g) = old.pixelY (anchorPoint anchor g)) := by
  have zoomed' := pos_of_minZoom_le (clampedZoom_within z).1
  obtain ⟨t, fitted, width, height, size, x, y⟩ := fit_spec positive zoom pan
  obtain rfl : old = t := Option.some.inj (before.symm.trans fitted)
  obtain ⟨t', fitted', width', height', size', x', y'⟩ := fit_spec positive (clampedZoom z) pan'
  obtain rfl : new = t' := Option.some.inj (after.symm.trans fitted')
  obtain ⟨wide, high⟩ := contentSize_pos positive zoomed
  obtain ⟨wide', high'⟩ := contentSize_pos positive zoomed'
  have upright : old.contentRect.Upright := ⟨size ▸ wide, size ▸ high⟩
  have upright' : new.contentRect.Upright := ⟨size' ▸ wide', size' ▸ high'⟩
  -- The pan asked for is the one after which the anchor has the same share of the content before it.
  obtain ⟨next, fits, -, -, nextSize, -⟩ := fit_spec positive (clampedZoom z) .zero
  have asked : nextPan old z anchor g =
      ⟨PanZoom.panTo g.bounds.midX (contentSize g (clampedZoom z)).width (anchorPoint anchor g).x
          (PanZoom.share old.contentRect.minX old.contentRect.width (anchorPoint anchor g).x),
        PanZoom.panTo g.bounds.midY (contentSize g (clampedZoom z)).height (anchorPoint anchor g).y
          (PanZoom.share old.contentRect.minY old.contentRect.height (anchorPoint anchor g).y)⟩ := by
    simp only [nextPan, fits, Option.map_some, Option.getD_some, nextSize]
    rw [if_pos (by rw [upright.width_eq]; exact upright.width),
      if_pos (by rw [upright.height_eq]; exact upright.height)]
    rfl
  constructor
  · intro same
    have share := PanZoom.share_panTo wide' g.bounds.midX (anchorPoint anchor g).x
      (PanZoom.share old.contentRect.minX old.contentRect.width (anchorPoint anchor g).x)
    rw [asked] at same
    simp only at same
    rw [← same, ← x'] at share
    simp only [FitTransform.pixelX, upright'.minX_eq, upright'.width_eq, size', width, width']
    rw [← PanZoom.share, share]
    rfl
  · intro same
    have share := PanZoom.share_panTo high' g.bounds.midY (anchorPoint anchor g).y
      (PanZoom.share old.contentRect.minY old.contentRect.height (anchorPoint anchor g).y)
    rw [asked] at same
    simp only at same
    rw [← same, ← y'] at share
    simp only [FitTransform.pixelY, upright'.minY_eq, upright'.height_eq, size', height, height']
    rw [← PanZoom.share, share]
    rfl

/--
Zooming keeps the content where it belongs.

Afterwards the zoom is the allowed one next to what was asked for, the pan is clamped, the content
covers the view on every axis on which it is large enough and is in the middle on the others, and
the pixel under the anchor is the same on every axis on which the pan that was asked for did not
have to be clamped.
Under the place of a pixel in the view lies this pixel.
-/
theorem zoom_anchored :
    (∀ (g : ViewGeometry) (s : ViewportState) (z : Rat) (anchor : Option CGPoint),
      g.Positive → minZoom ≤ s.zoom → s.zoom ≤ maxZoom → clampedPan s.pan s.zoom g = s.pan →
      ∃ old new, s.transform g = some old ∧ (s.setZoom z anchor g).transform g = some new ∧
        (s.setZoom z anchor g).zoom = clampedZoom z ∧
        minZoom ≤ (s.setZoom z anchor g).zoom ∧ (s.setZoom z anchor g).zoom ≤ maxZoom ∧
        clampedPan (s.setZoom z anchor g).pan (s.setZoom z anchor g).zoom g =
          (s.setZoom z anchor g).pan ∧
        new.Settled g.bounds ∧
        ((s.setZoom z anchor g).pan.x = (nextPan old z anchor g).x →
          new.pixelX (anchorPoint anchor g) = old.pixelX (anchorPoint anchor g)) ∧
        ((s.setZoom z anchor g).pan.y = (nextPan old z anchor g).y →
          new.pixelY (anchorPoint anchor g) = old.pixelY (anchorPoint anchor g))) ∧
      ∀ (fbWidth fbHeight : Int) (viewBounds : CGRect) (drawableSize : CGSize)
        (contentsScale zoom : Rat) (pan : CGPoint) (t : FitTransform),
        FitTransform.make fbWidth fbHeight viewBounds drawableSize contentsScale zoom pan = some t →
        0 < zoom → ∀ x y : Rat, 0 ≤ x → x ≤ fbWidth - 1 → 0 ≤ y → y ≤ fbHeight - 1 →
          t.framebufferPoint (t.viewRect ⟨⟨x, y⟩, ⟨0, 0⟩⟩).origin = some ⟨x, y⟩ := by
  refine ⟨?_, ?_⟩
  · intro g s z anchor positive least _ _
    have zoomed := pos_of_minZoom_le least
    have allowed := clampedZoom_within z
    have zoomed' := pos_of_minZoom_le allowed.1
    obtain ⟨old, before, -⟩ := fit_spec positive s.zoom s.pan
    have moved : s.setZoom z anchor g =
        { zoom := clampedZoom z, pan := clampedPan (nextPan old z anchor g) (clampedZoom z) g } := by
      simp only [setZoom, transform, before]
    rw [moved]
    have clamped := clampedPan_clampedPan positive zoomed' (nextPan old z anchor g)
    obtain ⟨new, after, -⟩ := fit_spec positive (clampedZoom z)
      (clampedPan (nextPan old z anchor g) (clampedZoom z) g)
    exact ⟨old, new, before, after, rfl, allowed.1, allowed.2, clamped,
      settled_of_clamped positive zoomed' after clamped,
      pixel_nextPan positive zoomed before after⟩
  · intro fbWidth fbHeight viewBounds drawableSize contentsScale zoom pan t made zoomed x y left
      right top bottom
    exact FitTransform.framebufferPoint_viewRect made zoomed left right top bottom

def tablet : ViewGeometry :=
  { fbWidth := 2360, fbHeight := 1640, bounds := ⟨⟨0, 0⟩, ⟨1180, 1000⟩⟩
    drawableSize := ⟨2360, 2000⟩, contentsScale := 2 }

theorem zoom_anchored_tablet :
    ∃ old new, ViewportState.transform {} tablet = some old ∧
      (ViewportState.setZoom {} 3 (some ⟨400, 500⟩) tablet).transform tablet = some new ∧
      new.pixelX ⟨400, 500⟩ = old.pixelX ⟨400, 500⟩ := by
  obtain ⟨old, new, before, after, -, -, -, -, -, anchored, -⟩ :=
    zoom_anchored.1 tablet {} 3 (some ⟨400, 500⟩)
      ⟨by decide, by decide, ⟨by decide, by decide⟩, by decide, by decide⟩ (by decide) (by decide)
      (by decide +kernel)
  refine ⟨old, new, before, after, anchored ?_⟩
  obtain rfl := Option.some.inj before
  decide +kernel

end ViewportState

end Xios
