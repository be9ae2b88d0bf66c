import Mathlib.Data.Rat.Defs
import Mathlib.Algebra.Order.Field.Rat
import Mathlib.Algebra.Order.Group.Abs

/-! How the framebuffer is mapped to the glass, and the zoom and pan of `FitTransform.swift`. -/

namespace Xios

/-- A point, with exact coordinates. -/
structure CGPoint where
  x : Rat
  y : Rat
  deriving DecidableEq

/-- A width and a height. -/
structure CGSize where
  width : Rat
  height : Rat
  deriving DecidableEq

/-- A rectangle, whose size may be negative. -/
structure CGRect where
  origin : CGPoint
  size : CGSize
  deriving DecidableEq

def CGPoint.zero : CGPoint :=
  ⟨0, 0⟩

namespace CGRect

def width (r : CGRect) : Rat :=
  |r.size.width|

def height (r : CGRect) : Rat :=
  |r.size.height|

def minX (r : CGRect) : Rat :=
  min r.origin.x (r.origin.x + r.size.width)

def minY (r : CGRect) : Rat :=
  min r.origin.y (r.origin.y + r.size.height)

def maxX (r : CGRect) : Rat :=
  max r.origin.x (r.origin.x + r.size.width)

def maxY (r : CGRect) : Rat :=
  max r.origin.y (r.origin.y + r.size.height)

def midX (r : CGRect) : Rat :=
  r.origin.x + r.size.width / 2

def midY (r : CGRect) : Rat :=
  r.origin.y + r.size.height / 2

def contains (r : CGRect) (p : CGPoint) : Bool :=
  decide (r.minX ≤ p.x ∧ p.x < r.maxX ∧ r.minY ≤ p.y ∧ p.y < r.maxY)

end CGRect

/-- The mapping from the framebuffer to the view. -/
structure FitTransform where
  -- The framebuffer, in pixels.
  fbWidth : Int
  fbHeight : Int
  -- The view and the layer it is drawn on.
  viewBounds : CGRect
  drawableSize : CGSize
  contentsScale : Rat
  -- Points for a pixel.
  scale : Rat
  -- What the framebuffer takes up of the view.
  contentRect : CGRect
  deriving DecidableEq

namespace FitTransform

/-- Fit the framebuffer into the view, then zoom and pan it. -/
def make (fbWidth fbHeight : Int) (viewBounds : CGRect) (drawableSize : CGSize)
    (contentsScale zoom : Rat) (pan : CGPoint) : Option FitTransform :=
  if 0 < fbWidth ∧ 0 < fbHeight ∧ 0 < viewBounds.width ∧ 0 < viewBounds.height ∧
      0 < drawableSize.width ∧ 0 < drawableSize.height ∧ 0 < contentsScale then
    let baseScale := min (viewBounds.width / fbWidth) (viewBounds.height / fbHeight)
    let scale := baseScale * zoom
    let size : CGSize := ⟨fbWidth * scale, fbHeight * scale⟩
    let origin : CGPoint :=
      ⟨viewBounds.midX - size.width / 2 + pan.x, viewBounds.midY - size.height / 2 + pan.y⟩
    some { fbWidth, fbHeight, viewBounds, drawableSize, contentsScale, scale
           contentRect := ⟨origin, size⟩ }
  else none

def framebufferPoint (t : FitTransform) (point : CGPoint) : Option CGPoint :=
  let r := t.contentRect
  if r.contains point = true ∧ 0 < r.width ∧ 0 < r.height then
    let fx := (point.x - r.minX) / r.width * t.fbWidth
    let fy := (point.y - r.minY) / r.height * t.fbHeight
    some ⟨max 0 (min (t.fbWidth - 1 : Int) fx), max 0 (min (t.fbHeight - 1 : Int) fy)⟩
  else none

def viewRect (t : FitTransform) (r : CGRect) : CGRect :=
  ⟨⟨t.contentRect.minX + r.minX * t.scale, t.contentRect.minY + r.minY * t.scale⟩,
    ⟨r.width * t.scale, r.height * t.scale⟩⟩

end FitTransform

def minZoom : Rat := 1

def maxZoom : Rat := 6

/-- The view and what it shows. -/
structure ViewGeometry where
  -- The framebuffer, in pixels.
  fbWidth : Int
  fbHeight : Int
  -- The view and the layer it is drawn on.
  bounds : CGRect
  drawableSize : CGSize
  contentsScale : Rat
  deriving DecidableEq

/-- The zoom and pan of the desktop. -/
structure ViewportState where
  zoom : Rat := 1
  pan : CGPoint := .zero
  deriving DecidableEq

namespace ViewportState

def fit (g : ViewGeometry) (zoom : Rat) (pan : CGPoint) : Option FitTransform :=
  FitTransform.make g.fbWidth g.fbHeight g.bounds g.drawableSize g.contentsScale zoom pan

def transform (s : ViewportState) (g : ViewGeometry) : Option FitTransform :=
  fit g s.zoom s.pan

def clampedPan (p : CGPoint) (z : Rat) (g : ViewGeometry) : CGPoint :=
  match fit g z .zero with
  | none => .zero
  | some t =>
    let maxX := max 0 ((t.contentRect.width - g.bounds.width) / 2)
    let maxY := max 0 ((t.contentRect.height - g.bounds.height) / 2)
    ⟨min (max p.x (-maxX)) maxX, min (max p.y (-maxY)) maxY⟩

def clampedZoom (z : Rat) : Rat :=
  min (max z minZoom) maxZoom

def anchorPoint (anchor : Option CGPoint) (g : ViewGeometry) : CGPoint :=
  anchor.getD ⟨g.bounds.midX, g.bounds.midY⟩

def nextPan (old : FitTransform) (z : Rat) (anchor : Option CGPoint) (g : ViewGeometry) : CGPoint :=
  let oldRect := old.contentRect
  let a := anchorPoint anchor g
  let ux := if 0 < oldRect.width then (a.x - oldRect.minX) / oldRect.width else 1 / 2
  let uy := if 0 < oldRect.height then (a.y - oldRect.minY) / oldRect.height else 1 / 2
  let nextSize := ((fit g (clampedZoom z) .zero).map (·.contentRect.size)).getD oldRect.size
  ⟨a.x - g.bounds.midX + nextSize.width * (1 / 2 - ux),
    a.y - g.bounds.midY + nextSize.height * (1 / 2 - uy)⟩

def setZoom (s : ViewportState) (z : Rat) (anchor : Option CGPoint) (g : ViewGeometry) :
    ViewportState :=
  match s.transform g with
  | none => s
  | some old =>
    { zoom := clampedZoom z
      pan := clampedPan (nextPan old z anchor g) (clampedZoom z) g }

end ViewportState

end Xios
