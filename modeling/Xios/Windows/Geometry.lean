import Mathlib.Data.BitVec

/-! Where windows, panels and popups are put: output, work area, anchors and positioners. -/

namespace Xios

/-- A position on the output. -/
structure Point where
  x : Int := 0
  y : Int := 0
  deriving DecidableEq, Repr

/-- A rectangle given by its origin and size. -/
structure Area where
  -- First column.
  x : Int := 0
  -- First row.
  y : Int := 0
  w : Int := 0
  h : Int := 0
  deriving DecidableEq, Repr

/-- Keep a value between two bounds, of which the lower one is looked at first. -/
def clampi (v lo hi : Int) : Int :=
  if v < lo then lo else if hi < v then hi else v

def wlFixedToInt (f : Int) : Int :=
  f.tdiv 256

def bufferToLogical (px scale : Int) : Int :=
  let s := if 0 < scale then scale else 1
  (px + s - 1).tdiv s

/-- The output in pixels, and its scale. -/
structure Output where
  width : Int
  height : Int
  -- Pixels for a unit.
  scale : Int
  deriving DecidableEq

/-- `output_logical_width` -/
def Output.logicalWidth (o : Output) : Int :=
  bufferToLogical o.width o.scale

/-- `output_logical_height` -/
def Output.logicalHeight (o : Output) : Int :=
  bufferToLogical o.height o.scale

/-- What a client asks for the place of a panel. -/
structure LayerGeometry where
  -- Edges to stay at, one bit for each.
  anchor : BitVec 32 := 0
  -- Space to reserve.
  exclZone : Int := 0
  -- Distances to the edges.
  marginT : Int := 0
  marginR : Int := 0
  marginB : Int := 0
  marginL : Int := 0
  -- Size, where zero leaves it to the compositor.
  reqW : Int := 0
  reqH : Int := 0
  deriving DecidableEq

namespace LayerGeometry

def staysAt (l : LayerGeometry) (edge : BitVec 32) : Bool :=
  l.anchor &&& edge ≠ 0

def top (l : LayerGeometry) : Bool := l.staysAt 1
def bottom (l : LayerGeometry) : Bool := l.staysAt 2
def left (l : LayerGeometry) : Bool := l.staysAt 4
def right (l : LayerGeometry) : Bool := l.staysAt 8

/-- `layer_axis_position` -/
def axisPosition (output size : Int) (startAnchor endAnchor : Bool)
    (startMargin endMargin : Int) : Int :=
  if startAnchor && !endAnchor then startMargin
  else if endAnchor && !startAnchor then output - size - endMargin
  else (output - size).tdiv 2

/-- `layer_compute` -/
def compute (l : LayerGeometry) (o : Output) : Area :=
  let ow := o.logicalWidth
  let oh := o.logicalHeight
  let w :=
    if 0 < l.reqW then l.reqW else if l.left && l.right then ow - l.marginL - l.marginR else ow
  let h :=
    if 0 < l.reqH then l.reqH else if l.top && l.bottom then oh - l.marginT - l.marginB else oh
  let w := if w < 1 then ow else w
  let h := if h < 1 then oh else h
  { x := axisPosition ow w l.left l.right l.marginL l.marginR
    y := axisPosition oh h l.top l.bottom l.marginT l.marginB
    w
    h }

end LayerGeometry

/-- Space that panels reserve at the edges of the output. -/
structure Reserved where
  -- At each edge.
  top : Int := 0
  bottom : Int := 0
  left : Int := 0
  right : Int := 0
  deriving DecidableEq

/-- The loop body of `work_area_recompute` -/
def Reserved.add (r : Reserved) (l : LayerGeometry) : Reserved :=
  if l.exclZone ≤ 0 then r
  else if l.top && !l.bottom then { r with top := r.top + l.exclZone }
  else if l.bottom && !l.top then { r with bottom := r.bottom + l.exclZone }
  else if l.left && !l.right then { r with left := r.left + l.exclZone }
  else if l.right && !l.left then { r with right := r.right + l.exclZone }
  else r

def Reserved.workArea (r : Reserved) (o : Output) : Area :=
  let w := o.logicalWidth - r.left - r.right
  let h := o.logicalHeight - r.top - r.bottom
  { x := if w < 1 then 0 else r.left
    y := if h < 1 then 0 else r.top
    w := if w < 1 then o.logicalWidth else w
    h := if h < 1 then o.logicalHeight else h }

/-- What a client asks for the place of a popup. -/
structure Positioner where
  sizeW : Int := 0
  sizeH : Int := 0
  -- The rectangle of the parent to stay at.
  anchor : Area := {}
  -- Its edge, and the direction of the popup from there.
  edge : BitVec 32 := 0
  gravity : BitVec 32 := 0
  -- What may be done where the popup does not fit, one bit for each.
  constraint : BitVec 32 := 0
  -- A distance from that place.
  offX : Int := 0
  offY : Int := 0
  deriving DecidableEq

namespace Positioner

def isLeft (edge : BitVec 32) : Bool := edge = 3 || edge = 5 || edge = 6
def isRight (edge : BitVec 32) : Bool := edge = 4 || edge = 7 || edge = 8
def isTop (edge : BitVec 32) : Bool := edge = 1 || edge = 5 || edge = 7
def isBottom (edge : BitVec 32) : Bool := edge = 2 || edge = 6 || edge = 8

def hasX (edge : BitVec 32) : Bool :=
  edge = 3 || edge = 4 || edge = 5 || edge = 6 || edge = 7 || edge = 8
def hasY (edge : BitVec 32) : Bool :=
  edge = 1 || edge = 2 || edge = 5 || edge = 7 || edge = 6 || edge = 8

def flipEdges (edges a b : BitVec 32) : BitVec 32 :=
  let out := edges &&& ~~~(a ||| b)
  let out := if edges &&& a ≠ 0 then out ||| b else out
  if edges &&& b ≠ 0 then out ||| a else out

/-- `popup_calc_position` -/
def calcPosition (p : Positioner) (edge gravity : BitVec 32) : Point :=
  let ax := p.anchor.x +
    (if isRight edge then p.anchor.w else if isLeft edge then 0 else p.anchor.w.tdiv 2)
  let ay := p.anchor.y +
    (if isBottom edge then p.anchor.h else if isTop edge then 0 else p.anchor.h.tdiv 2)
  let x := ax + p.offX
  let y := ay + p.offY
  { x :=
      if isLeft gravity then x - p.sizeW
      else if !isRight gravity && !hasX gravity then x - p.sizeW.tdiv 2
      else x
    y :=
      if isTop gravity then y - p.sizeH
      else if !isBottom gravity && !hasY gravity then y - p.sizeH.tdiv 2
      else y }

/-- `popup_fits` -/
def fits (p : Positioner) (o : Output) (corner : Point) : Bool :=
  0 ≤ corner.x && 0 ≤ corner.y && corner.x + p.sizeW ≤ o.logicalWidth &&
    corner.y + p.sizeH ≤ o.logicalHeight

/-- Try the other side if the popup does not fit and may be flipped. -/
def flip (p : Positioner) (o : Output) (origin : Point) (bit a b : BitVec 32) (place : Point) :
    Point :=
  if !p.fits o place && p.constraint &&& bit ≠ 0 then
    let other := p.calcPosition (flipEdges p.edge a b) (flipEdges p.gravity a b)
    let moved : Point := { x := origin.x + other.x, y := origin.y + other.y }
    if p.fits o moved then moved else place
  else place

/-- The place `popup_place` finds for a popup, from the origin of its parent's geometry. -/
def place (p : Positioner) (o : Output) (origin : Point) : Point :=
  let first := p.calcPosition p.edge p.gravity
  let here : Point := { x := origin.x + first.x, y := origin.y + first.y }
  let here := p.flip o origin 4 3 4 here
  let here := p.flip o origin 8 1 2 here
  let maxX := if o.logicalWidth - p.sizeW < 0 then 0 else o.logicalWidth - p.sizeW
  let maxY := if o.logicalHeight - p.sizeH < 0 then 0 else o.logicalHeight - p.sizeH
  { x := if p.constraint &&& 1 ≠ 0 then clampi here.x 0 maxX else here.x
    y := if p.constraint &&& 2 ≠ 0 then clampi here.y 0 maxY else here.y }

end Positioner

end Xios
