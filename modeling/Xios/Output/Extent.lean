import Xios.Lib.Rect
import Xios.Lib.Signed
import Xios.Windows.Geometry
import Xios.Windows.Stack
import Mathlib.Data.Rat.Floor

/-! What a surface takes up on the output: drawing, damage and the pointer each work it out. -/

namespace Xios

/-- A source rectangle that a viewport has accepted, in 256ths of a unit. -/
structure ViewportSource where
  x : Int
  y : Int
  w : Int
  h : Int
  -- It starts within the first quadrant, is not empty, and each number fits into 32 bits.
  origin : 0 ≤ x ∧ x ≤ 2147483647 ∧ 0 ≤ y ∧ y ≤ 2147483647
  extent : 0 < w ∧ w ≤ 2147483647 ∧ 0 < h ∧ h ≤ 2147483647
  deriving DecidableEq

/-- What a client has set of its viewport. -/
structure Viewport where
  -- The part of the buffer that is shown, if it is not all of it.
  source : Option ViewportSource := none
  -- The size it is shown at, if one is set.
  destination : Option (Int × Int) := none
  deriving DecidableEq

/-- What a buffer holds, as far as the compositor looks at it. -/
inductive BufferKind where
  -- Shared memory, with or without an alpha channel.
  | shm (argb : Bool)
  -- A surface of the GPU, or a single pixel.
  | other
  deriving DecidableEq, Repr

/-- The size of a buffer in pixels. -/
structure BufferSize where
  -- Its columns and rows.
  width : Int
  height : Int
  -- Neither is negative, and each fits into 32 bits.
  fits : 0 ≤ width ∧ width ≤ 2147483647 ∧ 0 ≤ height ∧ height ≤ 2147483647
  deriving DecidableEq

theorem one_fits : (1 : Int) ≤ 2147483647 := by decide

theorem two_fits : (2 : Int) ≤ 2147483647 := by decide

/--
A surface, as far as its place and its contents on the output go.

Its position and geometry are `int` in the code, and whole numbers here: sums of them are taken to
fit.
-/
structure ShownSurface where
  role : SurfaceRole := .toplevel
  -- The buffer shown, and its size.
  currentBuffer : Option BufferKind := none
  size : BufferSize := ⟨0, 0, by decide⟩
  -- Pixels of the buffer for a unit, which count as one if they are not positive.
  bufferScale : Int := 1
  scaleFits : bufferScale ≤ 2147483647 := by first | exact one_fits | decide
  viewport : Option Viewport := none
  -- The position of the buffer's origin.
  dx : Int := 0
  dy : Int := 0
  -- A window that fills the output, or one that is not shown.
  toplevelFullscreen : Bool := false
  toplevelMinimized : Bool := false
  -- The rectangle of the window within its buffer, if the client has declared one.
  geometry : Option Area := none
  -- It shows a window of an X client, without an alpha channel.
  isXwayland : Bool := false
  xwaylandOpaque : Bool := false
  -- The bounds of what the client has declared opaque, if it has declared anything.
  opaqueRegion : Option Rect := none

/-- The output with the mode the compositor runs in. -/
structure Screen extends Output where
  -- Every window has a canvas of its own.
  nativeMode : Bool := false
  deriving DecidableEq

def Output.outputScale (o : Output) : Int :=
  if 0 < o.scale then o.scale else 1

theorem Output.outputScale_pos (o : Output) : 0 < o.outputScale := by
  unfold outputScale
  split <;> omega

def viewportToBufferPx (v scale lim : Int) : Option Int := do
  let wide ← Signed.int64 (lim * 256)
  if wide.tdiv scale < v then some lim
  else
    let product ← Signed.int64 (v * scale)
    let rounded ← Signed.int64 (product + 128)
    let px := rounded.tdiv 256
    some (if px < lim then px else lim)

namespace ShownSurface

def scale (s : ShownSurface) : Int :=
  if 0 < s.bufferScale then s.bufferScale else 1

theorem scale_pos (s : ShownSurface) : 0 < s.scale := by
  unfold scale
  split <;> omega

def source (s : ShownSurface) : Option ViewportSource :=
  s.viewport.bind Viewport.source

def destination (s : ShownSurface) : Option (Int × Int) :=
  s.viewport.bind Viewport.destination

/-- `surface_display_size` -/
def displaySize (s : ShownSurface) : Int × Int :=
  match s.destination, s.source with
  | some size, _ => size
  | none, some src => (wlFixedToInt src.w, wlFixedToInt src.h)
  | none, none =>
    (bufferToLogical s.size.width s.scale, bufferToLogical s.size.height s.scale)

def surfaceGeometry (s : ShownSurface) : Area :=
  match s.geometry with
  | some g => if 0 < g.w ∧ 0 < g.h then g else ⟨0, 0, s.displaySize.1, s.displaySize.2⟩
  | none => ⟨0, 0, s.displaySize.1, s.displaySize.2⟩

/-- Put the surface at another place. -/
def place (s : ShownSurface) (x y : Int) : ShownSurface :=
  { s with dx := x, dy := y }

@[simp] theorem place_dx (s : ShownSurface) (x y : Int) : (s.place x y).dx = x := rfl
@[simp] theorem place_dy (s : ShownSurface) (x y : Int) : (s.place x y).dy = y := rfl

@[simp] theorem place_surfaceGeometry (s : ShownSurface) (x y : Int) :
    (s.place x y).surfaceGeometry = s.surfaceGeometry := rfl

/-- `surface_fills_output` -/
def fillsOutput (o : Screen) (s : ShownSurface) : Bool :=
  !o.nativeMode && s.role = .toplevel && s.toplevelFullscreen

/-- `surface_output_size` -/
def outputSize (o : Screen) (s : ShownSurface) : Int × Int :=
  if s.fillsOutput o then (o.logicalWidth, o.logicalHeight) else s.displaySize

/-- The edges of a viewport's source in pixels of the buffer, as `surface_source_rect` has them
before it clips them. -/
def sourceEdges (s : ShownSurface) : Option Area :=
  match s.source with
  | none => some ⟨0, 0, s.size.width, s.size.height⟩
  | some src => do
    let x0 ← viewportToBufferPx src.x s.scale s.size.width
    let y0 ← viewportToBufferPx src.y s.scale s.size.height
    let x1 ← viewportToBufferPx (← Signed.int64 (src.x + src.w)) s.scale s.size.width
    let y1 ← viewportToBufferPx (← Signed.int64 (src.y + src.h)) s.scale s.size.height
    let w ← Signed.int64 (x1 - x0)
    let h ← Signed.int64 (y1 - y0)
    some ⟨← Signed.int32 x0, ← Signed.int32 y0, ← Signed.int32 w, ← Signed.int32 h⟩

def sourceRect (s : ShownSurface) : Option Area := do
  let r ← s.sourceEdges
  let x := if r.x < 0 then 0 else r.x
  let y := if r.y < 0 then 0 else r.y
  let right ← Signed.int32 (x + r.w)
  let w ← if s.size.width < right then Signed.int32 (s.size.width - x) else some r.w
  let bottom ← Signed.int32 (y + r.h)
  let h ← if s.size.height < bottom then Signed.int32 (s.size.height - y) else some r.h
  some ⟨x, y, w, h⟩

def surfaceRect (o : Screen) (s : ShownSurface) : Option Rect :=
  let (w, h) := s.outputSize o
  if s.currentBuffer = none ∨ w ≤ 0 ∨ h ≤ 0 then none
  else some ⟨s.dx, s.dy, s.dx + w, s.dy + h⟩

/-- `surface_output_rect_px` -/
def outputRectPx (o : Screen) (s : ShownSurface) : Option Rect := do
  let r ← s.surfaceRect o
  let px : Rect := ⟨r.x0 * o.outputScale, r.y0 * o.outputScale, r.x1 * o.outputScale,
    r.y1 * o.outputScale⟩
  if px.x0 < px.x1 ∧ px.y0 < px.y1 then some px else none

/-- A window that is iconified is neither drawn, nor does it hide anything or get the pointer. -/
def iconified (s : ShownSurface) : Bool :=
  s.role = .toplevel && s.toplevelMinimized

def drawnRect (o : Screen) (s : ShownSurface) : Option Rect := do
  let (dw, dh) := s.displaySize
  let src ← s.sourceRect
  if s.currentBuffer = none ∨ dw ≤ 0 ∨ dh ≤ 0 ∨ src.w ≤ 0 ∨ src.h ≤ 0 then none
  else if s.fillsOutput o then some ⟨0, 0, o.width, o.height⟩
  else
    some ⟨s.dx * o.outputScale, s.dy * o.outputScale, s.dx * o.outputScale + dw * o.outputScale,
      s.dy * o.outputScale + dh * o.outputScale⟩

def hit (o : Screen) (s : ShownSurface) (x y : Int) : Bool :=
  let (w, h) := s.outputSize o
  s.dx ≤ x && x < s.dx + w && s.dy ≤ y && y < s.dy + h

def surfaceAt (o : Screen) (lock : Option (Option ShownSurface)) (inScope : ShownSurface → Bool)
    (mapped : List ShownSurface) (x y : Int) : Option ShownSurface :=
  match lock with
  -- While the session is locked, only the lock surface gets input, if it shows something.
  | some surface => surface.filter fun s => s.currentBuffer.isSome
  | none =>
    mapped.reverse.find? fun s =>
      (!o.nativeMode || inScope s) && !s.iconified && s.hit o x y

end ShownSurface

def roundHalfEven (v : ℚ) : Int :=
  let rest := v - ⌊v⌋
  if rest < 1 / 2 then ⌊v⌋
  else if 1 / 2 < rest then ⌊v⌋ + 1
  else if ⌊v⌋ % 2 = 0 then ⌊v⌋ else ⌊v⌋ + 1

/-- `wl_fixed_from_double`, which exists for numbers that fit into 24 bits before the point -/
def wlFixedFromDouble (v : ℚ) : Option Int :=
  Signed.int32 (roundHalfEven (v * 256))

namespace ShownSurface

def localAxis (fills : Bool) (v origin display output : Int) : ℚ :=
  if fills = true ∧ 0 < output ∧ 0 < display then (v - origin) * display / output else v - origin

/-- `surface_local_coords` -/
def localCoords (o : Screen) (s : ShownSurface) (x y : Int) : Option (Int × Int) := do
  let sx ← wlFixedFromDouble
    (localAxis (s.fillsOutput o) x s.dx s.displaySize.1 o.logicalWidth)
  let sy ← wlFixedFromDouble
    (localAxis (s.fillsOutput o) y s.dy s.displaySize.2 o.logicalHeight)
  some (sx, sy)

end ShownSurface

end Xios
