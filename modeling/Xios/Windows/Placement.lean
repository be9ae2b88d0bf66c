import Xios.Windows.Geometry
import Xios.Windows.Keeps

/-! The positions of surfaces, which every surface stores for itself, and who sets them. -/

namespace Xios

/--
What a surface stores about its place.

Positions and sizes are `int` in the code, and whole numbers here: sums of them are taken to fit.
-/
structure Spot where
  -- Its position on the output.
  dx : Int := 0
  dy : Int := 0
  -- Its position on its parent.
  relX : Int := 0
  relY : Int := 0
  -- The size of its buffer, and how many of its pixels are a unit.
  sw : Int := 0
  sh : Int := 0
  bufferScale : Int := 1
  -- The size its viewport sets, if any.
  viewport : Option (Int × Int) := none
  -- The part of it that counts as the window, if it says.
  geometry : Option Area := none
  -- The state of a window.
  maximized : Bool := false
  fullscreen : Bool := false
  -- The positioner of a popup, once it has one.
  positioner : Option Positioner := none
  -- What a panel asks for.
  layer : LayerGeometry := {}
  deriving DecidableEq

namespace Spot

/-- Where the surface is. -/
def place (x : Spot) : Point :=
  ⟨x.dx, x.dy⟩

def moveTo (x : Spot) (p : Point) : Spot :=
  { x with dx := p.x, dy := p.y }

/-- `surface_display_size` -/
def displaySize (x : Spot) : Int × Int :=
  match x.viewport with
  | some size => size
  | none => (bufferToLogical x.sw x.bufferScale, bufferToLogical x.sh x.bufferScale)

def surfaceGeometry (x : Spot) : Area :=
  let whole : Area := { w := x.displaySize.1, h := x.displaySize.2 }
  match x.geometry with
  | some g => if 0 < g.w ∧ 0 < g.h then g else whole
  | none => whole

end Spot

/-- A window being moved or resized by the pointer. -/
structure Interactive where
  surface : Nat
  -- It is resized, not moved, at some of its edges.
  resize : Bool
  edges : BitVec 32
  -- Where the pointer was at the start.
  px : Int
  py : Int
  -- Where the window was, and the size of its geometry.
  dx : Int
  dy : Int
  w : Int
  h : Int
  deriving DecidableEq

/-- The windows with where they are shown. -/
structure Placement where
  stack : WindowStack := {}
  -- The place of each.
  spot : Nat → Spot := fun _ => {}
  -- The output and what panels reserve of it.
  output : Output
  reserved : Reserved := {}
  -- The window being moved or resized.
  interactive : Option Interactive := none
  -- Windows have canvases of their own.
  nativeMode : Bool := false
  -- Windows begin as fullscreen ones.
  fullscreenToplevels : Bool := false

/-- What a client has asked for with a commit, besides the buffer. -/
structure PlacementInput where
  -- The size of the buffer attached.
  size : Int × Int := (0, 0)
  scale : Option Int := none
  -- A new geometry of the window.
  geometry : Option Area := none

namespace Placement

def modify (d : Placement) (s : Nat) (f : Spot → Spot) : Placement :=
  { d with spot := Function.update d.spot s (f (d.spot s)) }

/-- Where a surface is. -/
def place (d : Placement) (s : Nat) : Point :=
  (d.spot s).place

def moveTo (d : Placement) (s : Nat) (p : Point) : Placement :=
  d.modify s (·.moveTo p)

def childPlace (d : Placement) (s p : Nat) : Point :=
  ⟨(d.spot p).dx + (d.spot s).relX, (d.spot p).dy + (d.spot s).relY⟩

def surfacePlaceChild (d : Placement) (s : Nat) : Placement :=
  match (d.stack.surface s).parent with
  | none => d
  | some p => d.moveTo s (d.childPlace s p)

def workArea (d : Placement) : Area :=
  d.reserved.workArea d.output

def workAreaRecompute (d : Placement) : Placement :=
  { d with
    reserved := d.stack.mapped.foldl (fun r s =>
      if (d.stack.surface s).role = .layer ∧ (d.stack.surface s).layer.isSome then
        r.add (d.spot s).layer
      else r) {} }

def isLayer (d : Placement) (s : Nat) : Bool :=
  (d.stack.surface s).role = .layer && (d.stack.surface s).layer.isSome

def mapPlace (d : Placement) (s : Nat) : Point :=
  let x := d.stack.surface s
  let g := (d.spot s).surfaceGeometry
  let area := d.workArea
  if d.isLayer s then
    let a := (d.spot s).layer.compute d.output
    ⟨a.x, a.y⟩
  else if x.role = .toplevel ∧ (d.spot s).fullscreen = true then ⟨-g.x, -g.y⟩
  else if x.role = .toplevel ∧ (d.spot s).maximized = true then ⟨area.x - g.x, area.y - g.y⟩
  else
    match x.parent with
    | some p =>
      if x.role = .toplevel ∧ (d.stack.surface p).mapped = true then
        -- A dialog is centred on its window, within the work area.
        let (pw, ph) := (d.spot p).displaySize
        let (sw, sh) := (d.spot s).displaySize
        let dx := (d.spot p).dx + (pw - sw).tdiv 2
        let dy := (d.spot p).dy + (ph - sh).tdiv 2
        let dx := if dx < area.x then area.x else dx
        let dy := if dy < area.y then area.y else dy
        ⟨if sw < area.w ∧ area.x + area.w < dx + sw then area.x + area.w - sw else dx,
          if sh < area.h ∧ area.y + area.h < dy + sh then area.y + area.h - sh else dy⟩
      else d.childPlace s p
    | none =>
      let n : Int := (d.stack.mapped.filter fun o => (d.stack.surface o).role = .toplevel).length
      ⟨area.x + 40 + n * 70, area.y + 40 + n * 70⟩

def surfaceMap (d : Placement) (s : Nat) : Placement :=
  if (d.stack.surface s).mapped = true ∨ maxSurfaces ≤ d.stack.mapped.length then d
  else
    let d := d.moveTo s (d.mapPlace s)
    let d := { d with stack := d.stack.surfaceMap s }
    if (d.stack.surface s).role = .layer then d.workAreaRecompute else d

def withStack (d : Placement) (stack : WindowStack) : Placement :=
  let d' := { d with stack }
  if d.stack.mapped.any fun s => d.isLayer s && !(stack.surface s).mapped then d'.workAreaRecompute
  else d'

/-- A window that goes away is no longer moved or resized. -/
def dropInteractive (d : Placement) (s : Nat) : Placement :=
  { d with interactive := d.interactive.filter fun i => i.surface ≠ s }

/-- The part of `surface_commit_apply` that takes over scale and geometry -/
def latch (d : Placement) (s : Nat) (input : PlacementInput) : Placement :=
  d.modify s fun x =>
    { x with
      geometry := input.geometry.or x.geometry
      bufferScale := input.scale.getD x.bufferScale }

/-- The part of `surface_commit_apply` about panels -/
def layerCommit (d : Placement) (s : Nat) : Placement :=
  let d' := { d with stack := d.stack.layerCommit s }
  if d.isLayer s ∧ (d.stack.surface s).layer.any LayerState.configured = true ∧
      (d.stack.surface s).mapped = true then
    let a := (d.spot s).layer.compute d.output
    (d'.moveTo s ⟨a.x, a.y⟩).workAreaRecompute
  else d'

def setBuffer (d : Placement) (s : Nat) (buffer : Bool) (size : Int × Int) : Placement :=
  { d with
    stack := d.stack.modify s fun x =>
      { x with pendingBuffer := false, bufferAttached := false, currentBuffer := buffer } }.modify s
    fun x => if buffer then { x with sw := size.1, sh := size.2 } else { x with sw := 0, sh := 0 }

def bufferCommit (d : Placement) (s : Nat) (input : PlacementInput) : Placement :=
  if (d.stack.surface s).bufferAttached then
    if (d.stack.surface s).pendingBuffer then
      let d := d.setBuffer s true input.size
      if (d.stack.surface s).mapped = false ∧ (d.stack.surface s).mappable = true then
        d.surfaceMap s
      else d
    else
      let d := d.setBuffer s false (0, 0)
      (d.withStack (d.stack.surfaceUnmap s)).dropInteractive s
  else d

/-- The part of `surface_commit_apply` about the surface itself -/
def applyOwn (d : Placement) (s : Nat) (input : PlacementInput) : Placement :=
  ((d.latch s input).layerCommit s).bufferCommit s input

def popupTarget (d : Placement) (p : Nat) (positioner : Positioner) : Point :=
  let g := (d.spot p).surfaceGeometry
  positioner.place d.output ⟨(d.spot p).dx + g.x, (d.spot p).dy + g.y⟩

def popupPlace (d : Placement) (s p : Nat) (positioner : Positioner) : Placement :=
  let a := d.popupTarget p positioner
  let d := d.modify s fun x =>
    { x with relX := a.x - (d.spot p).dx, relY := a.y - (d.spot p).dy }
  d.moveTo s (d.childPlace s p)

/-- The part of `iosc_xwm_adopt_surface` before the surface is mapped -/
def xwmTakeOver (d : Placement) (s : Nat) (overrideRedirect : Bool) (x y : Int) : Placement :=
  let d := { d with
    stack := d.stack.modify s fun x =>
      { x with isXwayland := true, role := if overrideRedirect then .popup else .toplevel } }
  if overrideRedirect then d.moveTo s ⟨x, y⟩ else d

/-- `iosc_xwm_adopt_surface` -/
def xwmAdoptSurface (d : Placement) (s : Nat) (overrideRedirect : Bool) (x y : Int) : Placement :=
  if (d.stack.surface s).role ≠ .none ∧ (d.stack.surface s).isXwayland = false then d
  else
    let d := d.xwmTakeOver s overrideRedirect x y
    if (d.stack.surface s).mapped = false ∧ (d.stack.surface s).currentBuffer = true then
      d.surfaceMap s
    else d

/-- `iosc_xwm_configure_surface` -/
def xwmConfigureSurface (d : Placement) (s : Nat) (x y : Int) : Placement :=
  if (d.stack.surface s).isXwayland = true ∧ (d.stack.surface s).role = .popup then
    d.moveTo s ⟨x, y⟩
  else d

/-- `xs_get_toplevel`, with `send_initial_configure` -/
def xsGetToplevel (d : Placement) (s : Nat) : Placement :=
  if d.stack.xsRoleTaken s then d
  else
    let d := { d with stack := d.stack.xsGetToplevel s }
    if d.fullscreenToplevels && !d.nativeMode then
      (d.modify s ({ · with fullscreen := true })).moveTo s ⟨0, 0⟩
    else d

/-- A surface is not made a popup. -/
def PopupRefused (d : Placement) (s : Nat) (parent : Option Nat) : Prop :=
  d.stack.xsRoleTaken s = true ∨
    parent.isSome = true ∧ d.stack.surfaceIsAncestorOf s maxSurfaces parent = true
  deriving Decidable

def xsGetPopup (d : Placement) (s : Nat) (parent : Option Nat) (positioner : Positioner) :
    Placement :=
  if d.PopupRefused s parent then d
  else
    let d := { d with stack := d.stack.xsGetPopup s parent }.modify s
      ({ · with positioner := some positioner })
    match parent with
    | some p => d.popupPlace s p positioner
    | none => d

def layerSurfaceGetPopup (d : Placement) (s popup : Nat) : Placement :=
  if (d.stack.surface popup).role ≠ .popup then d
  else
    let d := { d with stack := d.stack.layerSurfaceGetPopup s popup }
    match (d.spot popup).positioner with
    | some positioner => d.popupPlace popup s positioner
    | none => d

def popupReposition (d : Placement) (s : Nat) (positioner : Positioner) : Placement :=
  let d := d.modify s ({ · with positioner := some positioner })
  match (d.stack.surface s).parent with
  | some p => d.popupPlace s p positioner
  | none => d

def subsurfaceSetPosition (d : Placement) (s : Nat) (x y : Int) : Placement :=
  (d.modify s ({ · with relX := x, relY := y })).surfacePlaceChild s

/-- `layer_shell_get_layer_surface`, with the state of the panel in blank memory -/
def getLayerSurface (d : Placement) (s : Nat) (layer : BitVec 32) : Placement :=
  if (d.stack.surface s).role ≠ .none ∨ (d.stack.surface s).currentBuffer = true ∨
      (d.stack.surface s).pendingBuffer = true ∨ 3 < layer.toNat then d
  else { d with stack := d.stack.getLayerSurface s layer }.modify s ({ · with layer := {} })

/-- `layer_surface_set_size`, `layer_surface_set_anchor` and `layer_surface_set_margin` -/
def setLayerGeometry (d : Placement) (s : Nat) (l : LayerGeometry) : Placement :=
  d.modify s fun x => { x with layer := { l with exclZone := x.layer.exclZone } }

/-- `layer_surface_set_exclusive_zone` -/
def setExclusiveZone (d : Placement) (s : Nat) (zone : Int) : Placement :=
  let d := d.modify s fun x => { x with layer := { x.layer with exclZone := zone } }
  if (d.stack.surface s).mapped then d.workAreaRecompute else d

def slockGetLockSurface (d : Placement) (s : Nat) (granted : Bool) : Placement :=
  if granted = false ∨ (d.stack.surface s).role ≠ .none ∨ d.stack.lockSurface.isSome then d
  else { d with stack := d.stack.slockGetLockSurface s granted }.moveTo s ⟨0, 0⟩

def statePlace (d : Placement) (s : Nat) : Point :=
  let g := (d.spot s).surfaceGeometry
  let area := d.workArea
  if (d.spot s).fullscreen then ⟨-g.x, -g.y⟩
  else if (d.spot s).maximized then ⟨area.x - g.x, area.y - g.y⟩
  else d.place s

def toplevelReconfigureState (d : Placement) (s : Nat) : Placement :=
  d.moveTo s (d.statePlace s)

/-- `xt_set_maximized` and `xt_unset_maximized` -/
def setMaximized (d : Placement) (s : Nat) (on : Bool) : Placement :=
  (d.modify s ({ · with maximized := on })).toplevelReconfigureState s

/-- `xt_set_fullscreen` and `xt_unset_fullscreen` -/
def setFullscreen (d : Placement) (s : Nat) (on : Bool) : Placement :=
  (d.modify s ({ · with fullscreen := on })).toplevelReconfigureState s

/-- Where `output_reconfigure_px` puts a window. -/
def refitPlace (d : Placement) (s : Nat) : Point :=
  if (d.spot s).fullscreen || (d.spot s).maximized then d.statePlace s
  else
    let (w, h) := (d.spot s).displaySize
    let area := d.workArea
    let cw := if 0 < w ∧ w ≤ area.w then w else area.w
    let ch := if 0 < h ∧ h ≤ area.h then h else area.h
    ⟨clampi (d.spot s).dx area.x (area.x + area.w - cw),
      clampi (d.spot s).dy area.y (area.y + area.h - ch)⟩

def isShownWindow (d : Placement) (s : Nat) : Bool :=
  s ∈ d.stack.mapped ∧ (d.stack.surface s).role = .toplevel

/-- The loop of `output_reconfigure_px`, in which the place of a window depends on no other one -/
def refit (d : Placement) : Placement :=
  { d with
    spot := fun s => if d.isShownWindow s then (d.spot s).moveTo (d.refitPlace s) else d.spot s }

def outputReconfigurePx (d : Placement) (width height scale : Int) (granted : Bool) : Placement :=
  if width ≤ 0 ∨ height ≤ 0 ∨ granted = false then d
  else refit { d with output := { width, height, scale := if scale < 1 then 1 else scale } }

def interactiveBegin (d : Placement) (s : Nat) (resize : Bool) (edges : BitVec 32) (px py : Int) :
    Placement :=
  if (d.stack.surface s).xdgToplevel then
    let g := (d.spot s).surfaceGeometry
    { d with
      interactive := some
        { surface := s, resize, edges, px, py
          dx := (d.spot s).dx
          dy := (d.spot s).dy
          w := g.w
          h := g.h } }
  else d

def interactivePlace (d : Placement) (i : Interactive) (x y : Int) : Point :=
  let dx := x - i.px
  let dy := y - i.py
  let area := d.workArea
  let g := (d.spot i.surface).surfaceGeometry
  if !i.resize then
    let minX := area.x - g.x
    let minY := area.y - g.y
    let maxX := area.x + area.w - g.w - g.x
    let maxY := area.y + area.h - g.h - g.y
    ⟨clampi (i.dx + dx) minX (if maxX < minX then minX else maxX),
      clampi (i.dy + dy) minY (if maxY < minY then minY else maxY)⟩
  else
    let left := i.edges = 4 || i.edges = 5 || i.edges = 6
    let right := i.edges = 8 || i.edges = 9 || i.edges = 10
    let top := i.edges = 1 || i.edges = 5 || i.edges = 9
    let bottom := i.edges = 2 || i.edges = 6 || i.edges = 10
    let nx := if left then i.dx + dx else i.dx
    let ny := if top then i.dy + dy else i.dy
    let nw := if right then i.w + dx else if left then i.w - dx else i.w
    let nh := if bottom then i.h + dy else if top then i.h - dy else i.h
    let nw := clampi nw 80 area.w
    let nh := clampi nh 60 area.h
    ⟨clampi nx (area.x - g.x) (area.x + area.w - nw - g.x),
      clampi ny (area.y - g.y) (area.y + area.h - nh - g.y)⟩

def interactiveUpdate (d : Placement) (x y : Int) : Placement :=
  match d.interactive with
  | none => d
  | some i => d.moveTo i.surface (d.interactivePlace i x y)

/-- Handle what happens to windows without setting a position. -/
def window (d : Placement) (event : WindowStack.Event) : Placement :=
  let d' := d.withStack (d.stack.next event)
  match event with
  | .destroy s =>
    let d' := (d'.dropInteractive s).modify s fun _ => {}
    if (d.stack.surface s).layer.isSome then d'.workAreaRecompute else d'
  | .toplevelDestroyed s | .popupDestroyed s | .subsurfaceDestroyed s => d'.dropInteractive s
  | .layerDestroyed s => (d'.dropInteractive s).workAreaRecompute
  | .unadopt s => if (d.stack.surface s).isXwayland then d'.dropInteractive s else d'
  | .bufferDestroyed s => if (d.stack.surface s).mapped then d'.dropInteractive s else d'
  | _ => d'

/-- Note whether a commit of a subsurface waits for its parent's. -/
def cache (d : Placement) (s : Nat) (pending : Bool) : Placement :=
  { d with
    stack := d.stack.modify s fun x =>
      { x with subsurface := x.subsurface.map (SubsurfaceState.cache · pending) } }

/-- What a commit brings along for each surface it may apply to. -/
structure PlacedCommit extends CommitInput where
  -- Where an X window wants to be.
  adoptAt : Nat → Int × Int := fun _ => (0, 0)
  -- What the client has asked for.
  places : Nat → PlacementInput := fun _ => {}

/-- The part of `surface_commit_apply` before the children. -/
def commitOwn (input : PlacedCommit) (d : Placement) (s : Nat) : Placement :=
  let d := match input.adopt s with
    | some overrideRedirect =>
      d.xwmAdoptSurface s overrideRedirect (input.adoptAt s).1 (input.adoptAt s).2
    | none => d
  d.applyOwn s (input.places s)

def commitWith (apply : Placement → Nat → Placement) (input : PlacedCommit) (d : Placement)
    (s : Nat) : Placement :=
  let d := commitOwn input d s
  if input.valid s then
    d.stack.surfaces.foldl (fun d c => if d.stack.waits s c then apply (d.cache c false) c else d) d
  else d

/-- `surface_commit_apply`, while at most the given number of commits waits -/
def commitNested (input : PlacedCommit) : Nat → Placement → Nat → Placement
  | 0 => commitWith (fun d _ => d) input
  | waiting + 1 => commitWith (commitNested input waiting) input

def surfaceCommit (d : Placement) (s : Nat) (input : PlacedCommit) : Placement :=
  if (d.stack.surface s).role = .subsurface ∧
      (d.stack.surface s).subsurface.any SubsurfaceState.sync = true then d.cache s true
  else commitNested input d.stack.waiting d s

def subsurfaceSetDesync (d : Placement) (s : Nat) (input : PlacedCommit) : Placement :=
  let d : Placement := { d with
    stack := d.stack.modify s fun x => { x with
      subsurface := x.subsurface.map ({ · with sync := false }) } }
  if (d.stack.surface s).subsurface.any SubsurfaceState.cachePending then
    commitNested input (d.cache s false).stack.waiting (d.cache s false) s
  else d

/-- What can happen to the places of windows. -/
inductive Event where
  -- Something happens to windows that sets no position.
  | window (event : WindowStack.Event)
  -- An X window takes over a surface, or is moved.
  | adopt (s : Nat) (overrideRedirect : Bool) (x y : Int)
  | configure (s : Nat) (x y : Int)
  -- A commit waits, no longer waits, or is applied to one surface.
  | cache (s : Nat) (pending : Bool)
  | setDesync (s : Nat)
  | apply (s : Nat) (input : PlacementInput)
  -- A window object is created, and its state is changed.
  | getToplevel (s : Nat)
  | setMaximized (s : Nat) (on : Bool)
  | setFullscreen (s : Nat) (on : Bool)
  -- A popup object is created and used.
  | getPopup (s : Nat) (parent : Option Nat) (positioner : Positioner)
  | layerGetPopup (s popup : Nat)
  | reposition (s : Nat) (positioner : Positioner)
  -- A subsurface is moved.
  | setPosition (s : Nat) (x y : Int)
  -- A panel is created and changed.
  | getLayerSurface (s : Nat) (layer : BitVec 32)
  | setLayerGeometry (s : Nat) (l : LayerGeometry)
  | setExclusiveZone (s : Nat) (zone : Int)
  | getLockSurface (s : Nat) (granted : Bool)
  | setViewport (s : Nat) (size : Option (Int × Int))
  -- A window is moved or resized by the pointer.
  | interactiveBegin (s : Nat) (resize : Bool) (edges : BitVec 32) (px py : Int)
  | interactiveUpdate (x y : Int)
  | interactiveEnd
  -- The output is changed, if the host allows it.
  | outputReconfigure (width height scale : Int) (granted : Bool)

def next (d : Placement) : Event → Placement
  | .window event => d.window event
  | .adopt s overrideRedirect x y => d.xwmAdoptSurface s overrideRedirect x y
  | .configure s x y => d.xwmConfigureSurface s x y
  | .cache s pending => d.cache s pending
  | .setDesync s =>
    { d with
      stack := d.stack.modify s fun x =>
        { x with subsurface := x.subsurface.map ({ · with sync := false }) } }
  | .apply s input => d.applyOwn s input
  | .getToplevel s => d.xsGetToplevel s
  | .setMaximized s on => d.setMaximized s on
  | .setFullscreen s on => d.setFullscreen s on
  | .getPopup s parent positioner => d.xsGetPopup s parent positioner
  | .layerGetPopup s popup => d.layerSurfaceGetPopup s popup
  | .reposition s positioner => d.popupReposition s positioner
  | .setPosition s x y => d.subsurfaceSetPosition s x y
  | .getLayerSurface s layer => d.getLayerSurface s layer
  | .setLayerGeometry s l => d.setLayerGeometry s l
  | .setExclusiveZone s zone => d.setExclusiveZone s zone
  | .getLockSurface s granted => d.slockGetLockSurface s granted
  | .setViewport s size => d.modify s ({ · with viewport := size })
  | .interactiveBegin s resize edges px py => d.interactiveBegin s resize edges px py
  | .interactiveUpdate x y => d.interactiveUpdate x y
  | .interactiveEnd => { d with interactive := none }
  | .outputReconfigure width height scale granted =>
    d.outputReconfigurePx width height scale granted

/-- The handler of such an event sets no position. -/
def Silent : WindowStack.Event → Bool
  | .commit .. | .setDesync .. | .getToplevel .. | .getPopup .. | .getLayerSurface ..
  | .layerGetPopup .. | .getLockSurface .. | .adopt .. => false
  | _ => true

/-- Every object an event is about still exists. -/
def Allowed (d : Placement) : Event → Prop
  | .window event => Silent event = true ∧ d.stack.Allowed event
  | .adopt s _ _ _ | .configure s _ _ | .apply s _ | .getToplevel s | .getPopup s none _
  | .getLayerSurface s _ | .getLockSurface s _ | .setViewport s _ => s ∈ d.stack.surfaces
  | .getPopup s (some parent) _ => s ∈ d.stack.surfaces ∧ parent ∈ d.stack.surfaces
  | .cache s _ | .setDesync s | .setPosition s _ _ =>
    s ∈ d.stack.surfaces ∧ (d.stack.surface s).subsurface.isSome = true
  | .setMaximized s _ | .setFullscreen s _ =>
    s ∈ d.stack.surfaces ∧ (d.stack.surface s).role = .toplevel
  | .layerGetPopup s popup =>
    s ∈ d.stack.surfaces ∧ (d.stack.surface s).layer.isSome = true ∧ popup ∈ d.stack.surfaces ∧
      (d.stack.surface popup).xdgPopup = true
  | .reposition s _ => s ∈ d.stack.surfaces ∧ (d.stack.surface s).xdgPopup = true
  | .setLayerGeometry s _ | .setExclusiveZone s _ =>
    s ∈ d.stack.surfaces ∧ (d.stack.surface s).layer.isSome = true
  | .interactiveBegin s _ _ _ _ => s ∈ d.stack.surfaces ∧ (d.stack.surface s).xdgToplevel = true
  | .interactiveUpdate _ _ | .interactiveEnd | .outputReconfigure _ _ _ _ => True

instance decidableAllowed (d : Placement) (event : Event) : Decidable (d.Allowed event) := by
  unfold Allowed
  induction event using Event.casesOn with
  | window event => exact inferInstanceAs (Decidable (_ ∧ _))
  | getPopup s parent =>
    induction parent using Option.casesOn <;> infer_instance
  | _ => infer_instance

def machine : Machine Placement Event where
  start d := d.stack = {} ∧ (∀ s, d.spot s = {}) ∧ d.interactive = none
  enabled := Allowed
  next := next

end Placement

end Xios
