import Xios.Lib.Machine
import Xios.Output.Extent

/-! The size, scale and transform of the output, and the two ways in which they are changed. -/

namespace Xios

/-- The transform turns the output by a quarter, so that its sides change places. -/
def quarter (transform : BitVec 32) : Bool :=
  transform &&& 1 ≠ 0

/-- A mapped surface with what its client was last told. -/
structure DeskWindow where
  surface : ShownSurface
  -- The place of a panel whose client still has the object for it.
  layer : Option LayerGeometry := none
  maximized : Bool := false
  xdgToplevel : Bool := true
  -- The size its client was last told.
  configured : Option (Int × Int) := none

/-- The output together with what has to fit onto it. -/
structure Desk where
  screen : Screen
  -- Bytes for each row.
  stride : Int := 0
  transform : BitVec 32 := 0
  -- The size in units without a transform, from which rotations start.
  naturalLw : Int
  naturalLh : Int
  cursor : Point := {}
  -- Space that panels reserve.
  reserved : Reserved := {}
  mapped : List DeskWindow := []
  -- The compositor has been told to stop.
  terminated : Bool := false
  positive : 0 < screen.width ∧ 0 < screen.height ∧ 0 < screen.scale

/-- What the GPU and the allocator say to a size in pixels. -/
structure Answers where
  -- The longest side of a render target, if it is known.
  maxTarget : Int := 0
  -- Bytes for each row of the new surface, if it can be had.
  resize : Option Int
  -- The GPU has taken the new surface.
  rebound : Bool

namespace DeskWindow

/-- `toplevel_send_configure` -/
def sendConfigure (w : DeskWindow) (width height : Int) : DeskWindow :=
  if w.xdgToplevel then { w with configured := some (width, height) } else w

/-- `default_window_w` and `default_window_h`, from the output's size in units -/
def defaultWindow (length : Int) : Int :=
  if 1 < length - 80 then length - 80 else length

/-- `toplevel_reconfigure_state` -/
def reconfigureState (o : Output) (work : Area) (w : DeskWindow) : DeskWindow :=
  let g := w.surface.surfaceGeometry
  if w.surface.toplevelFullscreen then
    { w with surface := w.surface.place (-g.x) (-g.y) }.sendConfigure o.logicalWidth o.logicalHeight
  else if w.maximized then
    { w with surface := w.surface.place (work.x - g.x) (work.y - g.y) }.sendConfigure work.w work.h
  else w.sendConfigure (defaultWindow o.logicalWidth) (defaultWindow o.logicalHeight)

/-- The loop body of `output_reconfigure_px` for one mapped surface -/
def refit (o : Output) (work : Area) (w : DeskWindow) : DeskWindow :=
  match w.surface.role, w.layer with
  | .layer, some layer =>
    { w with configured := some ((layer.compute o).w, (layer.compute o).h) }
  | .toplevel, _ =>
    if w.surface.toplevelFullscreen || w.maximized then w.reconfigureState o work
    else
      let (width, height) := w.surface.displaySize
      let cw := if 0 < width ∧ width ≤ work.w then width else work.w
      let ch := if 0 < height ∧ height ≤ work.h then height else work.h
      let told := if work.w < width ∨ work.h < height then w.sendConfigure cw ch else w
      { told with
        surface := w.surface.place (clampi w.surface.dx work.x (work.x + work.w - cw))
          (clampi w.surface.dy work.y (work.y + work.h - ch)) }
  | _, _ => w

end DeskWindow

def atLeastOne (scale : Int) : Int :=
  if scale < 1 then 1 else scale

theorem atLeastOne_pos (scale : Int) : 0 < atLeastOne scale := by
  unfold atLeastOne
  split <;> omega

namespace Desk

def size (d : Desk) : Int × Int :=
  (d.screen.width, d.screen.height)

def setScale (d : Desk) (scale : Int) (positive : 0 < scale) : Desk :=
  { d with
    screen := { d.screen with scale }
    positive := ⟨d.positive.1, d.positive.2.1, positive⟩ }

def resize (d : Desk) (width height stride : Int) (positive : 0 < width ∧ 0 < height) : Desk :=
  { d with
    screen := { d.screen with width, height }
    stride
    positive := ⟨positive.1, positive.2, d.positive.2.2⟩ }

def terminate (d : Desk) : Desk :=
  { d with terminated := true }

/-- What `output_reconfigure_px` does once the output has its size and its scale -/
def settle (d : Desk) (transform : BitVec 32) : Desk :=
  let s := d.screen.scale
  let npw := if quarter transform then d.screen.height else d.screen.width
  let nph := if quarter transform then d.screen.width else d.screen.height
  let o := d.screen.toOutput
  { d with
    transform
    naturalLw := (npw + s - 1).tdiv s
    naturalLh := (nph + s - 1).tdiv s
    cursor := ⟨clampi d.cursor.x 0 (o.logicalWidth - 1), clampi d.cursor.y 0 (o.logicalHeight - 1)⟩
    mapped := d.mapped.map (DeskWindow.refit o (d.reserved.workArea o)) }

/-- `output_reconfigure_px` -/
def reconfigurePx (a : Answers) (d : Desk) (pw ph : Int) (transform : BitVec 32) (scale : Int) :
    Int × Desk :=
  if empty : pw ≤ 0 ∨ ph ≤ 0 then (-1, d)
  else if 0 < a.maxTarget ∧ (a.maxTarget < pw ∨ a.maxTarget < ph) then (-1, d)
  else
    let scale := atLeastOne scale
    let oldScale := d.screen.outputScale
    if scale = oldScale ∧ pw = d.screen.width ∧ ph = d.screen.height ∧ transform = d.transform then
      (1, d)
    else
      -- The scale is set before it is known whether the surface can be had.
      let scaled := d.setScale scale (atLeastOne_pos _)
      if pw ≠ d.screen.width ∨ ph ≠ d.screen.height then
        match a.resize with
        | none => (-1, scaled.setScale oldScale (Output.outputScale_pos _))
        | some stride =>
          let resized := scaled.resize pw ph stride (by omega)
          if a.rebound then (0, resized.settle transform) else (-1, resized.terminate)
      else (0, scaled.settle transform)

/-- `output_reconfigure` -/
def reconfigure (a : Answers) (d : Desk) (lw lh : Int) (transform : BitVec 32) : Desk :=
  if lw ≤ 0 ∨ lh ≤ 0 then d
  else
    let s := d.screen.outputScale
    if 2147483647 < lw * s ∨ 2147483647 < lh * s then d
    else (d.reconfigurePx a (lw * s) (lh * s) transform s).2

def inputOutput (a : Answers) (d : Desk) (x y : Int) (code : BitVec 32) : Desk :=
  let tr := code &&& 3
  let lw := if 0 < x then x else if quarter tr then d.naturalLh else d.naturalLw
  let lh := if 0 < y then y else if quarter tr then d.naturalLw else d.naturalLh
  d.reconfigure a lw lh tr

end Desk

/-- A device that is advertised to the clients of the output management. -/
structure KdeDevice where
  -- Its only mode, which is made anew when the output changes.
  mode : Option Nat
  modeGeneration : Nat

/-- What a client has asked for in one configuration. -/
structure KdeConfig where
  enable : Option Int := none
  -- A mode with the generation that was noted for it, zero for none.
  mode : Option (Nat × Nat) := none
  transform : Option (BitVec 32) := none
  scale : Option Int := none
  applied : Bool := false

/-- What a client is told about its configuration. -/
inductive KdeReply where
  | alreadyApplied
  | failed
  | applied
  deriving DecidableEq, Repr

def KdeConfig.modeKnown (devices : List KdeDevice) (cfg : KdeConfig) : Bool :=
  match cfg.mode with
  | none => true
  | some (mode, gen) =>
    devices.any fun dev => dev.mode = some mode && gen ≠ 0 && dev.modeGeneration = gen

def KdeConfig.newScale (cfg : KdeConfig) (current : Int) : Int :=
  match cfg.scale with
  | none => current
  | some scale =>
    let rs := (scale + 128).tdiv 256
    if rs < 1 then 1 else if 4 < rs then 4 else rs

def Desk.kdeConfigApply (a : Answers) (devices : List KdeDevice) (cfg : KdeConfig) (d : Desk) :
    KdeReply × KdeConfig × Desk :=
  if cfg.applied then (.alreadyApplied, cfg, d)
  else
    let used := { cfg with applied := true }
    if cfg.enable = some 0 then (.failed, used, d)
    else if !cfg.modeKnown devices then (.failed, used, d)
    else
      let scale := cfg.newScale d.screen.outputScale
      let transform := cfg.transform.getD d.transform
      let turns := quarter (transform ^^^ d.transform)
      let pw := if turns then d.screen.height else d.screen.width
      let ph := if turns then d.screen.width else d.screen.height
      let (rc, next) := d.reconfigurePx a pw ph transform scale
      (if rc < 0 then .failed else .applied, used, next)

/-- What changes the output: a client that manages it, or the device that is rotated. -/
inductive OutputRequest where
  | apply (a : Answers) (devices : List KdeDevice) (cfg : KdeConfig)
  -- The app tells the transform only, and leaves the size to the compositor.
  | rotate (a : Answers) (code : BitVec 32)

namespace Desk

def request (d : Desk) : OutputRequest → Desk
  | .apply a devices cfg => (d.kdeConfigApply a devices cfg).2.2
  | .rotate a code => d.inputOutput a 0 0 code

def naturalSize (d : Desk) : Int × Int :=
  if quarter d.transform then d.size.swap else d.size

/-- The natural size in units is what the natural size in pixels needs. -/
def InSync (d : Desk) : Prop :=
  d.naturalLw = bufferToLogical d.naturalSize.1 d.screen.scale ∧
    d.naturalLh = bufferToLogical d.naturalSize.2 d.screen.scale

def reconfigurations (origin : Desk) : Machine Desk OutputRequest where
  start d := d = origin ∧ origin.InSync
  -- A compositor that has stopped answers no more.
  enabled d _ := d.terminated = false
  next := request

instance (origin d : Desk) (event : OutputRequest) :
    Decidable ((reconfigurations origin).enabled d event) :=
  inferInstanceAs (Decidable (_ = _))

/-- The output has the pixels it began with, with its sides swapped exactly if it is turned. -/
def Steady (origin d : Desk) : Prop :=
  d.terminated = true ∨
    d.size =
      if quarter d.transform = quarter origin.transform then origin.size else origin.size.swap

def rotated (d : Desk) (code : BitVec 32) : Int × Int :=
  let s := d.screen.outputScale
  if quarter (code &&& 3) then (d.naturalLh * s, d.naturalLw * s)
  else (d.naturalLw * s, d.naturalLh * s)

/-- A size in pixels is not taken over: it is too large, or its surface cannot be had or used. -/
def TurnedDown (a : Answers) (size : Int × Int) : Prop :=
  2147483647 < size.1 ∨ 2147483647 < size.2 ∨
    (0 < a.maxTarget ∧ (a.maxTarget < size.1 ∨ a.maxTarget < size.2)) ∨
    a.resize = none ∨ a.rebound = false

/-- A rotation finds both sides divisible by the scale, unless the size it asks for is turned
down. -/
def Exact (d : Desk) : OutputRequest → Prop
  | .apply _ _ _ => True
  | .rotate a code =>
    (d.screen.width % d.screen.outputScale = 0 ∧ d.screen.height % d.screen.outputScale = 0) ∨
      TurnedDown a (d.rotated code)

end Desk

end Xios
