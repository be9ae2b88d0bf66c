import Mathlib.Data.List.FinRange
import Mathlib.Logic.Function.Basic
import Xios.Lib.Banded
import Xios.Lib.Machine

/-! The windows of `iosc.c`: their roles, the grabs of popups, and the list of mapped surfaces. -/

namespace Xios

def maxSurfaces : Nat := 64

abbrev maxPopupGrab : Nat := 16

/-- What a surface is used for. -/
inductive SurfaceRole where
  -- No use yet, or no longer any.
  | none
  | toplevel
  -- A menu or a tooltip.
  | popup
  -- Part of another surface.
  | subsurface
  -- A panel or a wallpaper of the layer shell.
  | layer
  -- The screen shown while the session is locked.
  | lock
  deriving DecidableEq, Repr

/-- The layer-shell state of a surface. -/
structure LayerState where
  -- The layer the client asked for, which need not be a known one.
  layer : BitVec 32
  -- A size has been sent to the client.
  configured : Bool := false
  deriving DecidableEq

def LayerState.configure (l : LayerState) : LayerState :=
  { l with configured := true }

/-- The surface has to be configured again before it is mapped again. -/
def LayerState.forget (l : LayerState) : LayerState :=
  { l with configured := false }

/-- What a surface has as a subsurface. -/
structure SubsurfaceState where
  -- Commits wait for the parent's.
  sync : Bool := true
  -- A commit is waiting.
  cachePending : Bool := false
  deriving DecidableEq

def SubsurfaceState.cache (ss : SubsurfaceState) (pending : Bool) : SubsurfaceState :=
  { ss with cachePending := pending }

/-- A surface, as far as it matters to the stack. -/
structure Surface where
  -- Its current use.
  role : SurfaceRole := .none
  mapped : Bool := false
  layer : Option LayerState := none
  -- The surface it belongs to.
  parent : Option Nat := none
  currentBuffer : Bool := false
  -- A buffer is attached for the next commit.
  pendingBuffer : Bool := false
  -- The next commit replaces the buffer, by none if none is attached.
  bufferAttached : Bool := false
  -- It shows a window of an X client.
  isXwayland : Bool := false
  xdgToplevel : Bool := false
  xdgPopup : Bool := false
  subsurface : Option SubsurfaceState := none
  deriving DecidableEq

def Surface.band (x : Surface) : Nat :=
  match x.role, x.layer with
  | .layer, some l =>
    match l.layer.toNat with
    | 0 => 0
    | 1 => 1
    | 2 => 3
    | 3 => 4
    | _ => 2
  | _, _ => 2

def Surface.mappable (x : Surface) : Bool :=
  match x.role with
  | .toplevel | .popup | .subsurface => true
  | .layer => x.layer.any LayerState.configured
  | _ => false

def Surface.hide (x : Surface) : Surface :=
  { x with
    mapped := false
    layer := if x.role = .layer then x.layer.map LayerState.forget else x.layer }

/-- What the compositor cannot decide about a commit, for each surface it may apply to. -/
structure CommitInput where
  -- The X window that is associated by this commit, and whether it manages itself.
  adopt : Nat → Option Bool := fun _ => none
  -- The viewport fits the buffer.
  valid : Nat → Bool := fun _ => true

/-- The surfaces of the compositor and how they are stacked. -/
structure WindowStack where
  -- Every surface by its address, blank where there is none.
  surface : Nat → Surface := fun _ => {}
  -- The existing surfaces, newest first.
  surfaces : List Nat := []
  -- The mapped surfaces from bottom to top.
  mapped : List Nat := []
  -- Popups that hold a grab, from the first to the topmost.
  grab : Fin maxPopupGrab → Option Nat := fun _ => none
  grabCount : Int := 0
  -- The surface shown while the session is locked.
  lockSurface : Option Nat := none

namespace WindowStack

def modify (st : WindowStack) (s : Nat) (f : Surface → Surface) : WindowStack :=
  { st with surface := Function.update st.surface s (f (st.surface s)) }

def surfaceBand (st : WindowStack) (s : Nat) : Nat :=
  (st.surface s).band

def surfaceMap (st : WindowStack) (s : Nat) : WindowStack :=
  if (st.surface s).mapped = true ∨ maxSurfaces ≤ st.mapped.length then st
  else
    { st with mapped := Banded.insert st.surfaceBand s st.mapped }.modify s
      fun x => { x with mapped := true }

def surfaceHide (st : WindowStack) (s : Nat) : WindowStack :=
  { st with mapped := st.mapped.erase s }.modify s Surface.hide

/-- Hide a surface, after telling the grabs about a popup. -/
def unmapWith (gone : WindowStack → Nat → WindowStack) (st : WindowStack) (s : Nat) :
    WindowStack :=
  let st := if st.lockSurface = some s then { st with lockSurface := none } else st
  if (st.surface s).mapped then
    (if (st.surface s).role = .popup then gone st s else st).surfaceHide s
  else st

def takeGrab (st : WindowStack) (i : Fin maxPopupGrab) : Option Nat × WindowStack :=
  (st.grab i, { st with grab := Function.update st.grab i none })

def dismiss (unmap : WindowStack → Nat → WindowStack) (st : WindowStack) :
    Option Nat → WindowStack
  | some p => if (st.surface p).xdgPopup then unmap st p else st
  | none => st

def popGrab (unmap : WindowStack → Nat → WindowStack) (st : WindowStack) (i : Fin maxPopupGrab) :
    WindowStack :=
  let (p, st) := st.takeGrab i
  dismiss unmap { st with grabCount := st.grabCount - 1 } p

def grabsAbove (st : WindowStack) (bottom : Int) : List (Fin maxPopupGrab) :=
  ((List.finRange maxPopupGrab).filter fun i : Fin maxPopupGrab =>
    bottom < (i.val : Int) ∧ (i.val : Int) < st.grabCount).reverse

/-- Drop the grab of a popup that goes away, and dismiss the popups above it first. -/
def grabGone (unmap : WindowStack → Nat → WindowStack) (st : WindowStack) (s : Nat) :
    WindowStack :=
  match (List.finRange maxPopupGrab).find? fun i : Fin maxPopupGrab =>
      (i.val : Int) < st.grabCount ∧ st.grab i = some s with
  | none => st
  | some index =>
    let st := (st.grabsAbove index.val).foldl (popGrab unmap) st
    let st := (st.takeGrab index).2
    { st with grabCount := st.grabCount - 1 }

/-- Hide a surface while at most the given number of grabs is active. -/
def unmapNested : Nat → WindowStack → Nat → WindowStack
  -- Without grabs there is nothing to tell.
  | 0 => unmapWith fun st _ => st
  | grabs + 1 => unmapWith (grabGone (unmapNested grabs))

def surfaceUnmap (st : WindowStack) (s : Nat) : WindowStack :=
  unmapNested st.grabCount.toNat st s

def popupGrabOnSurfaceGone (st : WindowStack) (s : Nat) : WindowStack :=
  grabGone surfaceUnmap st s

def popupGrabDismissAll (st : WindowStack) : WindowStack :=
  if st.grabCount = 0 then st
  else
    let st := (st.grabsAbove (-1)).foldl
      (fun st i => dismiss surfaceUnmap (st.takeGrab i).2 (st.takeGrab i).1) st
    { st with grabCount := 0 }

def popupGrabParentOk (st : WindowStack) (s : Nat) : Bool :=
  match (st.surface s).parent with
  | none => false
  | some p =>
    match (st.surface p).role with
    | .toplevel | .layer => st.grabCount = 0
    | .popup =>
      (List.finRange maxPopupGrab).any fun i : Fin maxPopupGrab =>
        (i.val : Int) = st.grabCount - 1 ∧ st.grab i = some p
    | _ => false

def popupGrab (st : WindowStack) (s : Nat) : WindowStack :=
  if (st.surface s).role ≠ .popup ∨ st.popupGrabParentOk s = false ∨
      (maxPopupGrab : Int) ≤ st.grabCount then st
  else
    { st with
      grab := fun i => if (i.val : Int) = st.grabCount then some s else st.grab i
      grabCount := st.grabCount + 1 }

def surfaceRaiseOne (st : WindowStack) (s : Nat) : WindowStack :=
  { st with mapped := Banded.raise st.surfaceBand s st.mapped }

def surfaceLowerOne (st : WindowStack) (s : Nat) : WindowStack :=
  { st with mapped := Banded.lower st.surfaceBand s st.mapped }

def children (st : WindowStack) (s : Nat) : List Nat :=
  (st.mapped.filter fun c =>
    c ≠ s ∧ (st.surface c).role = .toplevel ∧ (st.surface c).parent = some s).take maxSurfaces

def surfaceRaiseChildren : Nat → WindowStack → Nat → WindowStack
  | 0, st, s => st.surfaceRaiseOne s
  | depth + 1, st, s =>
    let st := st.surfaceRaiseOne s
    (st.children s).foldl (surfaceRaiseChildren depth) st

def surfaceRaise (st : WindowStack) (s : Nat) : WindowStack :=
  surfaceRaiseChildren maxSurfaces st s

def xwmAdoptSurface (st : WindowStack) (s : Nat) (overrideRedirect : Bool) : WindowStack :=
  if (st.surface s).role ≠ .none ∧ (st.surface s).isXwayland = false then st
  else
    let st := st.modify s fun x =>
      { x with isXwayland := true, role := if overrideRedirect then .popup else .toplevel }
    if (st.surface s).mapped = false ∧ (st.surface s).currentBuffer = true then st.surfaceMap s
    else st

def xwmUnadoptSurface (st : WindowStack) (s : Nat) : WindowStack :=
  if (st.surface s).isXwayland then
    (st.surfaceUnmap s).modify s fun x => { x with isXwayland := false, role := .none }
  else st

/-- The layer shell answers the first commit of a surface by a size. -/
def layerCommit (st : WindowStack) (s : Nat) : WindowStack :=
  if (st.surface s).role = .layer ∧ (st.surface s).bufferAttached = false ∧
      (st.surface s).layer.any fun l => !l.configured then
    st.modify s fun x => { x with layer := x.layer.map LayerState.configure }
  else st

/-- A commit replaces the buffer if one was attached, and maps or unmaps the surface. -/
def bufferCommit (st : WindowStack) (s : Nat) : WindowStack :=
  if (st.surface s).bufferAttached then
    let buffer := (st.surface s).pendingBuffer
    let st := st.modify s fun x =>
      { x with pendingBuffer := false, bufferAttached := false, currentBuffer := buffer }
    if buffer then
      if (st.surface s).mapped = false ∧ (st.surface s).mappable = true then st.surfaceMap s
      else st
    else st.surfaceUnmap s
  else st

def waits (st : WindowStack) (s c : Nat) : Bool :=
  (st.surface c).role = .subsurface ∧ (st.surface c).parent = some s ∧
    (st.surface c).subsurface.any fun ss => ss.sync && ss.cachePending

def release (st : WindowStack) (c : Nat) : WindowStack :=
  st.modify c fun x => { x with subsurface := x.subsurface.map (SubsurfaceState.cache · false) }

def commitWith (apply : WindowStack → Nat → WindowStack) (input : CommitInput)
    (st : WindowStack) (s : Nat) : WindowStack :=
  let st := match input.adopt s with
    | some overrideRedirect => st.xwmAdoptSurface s overrideRedirect
    | none => st
  let st := (st.layerCommit s).bufferCommit s
  -- A viewport that does not fit disconnects the client.
  if input.valid s then
    st.surfaces.foldl (fun st c => if st.waits s c then apply (st.release c) c else st) st
  else st

/-- Apply a commit while at most the given number of commits waits. -/
def commitNested (input : CommitInput) : Nat → WindowStack → Nat → WindowStack
  | 0 => commitWith (fun st _ => st) input
  | waiting + 1 => commitWith (commitNested input waiting) input

def waiting (st : WindowStack) : Nat :=
  st.surfaces.countP fun c => (st.surface c).subsurface.any SubsurfaceState.cachePending

def surfaceCommitApply (input : CommitInput) (st : WindowStack) (s : Nat) : WindowStack :=
  commitNested input st.waiting st s

def surfaceCommit (st : WindowStack) (s : Nat) (input : CommitInput) : WindowStack :=
  if (st.surface s).role = .subsurface ∧ (st.surface s).subsurface.any SubsurfaceState.sync then
    st.modify s fun x => { x with subsurface := x.subsurface.map (SubsurfaceState.cache · true) }
  else st.surfaceCommitApply input s

end WindowStack

end Xios
