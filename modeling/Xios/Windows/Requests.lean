import Xios.Windows.Stack

/-! The requests that create, use and destroy surfaces of `iosc.c`, and all their interleavings. -/

namespace Xios

namespace WindowStack

def compositorCreateSurface (st : WindowStack) (s : Nat) : WindowStack :=
  { st with surfaces := s :: st.surfaces }

def orphan (st : WindowStack) (s : Nat) : WindowStack :=
  { st with
    surface := fun o =>
      if o ∈ st.surfaces ∧ (st.surface o).parent = some s then { st.surface o with parent := none }
      else st.surface o }

def surfaceResourceDestroy (st : WindowStack) (s : Nat) : WindowStack :=
  let st := { st with surfaces := st.surfaces.erase s }.surfaceUnmap s
  let st := ((st.modify s fun x => { x with subsurface := none, layer := none }).orphan
    s).popupGrabOnSurfaceGone s
  st.modify s fun _ => {}

def surfaceAttach (st : WindowStack) (s : Nat) (buffer : Bool) : WindowStack :=
  st.modify s fun x => { x with pendingBuffer := buffer, bufferAttached := true }

def onBufferDestroyed (st : WindowStack) (s : Nat) : WindowStack :=
  let wasMapped := (st.surface s).mapped
  let st := st.modify s fun x => { x with currentBuffer := false }
  if wasMapped then st.surfaceUnmap s else st

def onPendingBufferDestroyed (st : WindowStack) (s : Nat) : WindowStack :=
  st.modify s fun x => { x with pendingBuffer := false }

def surfaceIsAncestorOf (st : WindowStack) (ancestor : Nat) : Nat → Option Nat → Bool
  | _, none => false
  | 0, some _ => false
  | depth + 1, some s =>
    s = ancestor || st.surfaceIsAncestorOf ancestor depth (st.surface s).parent

def xsRoleTaken (st : WindowStack) (s : Nat) : Bool :=
  (st.surface s).role ≠ .none ∨ (st.surface s).xdgToplevel = true ∨ (st.surface s).xdgPopup = true

def xsGetToplevel (st : WindowStack) (s : Nat) : WindowStack :=
  if st.xsRoleTaken s then st
  else st.modify s fun x => { x with role := .toplevel, xdgToplevel := true }

def toplevelResourceDestroy (st : WindowStack) (s : Nat) : WindowStack :=
  (st.surfaceUnmap s).modify s fun x => { x with xdgToplevel := false, role := .none }

def xtSetParent (st : WindowStack) (s : Nat) (parent : Option Nat) : WindowStack :=
  if parent.isSome ∧ st.surfaceIsAncestorOf s maxSurfaces parent then st
  else st.modify s fun x => { x with parent := parent }

def xsGetPopup (st : WindowStack) (s : Nat) (parent : Option Nat) : WindowStack :=
  if st.xsRoleTaken s then st
  else if parent.isSome ∧ st.surfaceIsAncestorOf s maxSurfaces parent then st
  else st.modify s fun x => { x with role := .popup, parent := parent, xdgPopup := true }

def popupResourceDestroy (st : WindowStack) (s : Nat) : WindowStack :=
  ((st.surfaceUnmap s).popupGrabOnSurfaceGone s).modify s fun x =>
    { x with xdgPopup := false, role := .none }

def getSubsurface (st : WindowStack) (s parent : Nat) : WindowStack :=
  if (st.surface s).role ≠ .none ∨ (st.surface s).subsurface.isSome then st
  else if s = parent ∨ st.surfaceIsAncestorOf s maxSurfaces (some parent) then st
  else
    st.modify s fun x =>
      { x with role := .subsurface, parent := some parent, subsurface := some {} }

def subsurfaceResourceDestroy (st : WindowStack) (s : Nat) : WindowStack :=
  (st.surfaceUnmap s).modify s fun x =>
    { x with subsurface := none, parent := none, role := .none }

def subsurfaceSetSync (st : WindowStack) (s : Nat) : WindowStack :=
  st.modify s fun x => { x with subsurface := x.subsurface.map ({ · with sync := true }) }

def subsurfaceSetDesync (st : WindowStack) (s : Nat) (input : CommitInput) : WindowStack :=
  let st := st.modify s fun x =>
    { x with subsurface := x.subsurface.map ({ · with sync := false }) }
  if (st.surface s).subsurface.any SubsurfaceState.cachePending then
    (st.release s).surfaceCommitApply input s
  else st

def getLayerSurface (st : WindowStack) (s : Nat) (layer : BitVec 32) : WindowStack :=
  if (st.surface s).role ≠ .none ∨ (st.surface s).currentBuffer = true ∨
      (st.surface s).pendingBuffer = true ∨ 3 < layer.toNat then st
  else st.modify s fun x => { x with role := .layer, layer := some { layer } }

def layerSurfaceSetLayer (st : WindowStack) (s : Nat) (layer : BitVec 32) : WindowStack :=
  st.modify s fun x => { x with layer := x.layer.map ({ · with layer }) }

def layerSurfaceGetPopup (st : WindowStack) (s popup : Nat) : WindowStack :=
  if (st.surface popup).role ≠ .popup then st
  else st.modify popup fun x => { x with parent := some s }

def layerSurfaceResDestroy (st : WindowStack) (s : Nat) : WindowStack :=
  if (st.surface s).layer.isNone then st
  else (st.surfaceUnmap s).modify s fun x => { x with layer := none, role := .none }

def slockGetLockSurface (st : WindowStack) (s : Nat) (granted : Bool) : WindowStack :=
  if granted = false ∨ (st.surface s).role ≠ .none ∨ st.lockSurface.isSome then st
  else { st with lockSurface := some s }.modify s fun x => { x with role := .lock }

def slockSurfaceResourceDestroy (st : WindowStack) (s : Nat) : WindowStack :=
  { st with lockSurface := none }.modify s fun x => { x with role := .none }

/-- What clients, their ends and the user do to the windows. -/
inductive Event where
  | create (s : Nat)
  | destroy (s : Nat)
  | attach (s : Nat) (buffer : Bool)
  | commit (s : Nat) (input : CommitInput)
  | bufferDestroyed (s : Nat)
  | pendingBufferDestroyed (s : Nat)
  -- A window object is created, used and destroyed.
  | getToplevel (s : Nat)
  | setParent (s : Nat) (parent : Option Nat)
  | toplevelDestroyed (s : Nat)
  -- A popup object is created, used and destroyed.
  | getPopup (s : Nat) (parent : Option Nat)
  | grab (s : Nat)
  | popupDestroyed (s : Nat)
  -- A subsurface object is created, used and destroyed.
  | getSubsurface (s parent : Nat)
  | placeAbove (s : Nat)
  | placeBelow (s : Nat)
  | setSync (s : Nat)
  | setDesync (s : Nat) (input : CommitInput)
  | subsurfaceDestroyed (s : Nat)
  -- A layer-shell object is created, used and destroyed.
  | getLayerSurface (s : Nat) (layer : BitVec 32)
  | setLayer (s : Nat) (layer : BitVec 32)
  | layerGetPopup (s popup : Nat)
  | layerDestroyed (s : Nat)
  -- A lock surface is created and destroyed.
  | getLockSurface (s : Nat) (granted : Bool)
  | lockSurfaceDestroyed (s : Nat)
  -- An X window takes over a surface or gives it up.
  | adopt (s : Nat) (overrideRedirect : Bool)
  | unadopt (s : Nat)
  -- A surface is pressed, activated, or picked from the task bar.
  | raise (s : Nat)
  -- There is a press outside of all popups that hold a grab.
  | pressOutside

def next (st : WindowStack) : Event → WindowStack
  | .create s => st.compositorCreateSurface s
  | .destroy s => st.surfaceResourceDestroy s
  | .attach s buffer => st.surfaceAttach s buffer
  | .commit s input => st.surfaceCommit s input
  | .bufferDestroyed s => st.onBufferDestroyed s
  | .pendingBufferDestroyed s => st.onPendingBufferDestroyed s
  | .getToplevel s => st.xsGetToplevel s
  | .setParent s parent => st.xtSetParent s parent
  | .toplevelDestroyed s => st.toplevelResourceDestroy s
  | .getPopup s parent => st.xsGetPopup s parent
  | .grab s => st.popupGrab s
  | .popupDestroyed s => st.popupResourceDestroy s
  | .getSubsurface s parent => st.getSubsurface s parent
  | .placeAbove s => st.surfaceRaise s
  | .placeBelow s => st.surfaceLowerOne s
  | .setSync s => st.subsurfaceSetSync s
  | .setDesync s input => st.subsurfaceSetDesync s input
  | .subsurfaceDestroyed s => st.subsurfaceResourceDestroy s
  | .getLayerSurface s layer => st.getLayerSurface s layer
  | .setLayer s layer => st.layerSurfaceSetLayer s layer
  | .layerGetPopup s popup => st.layerSurfaceGetPopup s popup
  | .layerDestroyed s => st.layerSurfaceResDestroy s
  | .getLockSurface s granted => st.slockGetLockSurface s granted
  | .lockSurfaceDestroyed s => st.slockSurfaceResourceDestroy s
  | .adopt s overrideRedirect => st.xwmAdoptSurface s overrideRedirect
  | .unadopt s => st.xwmUnadoptSurface s
  | .raise s => st.surfaceRaise s
  | .pressOutside => st.popupGrabDismissAll

/-- Every object an event is about still exists, and a new surface is where there is none. -/
def Allowed (st : WindowStack) : Event → Prop
  | .create s => s ∉ st.surfaces ∧ st.surface s = {}
  | .pressOutside => True
  | .destroy s | .attach s _ | .commit s _ | .getToplevel s | .getPopup s none
  | .getLayerSurface s _ | .getLockSurface s _ | .adopt s _ | .unadopt s | .raise s =>
    s ∈ st.surfaces
  | .bufferDestroyed s => s ∈ st.surfaces ∧ (st.surface s).currentBuffer = true
  | .pendingBufferDestroyed s => s ∈ st.surfaces ∧ (st.surface s).pendingBuffer = true
  | .getPopup s (some parent) | .getSubsurface s parent => s ∈ st.surfaces ∧ parent ∈ st.surfaces
  | .setParent s none | .toplevelDestroyed s => s ∈ st.surfaces ∧ (st.surface s).xdgToplevel = true
  | .setParent s (some parent) =>
    s ∈ st.surfaces ∧ (st.surface s).xdgToplevel = true ∧ parent ∈ st.surfaces
  | .grab s | .popupDestroyed s => s ∈ st.surfaces ∧ (st.surface s).xdgPopup = true
  | .placeAbove s | .placeBelow s | .setSync s | .setDesync s _ | .subsurfaceDestroyed s =>
    s ∈ st.surfaces ∧ (st.surface s).subsurface.isSome
  | .setLayer s _ | .layerDestroyed s => s ∈ st.surfaces ∧ (st.surface s).layer.isSome
  | .layerGetPopup s popup =>
    s ∈ st.surfaces ∧ (st.surface s).layer.isSome ∧ popup ∈ st.surfaces ∧
      (st.surface popup).xdgPopup = true
  | .lockSurfaceDestroyed s => st.lockSurface = some s

instance decidableAllowed (st : WindowStack) (event : Event) : Decidable (st.Allowed event) := by
  unfold Allowed
  induction event using Event.casesOn with
  | getPopup s parent | setParent s parent =>
    induction parent using Option.casesOn <;> infer_instance
  | _ => infer_instance

/-- All histories of the windows, from the start of the compositor on. -/
def machine : Machine WindowStack Event where
  start st := st = {}
  enabled := Allowed
  next := next

end WindowStack

end Xios
