import Xios.Windows.Requests

/-! Where the keyboard and the pointer are, with popups, drags and the session lock of `iosc.c`. -/

namespace Xios

def WindowStack.topGrab (st : WindowStack) : Option Nat :=
  if inside : 0 < st.grabCount ∧ st.grabCount ≤ maxPopupGrab then
    st.grab ⟨(st.grabCount - 1).toNat, by omega⟩
  else none

/-- The surfaces a drag was begun on and is shown by. -/
structure Drag where
  -- The surface it began on.
  origin : Nat
  -- The surface shown below the pointer.
  icon : Option Nat
  deriving DecidableEq

/-- The windows and what the keyboard and the pointer are on. -/
structure Seat where
  windows : WindowStack := {}
  -- The surface with the keyboard focus.
  kbdFocus : Option Nat := none
  -- The surface the pointer is over.
  ptrFocus : Option Nat := none
  -- The surface that had the keyboard before the first popup grabbed it.
  grabPrevFocus : Option Nat := none
  locked : Bool := false
  -- The object that holds the lock.
  lock : Option Nat := none
  -- The lock object that the last lock surface was created through.
  lockOrigin : Option Nat := none
  minimized : Nat → Bool := fun _ => false
  -- Panels that want the keyboard.
  interactive : Nat → Bool := fun _ => false
  drag : Option Drag := none
  -- The window that is being moved or resized.
  moving : Option Nat := none
  -- The popups that were told to go away, newest first.
  popupDone : List Nat := []

namespace Seat

def withWindows (d : Seat) (st : WindowStack) : Seat :=
  { d with windows := st }

abbrev surface (d : Seat) (s : Nat) : Surface :=
  d.windows.surface s

def focusable (d : Seat) (s : Nat) : Bool :=
  match (d.surface s).role with
  | .toplevel => !d.minimized s
  | .layer => (d.surface s).layer.isSome && d.interactive s
  | _ => false

def topmostFocusable (d : Seat) : Option Nat :=
  d.windows.mapped.reverse.find? d.focusable

def focusTarget (d : Seat) (s : Option Nat) : Option Nat :=
  -- While the session is locked, all keys belong to the lock surface.
  if d.locked = true ∧ s ≠ d.windows.lockSurface then d.windows.lockSurface
  -- A popup that holds a grab keeps the keyboard.
  else if 0 < d.windows.grabCount then d.windows.topGrab
  else s

def keyboardSetFocus (d : Seat) (s : Option Nat) : Seat :=
  { d with kbdFocus := d.focusTarget s }

/-- Show a surface, and give it the keyboard if it is a window, a popup or such a panel. -/
def surfaceMap (d : Seat) (s : Nat) : Seat :=
  if (d.surface s).mapped = true ∨ maxSurfaces ≤ d.windows.mapped.length then d
  else
    let shown := d.withWindows (d.windows.surfaceMap s)
    match (d.surface s).role with
    | .toplevel | .popup => shown.keyboardSetFocus (some s)
    | .layer =>
      if (d.surface s).layer.isSome && d.interactive s then shown.keyboardSetFocus (some s)
      else shown
    | _ => shown

def dndEnd (d : Seat) : Seat :=
  if d.drag.isSome then { d with drag := none, ptrFocus := none } else d

/-- A surface goes away while it may be part of a drag. -/
def dragGone (d : Seat) (s : Nat) : Seat :=
  if d.drag.any fun drag => drag.origin = s ∨ drag.icon = some s then d.dndEnd else d

/-- A surface goes away while it may be moved or resized. -/
def movingGone (d : Seat) (s : Nat) : Seat :=
  if d.moving = some s then { d with moving := none } else d

def lockSurfaceGone (d : Seat) (s : Nat) : Seat :=
  if d.windows.lockSurface = some s then
    let d := d.withWindows { d.windows with lockSurface := none }
    if d.kbdFocus = some s then d.keyboardSetFocus none else d
  else d

/-- Take the pointer off a surface that goes away. -/
def pointerGone (d : Seat) (s : Nat) : Seat :=
  if d.ptrFocus = some s then { d with ptrFocus := none } else d

/-- Take the keyboard off a surface that goes away. -/
def keyboardGone (d : Seat) (s : Nat) : Seat :=
  if d.kbdFocus = some s then d.keyboardSetFocus d.topmostFocusable else d

/-- Take a mapped surface off the screen, and the pointer and the keyboard off it. -/
def surfaceHide (d : Seat) (s : Nat) : Seat :=
  ((d.withWindows (d.windows.surfaceHide s)).pointerGone s).keyboardGone s

/-- Hide a surface, after telling the grabs about a popup. -/
def unmapWith (gone : Seat → Nat → Seat) (d : Seat) (s : Nat) : Seat :=
  let d := ((d.dragGone s).movingGone s).lockSurfaceGone s
  if (d.surface s).mapped then
    (if (d.surface s).role = .popup then gone d s else d).surfaceHide s
  else d

def takeGrab (d : Seat) (i : Fin maxPopupGrab) : Seat :=
  d.withWindows (d.windows.takeGrab i).2

def setGrabCount (d : Seat) (count : Int) : Seat :=
  d.withWindows { d.windows with grabCount := count }

/-- Tell the popup of a grab that has been forgotten to go away, and hide it. -/
def dismiss (unmap : Seat → Nat → Seat) (d : Seat) : Option Nat → Seat
  | some p =>
    if (d.surface p).xdgPopup then unmap { d with popupDone := p :: d.popupDone } p else d
  | none => d

def popGrab (unmap : Seat → Nat → Seat) (d : Seat) (i : Fin maxPopupGrab) : Seat :=
  dismiss unmap ((d.takeGrab i).setGrabCount (d.windows.grabCount - 1)) (d.windows.grab i)

/-- Who gets the keyboard after the last grab. -/
def restoreTarget (d : Seat) : Option Nat → Option Nat
  | some p => if (d.surface p).mapped then some p else d.topmostFocusable
  | none => none

/-- Give the keyboard back after the last grab. -/
def restoreFocus (d : Seat) (prev : Option Nat) : Seat :=
  if d.kbdFocus = d.restoreTarget prev then d else d.keyboardSetFocus (d.restoreTarget prev)

/-- Give the keyboard to the popup that is topmost now, or back after the last grab. -/
def grabPopped (d : Seat) : Seat :=
  if d.windows.grabCount = 0 then
    { d with grabPrevFocus := none }.restoreFocus d.grabPrevFocus
  else if d.kbdFocus = d.windows.topGrab then d
  else d.keyboardSetFocus d.windows.topGrab

/-- Drop the grab of a popup that goes away, and dismiss the popups above it first. -/
def grabGone (unmap : Seat → Nat → Seat) (d : Seat) (s : Nat) : Seat :=
  match (List.finRange maxPopupGrab).find? fun i : Fin maxPopupGrab =>
      (i.val : Int) < d.windows.grabCount ∧ d.windows.grab i = some s with
  | none => d
  | some index =>
    let d := (d.windows.grabsAbove index.val).foldl (popGrab unmap) d
    ((d.takeGrab index).setGrabCount (d.windows.grabCount - 1)).grabPopped

/-- Hide a surface while at most the given number of grabs is active. -/
def unmapNested : Nat → Seat → Nat → Seat
  -- Without grabs there is nothing to tell.
  | 0 => unmapWith fun d _ => d
  | grabs + 1 => unmapWith (grabGone (unmapNested grabs))

def surfaceUnmap (d : Seat) (s : Nat) : Seat :=
  unmapNested d.windows.grabCount.toNat d s

def popupGrabOnSurfaceGone (d : Seat) (s : Nat) : Seat :=
  grabGone surfaceUnmap d s

/-- Dismiss every popup that holds a grab, topmost first, and give the keyboard back. -/
def popupGrabDismissAll (d : Seat) : Seat :=
  if d.windows.grabCount = 0 then d
  else
    let prev := d.grabPrevFocus
    let d := (d.windows.grabsAbove (-1)).foldl
      (fun d i => dismiss surfaceUnmap (d.takeGrab i) (d.windows.grab i)) d
    { d.setGrabCount 0 with grabPrevFocus := none }.restoreFocus prev

def popupGrab (d : Seat) (s : Nat) : Seat :=
  if (d.surface s).role ≠ .popup ∨ d.windows.popupGrabParentOk s = false ∨
      (maxPopupGrab : Int) ≤ d.windows.grabCount then d
  else
    let prev := if d.windows.grabCount = 0 then d.kbdFocus else d.grabPrevFocus
    { d.withWindows (d.windows.popupGrab s) with grabPrevFocus := prev }.keyboardSetFocus (some s)

def xwmAdoptSurface (d : Seat) (s : Nat) (overrideRedirect : Bool) : Seat :=
  if (d.surface s).role ≠ .none ∧ (d.surface s).isXwayland = false then d
  else
    let d := d.withWindows (d.windows.modify s fun x =>
      { x with isXwayland := true, role := if overrideRedirect then .popup else .toplevel })
    if (d.surface s).mapped = false ∧ (d.surface s).currentBuffer = true then d.surfaceMap s
    else d

def xwmUnadoptSurface (d : Seat) (s : Nat) : Seat :=
  if (d.surface s).isXwayland then
    let d := d.surfaceUnmap s
    d.withWindows (d.windows.modify s fun x => { x with isXwayland := false, role := .none })
  else d

/-- A commit replaces the buffer if one was attached, and maps or unmaps the surface. -/
def bufferCommit (d : Seat) (s : Nat) : Seat :=
  if (d.surface s).bufferAttached then
    let buffer := (d.surface s).pendingBuffer
    let d := d.withWindows (d.windows.modify s fun x =>
      { x with pendingBuffer := false, bufferAttached := false, currentBuffer := buffer })
    if buffer then
      if (d.surface s).mapped = false ∧ (d.surface s).mappable = true then d.surfaceMap s else d
    else d.surfaceUnmap s
  else d

/-- What a commit does to the surface it is about before its buffer is looked at. -/
def commitPrepare (input : CommitInput) (d : Seat) (s : Nat) : Seat :=
  let d := match input.adopt s with
    | some overrideRedirect => d.xwmAdoptSurface s overrideRedirect
    | none => d
  d.withWindows (d.windows.layerCommit s)

def commitOwn (input : CommitInput) (d : Seat) (s : Nat) : Seat :=
  (commitPrepare input d s).bufferCommit s

def commitWith (apply : Seat → Nat → Seat) (input : CommitInput) (d : Seat) (s : Nat) : Seat :=
  let d := commitOwn input d s
  -- A viewport that does not fit disconnects the client.
  if input.valid s then
    d.windows.surfaces.foldl (fun d c =>
      if d.windows.waits s c then apply (d.withWindows (d.windows.release c)) c else d) d
  else d

/-- Apply a commit while at most the given number of commits waits. -/
def commitNested (input : CommitInput) : Nat → Seat → Nat → Seat
  | 0 => commitWith (fun d _ => d) input
  | waiting + 1 => commitWith (commitNested input waiting) input

def surfaceCommitApply (input : CommitInput) (d : Seat) (s : Nat) : Seat :=
  commitNested input d.windows.waiting d s

def surfaceCommit (d : Seat) (s : Nat) (input : CommitInput) : Seat :=
  if (d.surface s).role = .subsurface ∧ (d.surface s).subsurface.any SubsurfaceState.sync then
    d.withWindows (d.windows.surfaceCommit s input)
  else d.surfaceCommitApply input s

def subsurfaceSetDesync (d : Seat) (s : Nat) (input : CommitInput) : Seat :=
  let d := d.withWindows (d.windows.modify s fun x =>
    { x with subsurface := x.subsurface.map ({ · with sync := false }) })
  if (d.surface s).subsurface.any SubsurfaceState.cachePending then
    (d.withWindows (d.windows.release s)).surfaceCommitApply input s
  else d

def surfaceResourceDestroy (d : Seat) (s : Nat) : Seat :=
  let d := (d.withWindows { d.windows with surfaces := d.windows.surfaces.erase s }).surfaceUnmap s
  let d := (d.withWindows ((d.windows.modify s fun x =>
    { x with subsurface := none, layer := none }).orphan s)).popupGrabOnSurfaceGone s
  let d := if d.grabPrevFocus = some s then { d with grabPrevFocus := none } else d
  let d := (d.pointerGone s).keyboardGone s
  { d.withWindows (d.windows.modify s fun _ => {}) with
    minimized := Function.update d.minimized s false
    interactive := Function.update d.interactive s false }

def onBufferDestroyed (d : Seat) (s : Nat) : Seat :=
  let wasMapped := (d.surface s).mapped
  let d := d.withWindows (d.windows.modify s fun x => { x with currentBuffer := false })
  if wasMapped then d.surfaceUnmap s else d

def toplevelResourceDestroy (d : Seat) (s : Nat) : Seat :=
  let d := d.surfaceUnmap s
  d.withWindows (d.windows.modify s fun x => { x with xdgToplevel := false, role := .none })

def popupResourceDestroy (d : Seat) (s : Nat) : Seat :=
  let d := (d.surfaceUnmap s).popupGrabOnSurfaceGone s
  d.withWindows (d.windows.modify s fun x => { x with xdgPopup := false, role := .none })

def subsurfaceResourceDestroy (d : Seat) (s : Nat) : Seat :=
  let d := d.surfaceUnmap s
  d.withWindows (d.windows.modify s fun x =>
    { x with subsurface := none, parent := none, role := .none })

def layerSurfaceResDestroy (d : Seat) (s : Nat) : Seat :=
  if (d.surface s).layer.isNone then d
  else
    let d := d.surfaceUnmap s
    d.withWindows (d.windows.modify s fun x => { x with layer := none, role := .none })

def getLayerSurface (d : Seat) (s : Nat) (layer : BitVec 32) : Seat :=
  { d.withWindows (d.windows.getLayerSurface s layer) with
    interactive := if (d.surface s).layer.isSome then d.interactive
      else Function.update d.interactive s false }

def layerSurfaceSetKbd (d : Seat) (s : Nat) (wanted : Bool) : Seat :=
  if (d.surface s).layer.isSome then
    { d with interactive := Function.update d.interactive s wanted }
  else d

def slockMgrLock (d : Seat) (l : Nat) : Seat :=
  if d.lock.isSome then d
  else { { d with lock := some l, locked := true }.keyboardSetFocus none with
    ptrFocus := none }.dndEnd

def slockGetLockSurface (d : Seat) (l s : Nat) : Seat :=
  if (d.lock = some l ∧ d.locked = true) ∧ (d.surface s).role = .none ∧
      d.windows.lockSurface = none then
    { d.withWindows (d.windows.slockGetLockSurface s true) with
      lockOrigin := some l }.keyboardSetFocus (some s)
  else d

def slockSurfaceResourceDestroy (d : Seat) (s : Nat) : Seat :=
  let d := d.withWindows (d.windows.slockSurfaceResourceDestroy s)
  if d.kbdFocus = some s then d.keyboardSetFocus none else d

def slockUnlockAndDestroy (d : Seat) (l : Nat) : Seat :=
  if d.lock = some l ∧ d.locked = true then
    let d := { d with locked := false, lock := none }
    { d.keyboardSetFocus d.topmostFocusable with ptrFocus := none }
  else d

def slockResourceDestroy (d : Seat) (l : Nat) : Seat :=
  if d.lock = some l then { d with lock := none } else d

def surfaceAt (d : Seat) (contains : Nat → Bool) : Option Nat :=
  -- While the session is locked there is only the lock surface, once it shows something.
  if d.locked then d.windows.lockSurface.filter fun s => (d.surface s).currentBuffer
  else d.windows.mapped.reverse.find? fun s =>
    !((d.surface s).role = .toplevel && d.minimized s) && contains s

def holdsGrab (d : Seat) : Nat → Option Nat → Bool
  | _, none => false
  | 0, some _ => false
  | depth + 1, some s =>
    ((List.finRange maxPopupGrab).any fun i : Fin maxPopupGrab =>
      (i.val : Int) < d.windows.grabCount ∧ d.windows.grab i = some s) ||
    d.holdsGrab depth (d.surface s).parent

def popupHitIsWithinGrab (d : Seat) (hit : Option Nat) : Bool :=
  d.windows.grabCount = 0 || d.holdsGrab maxSurfaces hit

def dismissOutside (d : Seat) (hit : Option Nat) : Seat :=
  if 0 < d.windows.grabCount ∧ d.popupHitIsWithinGrab hit = false then d.popupGrabDismissAll else d

def pressFocus (d : Seat) (hit : Nat) : Seat :=
  if (d.surface hit).role = .layer ∧ (d.surface hit).layer.isSome = true ∧
      d.interactive hit = false then d
  else (d.withWindows (d.windows.surfaceRaise hit)).keyboardSetFocus (some hit)

def handleMotion (d : Seat) (contains : Nat → Bool) (held : Bool) : Seat :=
  -- A drag, a move and a resize of a window keep the pointer to themselves.
  if held ∨ d.drag.isSome ∨ d.moving.isSome then d else { d with ptrFocus := d.surfaceAt contains }

def handleButtonDown (d : Seat) : Seat :=
  if d.drag.isSome then d
  else
    let d := d.dismissOutside d.ptrFocus
    match d.ptrFocus with
    | some hit => d.pressFocus hit
    | none => d

def handleButtonUp (d : Seat) (drops : Bool) : Seat :=
  if d.drag.isSome then (if drops then d.dndEnd else d) else { d with moving := none }

def handleTouchDown (d : Seat) (contains : Nat → Bool) (room : Bool) : Seat :=
  let hit := d.surfaceAt contains
  let d := d.dismissOutside hit
  match hit with
  | some s => if room then d.pressFocus s else d
  | none => d

def handlePencilDown (d : Seat) (contains : Nat → Bool) : Seat :=
  match d.surfaceAt contains with
  | some s => d.pressFocus s
  | none => d

def dataDeviceStartDrag (d : Seat) (origin : Nat) (icon : Option Nat) : Seat :=
  if d.drag.isSome then d else { d with drag := some ⟨origin, icon⟩, ptrFocus := none }

def interactiveBegin (d : Seat) (s : Nat) : Seat :=
  if (d.surface s).xdgToplevel then { d with moving := some s } else d

def surfaceSetMinimized (d : Seat) (s : Nat) (minimized : Bool) : Seat :=
  if (d.surface s).role ≠ .toplevel ∨ d.minimized s = minimized then d
  else
    let d := { d with minimized := Function.update d.minimized s minimized }
    if minimized ∧ d.kbdFocus = some s then d.keyboardSetFocus d.topmostFocusable else d

def activate (d : Seat) (s : Nat) : Seat :=
  (d.withWindows (d.windows.surfaceRaise s)).keyboardSetFocus (some s)

/-- What can happen to the keyboard and the pointer. -/
inductive Event where
  -- A request or an event about the windows.
  | window (event : WindowStack.Event)
  -- A panel tells whether it wants the keyboard.
  | setKbd (s : Nat) (wanted : Bool)
  -- A lock is taken, used, given back, and destroyed.
  | lock (l : Nat)
  | getLockSurface (l s : Nat)
  | unlock (l : Nat)
  | lockDestroyed (l : Nat)
  -- The pointer moves, and buttons are pressed and released.
  | motion (contains : Nat → Bool) (held : Bool)
  | buttonDown
  | buttonUp (drops : Bool)
  -- A finger or a pencil is put down.
  | touchDown (contains : Nat → Bool) (room : Bool)
  | pencilDown (contains : Nat → Bool)
  -- A host scrolls, or sends a key or text, to one window.
  | scrollOn (s : Nat)
  | keyOn (s : Nat)
  -- A host activates or deactivates one window.
  | nativeActivate (s : Nat)
  | nativeDeactivate (s : Nat)
  -- A drag begins and ends, and so does a move or a resize.
  | startDrag (origin : Nat) (icon : Option Nat)
  | endDrag
  | interactiveBegin (s : Nat)
  -- A window is minimized, picked from the task bar, or activated by a client.
  | minimize (s : Nat) (minimized : Bool)
  | restore (s : Nat)
  | activate (s : Nat)

def nextWindow (d : Seat) : WindowStack.Event → Seat
  | .destroy s => d.surfaceResourceDestroy s
  | .commit s input => d.surfaceCommit s input
  | .bufferDestroyed s => d.onBufferDestroyed s
  | .toplevelDestroyed s => d.toplevelResourceDestroy s
  | .grab s => d.popupGrab s
  | .popupDestroyed s => d.popupResourceDestroy s
  | .setDesync s input => d.subsurfaceSetDesync s input
  | .subsurfaceDestroyed s => d.subsurfaceResourceDestroy s
  | .getLayerSurface s layer => d.getLayerSurface s layer
  | .layerDestroyed s => d.layerSurfaceResDestroy s
  | .lockSurfaceDestroyed s => d.slockSurfaceResourceDestroy s
  | .adopt s overrideRedirect => d.xwmAdoptSurface s overrideRedirect
  | .unadopt s => d.xwmUnadoptSurface s
  -- All others leave the keyboard and the pointer alone.
  | event => d.withWindows (d.windows.next event)

def next (d : Seat) : Event → Seat
  | .window event => d.nextWindow event
  | .setKbd s wanted => d.layerSurfaceSetKbd s wanted
  | .lock l => d.slockMgrLock l
  | .getLockSurface l s => d.slockGetLockSurface l s
  | .unlock l => d.slockUnlockAndDestroy l
  | .lockDestroyed l => d.slockResourceDestroy l
  | .motion contains held => d.handleMotion contains held
  | .buttonDown => d.handleButtonDown
  | .buttonUp drops => d.handleButtonUp drops
  | .touchDown contains room => d.handleTouchDown contains room
  | .pencilDown contains => d.handlePencilDown contains
  | .scrollOn s => if d.locked then d else { d with ptrFocus := some s }
  | .keyOn s => d.keyboardSetFocus (some s)
  | .nativeActivate s => d.activate s
  | .nativeDeactivate s => if d.kbdFocus = some s then d.keyboardSetFocus none else d
  | .startDrag origin icon => d.dataDeviceStartDrag origin icon
  | .endDrag => d.dndEnd
  | .interactiveBegin s => d.interactiveBegin s
  | .minimize s minimized => d.surfaceSetMinimized s minimized
  | .restore s => (d.surfaceSetMinimized s false).activate s
  | .activate s => d.activate s

/-- Requests that are made of the windows themselves and not by way of the seat. -/
def direct : WindowStack.Event → Bool
  | .getLockSurface _ _ | .raise _ | .pressOutside => false
  | _ => true

/-- Every object an event is about exists, and hosts only know windows that are shown. -/
def Allowed (d : Seat) : Event → Prop
  | .window event => direct event = true ∧ d.windows.Allowed event
  | .getLockSurface _ s | .startDrag s _ | .interactiveBegin s => s ∈ d.windows.surfaces
  | .scrollOn s | .keyOn s | .activate s => (d.surface s).mapped = true
  | .nativeActivate s | .nativeDeactivate s | .restore s =>
    (d.surface s).mapped = true ∧ (d.surface s).role = .toplevel
  | .setKbd _ _ | .lock _ | .unlock _ | .lockDestroyed _ | .motion _ _ | .buttonDown | .buttonUp _
  | .touchDown _ _ | .pencilDown _ | .endDrag | .minimize _ _ => True

instance decidableAllowed (d : Seat) (event : Event) : Decidable (d.Allowed event) := by
  unfold Allowed
  induction event using Event.casesOn <;> infer_instance

/-- All histories of the seat, from the start of the compositor on. -/
def machine : Machine Seat Event where
  start d := d = {}
  enabled := Allowed
  next := next

instance (d : Seat) (event : Event) : Decidable (machine.enabled d event) :=
  inferInstanceAs (Decidable (d.Allowed event))

end Seat

end Xios
