import Xios.Lib.Forest
import Xios.Lib.Machine
import Xios.Lib.Rect

/-! Trees of subsurfaces, whose commits are cached by a flag on top of the pending fields. -/

namespace Xios

/-- The double-buffered contents of a surface. -/
structure SurfaceContents where
  buffer : Option Nat := none
  -- Buffer pixels for a surface unit.
  scale : Int := 1
  -- Frame callbacks to be answered, newest first.
  frames : List Nat := []
  deriving DecidableEq

/-- What the client of a surface can be promised about its commits, kept for comparison. -/
structure CommitLedger where
  -- The contents as requested so far.
  asked : SurfaceContents := {}
  -- The contents as requested when the client last committed.
  committed : SurfaceContents := {}
  -- Number of commits.
  serial : Nat := 0
  -- Commits applied, newest first.
  applied : List Nat := []
  deriving DecidableEq

/-- A surface with its subsurface state. -/
structure TreeSurface where
  -- The buffer of the next commit.
  pendingBuffer : Option Nat := none
  -- The next commit replaces the buffer, by none if none is pending.
  bufferAttached : Bool := false
  currentBuffer : Option Nat := none
  -- The scale of the next commit.
  pendingBufferScale : Int := 1
  -- The next commit changes the scale.
  pendingScaleDirty : Bool := false
  currentBufferScale : Int := 1
  -- Frame callbacks requested for the next commit, newest first.
  pendingFrameCallbacks : List Nat := []
  -- Frame callbacks to be answered, newest first.
  frameCallbacks : List Nat := []
  -- Damage handed on to the renderer, newest first.
  damage : List Rect := []
  -- Commits wait for the parent's.
  sync : Bool := true
  -- A commit is waiting.
  cachePending : Bool := false
  -- What was asked for, committed and applied.
  ledger : CommitLedger := {}
  deriving DecidableEq

namespace TreeSurface

def current (x : TreeSurface) : SurfaceContents where
  buffer := x.currentBuffer
  scale := x.currentBufferScale
  frames := x.frameCallbacks

def ask (x : TreeSurface) (change : SurfaceContents → SurfaceContents) : TreeSurface :=
  { x with ledger := { x.ledger with asked := change x.ledger.asked } }

def note (x : TreeSurface) : TreeSurface :=
  { x with
    ledger := { x.ledger with
      committed := x.ledger.asked
      serial := x.ledger.serial + 1 } }

/-- `surface_attach` -/
def attach (x : TreeSurface) (buffer : Option Nat) : TreeSurface :=
  { x with pendingBuffer := buffer, bufferAttached := true }.ask ({ · with buffer := buffer })

def addDamage (x : TreeSurface) (r : Rect) : TreeSurface :=
  { x with damage := r :: x.damage }

/-- `surface_frame` -/
def frame (x : TreeSurface) (callback : Nat) : TreeSurface :=
  { x with pendingFrameCallbacks := callback :: x.pendingFrameCallbacks }.ask
    fun asked => { asked with frames := callback :: asked.frames }

/-- `surface_set_buffer_scale` -/
def setBufferScale (x : TreeSurface) (scale : Int) : TreeSurface :=
  -- A scale below one is a protocol error.
  if scale < 1 then x
  else
    (if x.pendingScaleDirty = true ∧ x.pendingBufferScale = scale then x
      else if x.pendingScaleDirty = false ∧ x.currentBufferScale = scale then x
      else { x with pendingBufferScale := scale, pendingScaleDirty := true }).ask
        ({ · with scale := scale })

def applyOwn (x : TreeSurface) : TreeSurface :=
  { x with
    frameCallbacks := x.pendingFrameCallbacks ++ x.frameCallbacks
    pendingFrameCallbacks := []
    currentBufferScale :=
      if x.pendingScaleDirty then
        if x.pendingBufferScale > 0 then x.pendingBufferScale else 1
      else x.currentBufferScale
    pendingScaleDirty := false
    currentBuffer := if x.bufferAttached then x.pendingBuffer else x.currentBuffer
    pendingBuffer := if x.bufferAttached then none else x.pendingBuffer
    bufferAttached := false
    ledger := { x.ledger with applied := x.ledger.serial :: x.ledger.applied } }

def waits (x : TreeSurface) : Bool :=
  x.sync && x.cachePending

def cache (x : TreeSurface) (pending : Bool) : TreeSurface :=
  { x with cachePending := pending }

/-- Set whether commits wait for the parent's. -/
def setSync (x : TreeSurface) (sync : Bool) : TreeSurface :=
  { x with sync := sync }

def applyAction : Forest.Action TreeSurface where
  own := applyOwn
  ready := waits
  enter := (cache · false)
  own_ready _ := rfl
  enter_ready x := Bool.and_false x.sync

end TreeSurface

abbrev SurfaceTree (α : Type*) := α → TreeSurface

namespace SurfaceTree

variable {α : Type*} [DecidableEq α]

def modify (st : SurfaceTree α) (s : α) (change : TreeSurface → TreeSurface) : SurfaceTree α :=
  Function.update st s (change (st s))

def surfaceCommitApply (f : Forest α) (st : SurfaceTree α) (s : α) : SurfaceTree α :=
  f.cascade TreeSurface.applyAction.visit st s

def surfaceCommit (f : Forest α) (st : SurfaceTree α) (s : α) : SurfaceTree α :=
  let noted := st.modify s TreeSurface.note
  -- Only the surface's own mode is looked at.
  if (f.parent s).isSome = true ∧ (st s).sync = true then noted.modify s (·.cache true)
  else noted.surfaceCommitApply f s

def subsurfaceSetDesync (f : Forest α) (st : SurfaceTree α) (s : α) : SurfaceTree α :=
  let desync := st.modify s (·.setSync false)
  if (st s).cachePending then (desync.modify s (·.cache false)).surfaceCommitApply f s else desync

/-- Requests about the surfaces of a forest. -/
inductive Event (α : Type*) where
  -- A buffer, or none, for the next commit.
  | attach (s : α) (buffer : Option Nat)
  -- A part of the surface has changed.
  | damage (s : α) (r : Rect)
  -- A scale for the next commit.
  | setBufferScale (s : α) (scale : Int)
  -- A callback for the next commit.
  | frame (s : α) (callback : Nat)
  -- The requests since the last commit are to take effect.
  | commit (s : α)
  -- Commits of a subsurface are to wait for its parent's.
  | setSync (s : α)
  -- Commits of a subsurface are not to wait for its parent's.
  | setDesync (s : α)
  deriving DecidableEq

def next (f : Forest α) (st : SurfaceTree α) : Event α → SurfaceTree α
  | .attach s buffer => st.modify s (·.attach buffer)
  | .damage s r => st.modify s (·.addDamage r)
  | .setBufferScale s scale => st.modify s (·.setBufferScale scale)
  | .frame s callback => st.modify s (·.frame callback)
  | .commit s => st.surfaceCommit f s
  | .setSync s => st.modify s (·.setSync true)
  | .setDesync s => st.subsurfaceSetDesync f s

/-- Any surface may be used, and the mode of every subsurface may be changed. -/
def machine (f : Forest α) : Machine (SurfaceTree α) (Event α) where
  start st := st = fun _ => {}
  enabled _ event :=
    match event with
    | .setSync s | .setDesync s => (f.parent s).isSome = true
    | _ => True
  next := next f

end SurfaceTree

end Xios
