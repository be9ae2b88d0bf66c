import Mathlib.Algebra.Order.Ring.Nat
import Xios.Lib.Forest
import Xios.Lib.Machine
import Xios.Output.Damage
import Xios.Windows.Stack

/-! Cached textures: damage is recorded when it is requested, contents change when commits apply. -/

namespace Xios

/-- Number of dirty rectangles kept for a texture before all of it is uploaded. -/
def maxShmDirtyRects : Nat := 16

/-- Number of visible parts of a surface looked at within one damaged rectangle. -/
def maxVisibleRects : Nat := 32

/-- A pixel lies in one of some reports. -/
def DamageReport.Covered (rects : List DamageReport) (x y : Int) : Prop :=
  ∃ r ∈ rects, r.Contains x y
  deriving Decidable

/-- A shared-memory buffer, with what the client has drawn into it when it commits it. -/
structure ShmBuffer (β : Type*) where
  -- Its size in pixels.
  width : Int
  height : Int
  -- Its pixels, of which those within its size matter.
  content : Int → Int → β

namespace ShmBuffer

variable {β : Type*}

/-- A buffer has a pixel. -/
def Contains (b : ShmBuffer β) (x y : Int) : Prop :=
  0 ≤ x ∧ x < b.width ∧ 0 ≤ y ∧ y < b.height
  deriving Decidable

def pixels (b : ShmBuffer β) : List (Int × Int) :=
  (List.range b.width.toNat).flatMap fun (x : Nat) =>
    (List.range b.height.toNat).map fun (y : Nat) => (Int.ofNat x, Int.ofNat y)

/-- Buffers are of the same size. -/
def SameSize (a b : ShmBuffer β) : Prop :=
  a.width = b.width ∧ a.height = b.height
  deriving Decidable

/-- Buffers show the same. -/
def Same (a b : ShmBuffer β) : Prop :=
  a.SameSize b ∧ ∀ x y, b.Contains x y → a.content x y = b.content x y

/-- A pixel of the new contents that the old ones did not have, or had otherwise. -/
def Differs (old new : Option (ShmBuffer β)) (x y : Int) : Prop :=
  ∃ b ∈ new, b.Contains x y ∧ ∀ a ∈ old, a.Contains x y → a.content x y ≠ b.content x y

def uploadRects (t b : ShmBuffer β) (rects : List DamageReport) : ShmBuffer β :=
  { t with
    content := fun x y =>
      if b.Contains x y ∧ DamageReport.Covered rects x y then b.content x y else t.content x y }

/-- `iosc_gl_draw_shm`, as far as it goes for the texture cached for a surface -/
def drawShm (texture : Option (ShmBuffer β)) (dirty : Bool) (rects : List DamageReport)
    (b : ShmBuffer β) : ShmBuffer β :=
  match texture with
  | none => b
  | some t =>
    -- Another size needs another allocation, which is filled as a whole.
    if ¬t.SameSize b then b
    else if dirty then if rects ≠ [] then t.uploadRects b rects else b
    else t

end ShmBuffer

/-- A surface with its texture. -/
structure TextureSurface (β : Type*) where
  -- The buffer of the next commit.
  pendingBuffer : Option (ShmBuffer β) := none
  -- The next commit replaces the buffer, by none if none is pending.
  bufferAttached : Bool := false
  currentBuffer : Option (ShmBuffer β) := none
  -- The texture does not have the contents of the buffer, within some rectangles if any are listed.
  glDirty : Bool := false
  glDirtyRects : List DamageReport := []
  -- The texture cached for the surface.
  texture : Option (ShmBuffer β) := none
  -- The position of the surface.
  dx : Int := 0
  dy : Int := 0
  -- Commits wait for the parent's, and one is waiting.
  sync : Bool := true
  cachePending : Bool := false
  -- The contents last committed, kept for comparison.
  committed : Option (ShmBuffer β) := none
  -- A buffer was attached after that.
  ahead : Bool := false
  -- Damage requested after that, and damage of commits that were not applied.
  asked : List DamageReport := []
  waiting : List DamageReport := []

namespace TextureSurface

variable {β : Type*}

def sw (x : TextureSurface β) : Int :=
  (x.currentBuffer.map ShmBuffer.width).getD 0
def sh (x : TextureSurface β) : Int :=
  (x.currentBuffer.map ShmBuffer.height).getD 0

/-- `surface_gl_dirty_full` -/
def glDirtyFull (x : TextureSurface β) : TextureSurface β :=
  { x with glDirty := true, glDirtyRects := [] }

def clip (x : TextureSurface β) (r : DamageReport) : DamageReport :=
  let r := if r.x < 0 then { r with w := r.w + r.x, x := 0 } else r
  let r := if r.y < 0 then { r with h := r.h + r.y, y := 0 } else r
  let r := if 0 < x.sw ∧ x.sw < r.x + r.w then { r with w := x.sw - r.x } else r
  if 0 < x.sh ∧ x.sh < r.y + r.h then { r with h := x.sh - r.y } else r

/-- `surface_gl_dirty_buffer_rect` -/
def glDirtyBufferRect (x : TextureSurface β) (r : DamageReport) : TextureSurface β :=
  if r.w ≤ 0 ∨ r.h ≤ 0 then x
  else
    let r := x.clip r
    if r.w ≤ 0 ∨ r.h ≤ 0 then x
    -- All of the texture is uploaded already.
    else if x.glDirty = true ∧ x.glDirtyRects = [] then x
    else if maxShmDirtyRects ≤ x.glDirtyRects.length then x.glDirtyFull
    else { x with glDirty := true, glDirtyRects := x.glDirtyRects ++ [r] }

/-- The dirty rectangles are kept when the buffer is replaced. -/
def Preserves (x : TextureSurface β) (buffer : Option (ShmBuffer β)) : Prop :=
  ∃ b ∈ buffer, ∃ a ∈ x.currentBuffer, a.SameSize b ∧ x.glDirty = true ∧ x.glDirtyRects ≠ []
  deriving Decidable

/-- `surface_set_buffer` -/
def setBuffer (x : TextureSurface β) (buffer : Option (ShmBuffer β)) : TextureSurface β :=
  if x.Preserves buffer then { x with currentBuffer := buffer }
  else { x with currentBuffer := buffer }.glDirtyFull

def compositeSurfaceAt (x : TextureSurface β) : TextureSurface β :=
  match x.currentBuffer with
  | none => x
  | some b =>
    if b.width ≤ 0 ∨ b.height ≤ 0 then x
    else
      { x with
        texture := some (b.drawShm x.texture x.glDirty x.glDirtyRects)
        glDirty := false
        glDirtyRects := [] }

def coming (x : TextureSurface β) : Option (ShmBuffer β) :=
  if x.bufferAttached then x.pendingBuffer else x.currentBuffer

/-- `surface_attach` -/
def attach (x : TextureSurface β) (buffer : Option (ShmBuffer β)) : TextureSurface β :=
  { x with pendingBuffer := buffer, bufferAttached := true, ahead := true }

def ask (x : TextureSurface β) (r : DamageReport) : TextureSurface β :=
  { x with asked := x.asked ++ [r] }

def note (x : TextureSurface β) : TextureSurface β :=
  { x with committed := x.coming, ahead := false, waiting := x.waiting ++ x.asked, asked := [] }

/-- The pending buffer is taken over, with the damage of the commits so far. -/
def take (x : TextureSurface β) : TextureSurface β :=
  { x with pendingBuffer := none, bufferAttached := false, waiting := [] }

end TextureSurface

/-- The output, and what is fixed about the surfaces on it. -/
structure SceneLayout (α : Type*) where
  -- Subsurfaces and their parents.
  forest : Forest α
  -- Surfaces of a higher band are above those of lower ones.
  band : α → Nat
  -- The size of the output in pixels, and how many of them are a unit.
  width : Int
  height : Int
  scale : Int
  positive : 0 < scale

/-- Surfaces, their textures and the damage of the output. -/
structure TextureScene (α β : Type*) where
  surface : α → TextureSurface β := fun _ => {}
  -- Surfaces that are shown, from the back to the front.
  mapped : List α := []
  -- Damage since the last repaint, of the last one, and of earlier ones.
  damage : OutputDamage := {}
  lastPresent : PresentDamage := {}
  history : DamageHistory := {}

/-- How a surface is shown if a commit shows it. -/
structure MapInput where
  mappable : Bool := true
  dx : Int := 0
  dy : Int := 0

namespace TextureScene

variable {α β : Type*} [DecidableEq α] (c : SceneLayout α)

def modify (st : TextureScene α β) (s : α) (change : TextureSurface β → TextureSurface β) :
    TextureScene α β :=
  { st with surface := Function.update st.surface s (change (st.surface s)) }

/-- `output_damage_add_px` -/
def addPx (st : TextureScene α β) (report : DamageReport) : TextureScene α β :=
  { st with damage := st.damage.addPx c.width c.height report }

def surfaceRect (st : TextureScene α β) (s : α) : Option Rect :=
  let x := st.surface s
  match x.currentBuffer with
  | none => none
  | some b =>
    if b.width ≤ 0 ∨ b.height ≤ 0 then none
    else
      some ⟨x.dx * c.scale, x.dy * c.scale, (x.dx + b.width) * c.scale,
        (x.dy + b.height) * c.scale⟩

def outputDamageAddSurface (st : TextureScene α β) (s : α) : TextureScene α β :=
  match st.surfaceRect c s with
  | none => st
  | some r => st.addPx c ⟨r.x0, r.y0, r.x1 - r.x0, r.y1 - r.y0⟩

def outputDamageAddSurfaceRect (s : α) (st : TextureScene α β) (r : DamageReport) :
    TextureScene α β :=
  if r.w ≤ 0 ∨ r.h ≤ 0 ∨ s ∉ st.mapped then st
  else
    st.addPx c ⟨((st.surface s).dx + r.x) * c.scale, ((st.surface s).dy + r.y) * c.scale,
      r.w * c.scale, r.h * c.scale⟩

def outputDamageAddSurfaceDirtyRects (st : TextureScene α β) (s : α) :
    Option (TextureScene α β) :=
  let x := st.surface s
  if s ∉ st.mapped ∨ x.glDirty = false ∨ x.glDirtyRects = [] then none
  else some (x.glDirtyRects.foldl (outputDamageAddSurfaceRect c s) st)

def surfaceDamage (st : TextureScene α β) (s : α) (r : DamageReport) : TextureScene α β :=
  (st.modify s (·.glDirtyFull.ask r)).outputDamageAddSurfaceRect c s r

def surfaceDamageBuffer (st : TextureScene α β) (s : α) (r : DamageReport) : TextureScene α β :=
  (st.modify s fun x => (x.glDirtyBufferRect r).ask r).outputDamageAddSurfaceRect c s r

def surfaceMap (st : TextureScene α β) (s : α) (input : MapInput) : TextureScene α β :=
  if s ∈ st.mapped ∨ maxSurfaces ≤ st.mapped.length then st
  else
    -- The surface comes after all others of its band.
    { st.modify s ({ · with dx := input.dx, dy := input.dy }) with
      mapped := st.mapped.takeWhile (fun o => c.band o ≤ c.band s) ++
        s :: st.mapped.dropWhile (fun o => c.band o ≤ c.band s) }

def surfaceUnmap (st : TextureScene α β) (s : α) : TextureScene α β :=
  if s ∉ st.mapped then st
  else { st.outputDamageAddSurface c s with mapped := st.mapped.erase s }

def showBuffer (st : TextureScene α β) (s : α) (b : ShmBuffer β) (input : MapInput) :
    TextureScene α β :=
  let shown := st.modify s (·.setBuffer (some b))
  let shown :=
    if s ∉ st.mapped ∧ input.mappable = true then shown.surfaceMap c s input else shown
  match if s ∈ st.mapped then shown.outputDamageAddSurfaceDirtyRects c s else none with
  | some damaged => damaged
  | none => shown.outputDamageAddSurface c s

def detachBuffer (st : TextureScene α β) (s : α) : TextureScene α β :=
  let damaged := if s ∈ st.mapped then st.outputDamageAddSurface c s else st
  (damaged.modify s (·.setBuffer none)).surfaceUnmap c s

/-- The part of `surface_commit_apply` about the surface itself -/
def applyOwn (st : TextureScene α β) (s : α) (input : MapInput) : TextureScene α β :=
  let x := st.surface s
  let taken := st.modify s TextureSurface.take
  if x.bufferAttached then
    match x.pendingBuffer with
    | some b => taken.showBuffer c s b input
    | none => taken.detachBuffer c s
  else taken

def cache (st : TextureScene α β) (s : α) (pending : Bool) : TextureScene α β :=
  st.modify s ({ · with cachePending := pending })

def surfaceCommitApply (input : α → MapInput) (st : TextureScene α β) (s : α) :
    TextureScene α β :=
  c.forest.cascade
    { own := fun st s => st.applyOwn c s (input s)
      ready := fun st s => (st.surface s).sync && (st.surface s).cachePending
      enter := fun st s => st.cache s false } st s

def surfaceCommit (st : TextureScene α β) (s : α) (input : α → MapInput) : TextureScene α β :=
  let noted := st.modify s TextureSurface.note
  if (c.forest.parent s).isSome = true ∧ (st.surface s).sync = true then noted.cache s true
  else noted.surfaceCommitApply c input s

/-- `subsurface_set_sync` and the first part of `subsurface_set_desync` -/
def setSync (st : TextureScene α β) (s : α) (sync : Bool) : TextureScene α β :=
  st.modify s ({ · with sync := sync })

def subsurfaceSetDesync (st : TextureScene α β) (s : α) (input : α → MapInput) :
    TextureScene α β :=
  if (st.surface s).cachePending then
    ((st.setSync s false).cache s false).surfaceCommitApply c input s
  else st.setSync s false

/-- The loop of `surface_visible_damage_rects`, which gives up where there are too many parts -/
def hideBehind (original : Rect) : List Rect → List Rect → List Rect
  | visible, [] => visible
  | visible, cut :: cuts =>
    let rest := visible.flatMap (·.subtract cut)
    if maxVisibleRects < rest.length then [original]
    else if rest = [] then []
    else hideBehind original rest cuts

/-- `surface_visible_damage_rects`, given the surfaces above and which of them hide others -/
def visibleDamageRects (st : TextureScene α β) (solid : α → Bool) (s : α) (above : List α)
    (d : Rect) : List Rect :=
  match (st.surfaceRect c s).bind (·.intersection d) with
  | none => []
  | some original =>
    hideBehind original [original]
      (above.filterMap fun o => if solid o then st.surfaceRect c o else none)

/-- Draw a surface where it is visible, once for each part. -/
def compositeVisible (solid : α → Bool) (d : Rect) (st : TextureScene α β) (s : α)
    (above : List α) : TextureScene α β :=
  (st.visibleDamageRects c solid s above d).foldl
    (fun st _ => st.modify s TextureSurface.compositeSurfaceAt) st

/-- Draw surfaces from the back to the front, within one damaged rectangle. -/
def compositeAll (solid : α → Bool) (d : Rect) : TextureScene α β → List α → TextureScene α β
  | st, [] => st
  | st, s :: above => compositeAll solid d (compositeVisible c solid d st s above) above

def due (st : TextureScene α β) (age : Nat) : OutputDamage :=
  st.history.apply c.width c.height age st.damage

def painted (st : TextureScene α β) (age : Nat) : List Rect :=
  if (st.due c age).valid then (outputDamageConsume c.width c.height (st.due c age)).1 else []

def recompositeNow (st : TextureScene α β) (age : Nat) (solid : α → Bool) : TextureScene α β :=
  if (st.due c age).valid then
    let (rects, lastPresent, damage) := outputDamageConsume c.width c.height (st.due c age)
    let drawn := rects.foldl (fun st d => compositeAll c solid d st st.mapped) st
    { drawn with damage, lastPresent, history := st.history.record lastPresent }
  else { st with damage := st.due c age }

/-- Requests, the steps they consist of, and repaints. -/
inductive Event (α β : Type*) where
  -- A buffer, or none, for the next commit.
  | attach (s : α) (buffer : Option (ShmBuffer β))
  -- A part of the surface, or of the buffer, has changed.
  | damage (s : α) (r : DamageReport)
  | damageBuffer (s : α) (r : DamageReport)
  -- The client commits what it has requested.
  | note (s : α)
  -- A commit waits, or no longer waits.
  | cache (s : α) (pending : Bool)
  -- The pending state of a surface is applied.
  | apply (s : α) (input : MapInput)
  -- Commits of a subsurface are to wait for its parent's, or not.
  | setSync (s : α) (sync : Bool)
  -- The output is repainted, where some surfaces hide what is behind them.
  | recomposite (age : Nat) (solid : α → Bool)

def next (st : TextureScene α β) : Event α β → TextureScene α β
  | .attach s buffer => st.modify s (·.attach buffer)
  | .damage s r => st.surfaceDamage c s r
  | .damageBuffer s r => st.surfaceDamageBuffer c s r
  | .note s => st.modify s TextureSurface.note
  | .cache s pending => st.cache s pending
  | .apply s input => st.applyOwn c s input
  | .setSync s sync => st.setSync s sync
  | .recomposite age solid => st.recompositeNow c age solid

/-- Buffers have pixels, and the client requests damage for all that its commits change. -/
def Allowed (st : TextureScene α β) : Event α β → Prop
  | .attach _ buffer => ∀ b ∈ buffer, 0 < b.width ∧ 0 < b.height
  | .note s =>
    ∀ x y, ShmBuffer.Differs (st.surface s).committed (st.surface s).coming x y →
      DamageReport.Covered (st.surface s).asked x y
  | _ => True

/-- All histories of the surfaces and the output. -/
def machine : Machine (TextureScene α β) (Event α β) where
  start st := st = {}
  enabled := Allowed
  next := next c

def after (s : α) : List α → List α
  | [] => []
  | o :: rest => if o = s then rest else after s rest

/-- A surface that is shown, on the output, and with none above it that overlaps it. -/
structure FullyVisible (st : TextureScene α β) (s : α) : Prop where
  mapped : s ∈ st.mapped
  clear : ∃ r, st.surfaceRect c s = some r ∧ r.Within ⟨0, 0, c.width, c.height⟩ ∧
    ∀ o ∈ after s st.mapped, ∀ r' ∈ st.surfaceRect c o, r.intersects r' = false

/-- The texture has the contents of the buffer shown. -/
def Textured (st : TextureScene α β) (s : α) : Prop :=
  ∀ b ∈ (st.surface s).currentBuffer, ∃ t ∈ (st.surface s).texture, t.Same b

/-- The texels along one axis that linear filtering mixes for an output pixel of the surface. -/
def texels (scale size pixel : Int) : List Int :=
  let place := 2 * pixel + 1 - scale
  let within (i : Int) : Int := max 0 (min i (size - 1))
  -- At the centre of a texel no other one takes part.
  if place % (2 * scale) = 0 then [within (place / (2 * scale))]
  else [within (place / (2 * scale)), within (place / (2 * scale) + 1)]

def sample (st : TextureScene α β) (s : α) (x y : Int) : Option (List β) :=
  match (st.surface s).currentBuffer, st.surfaceRect c s with
  | some b, some r =>
    if s ∈ st.mapped ∧ r.Contains x y then
      some ((texels c.scale b.width (x - r.x0)).flatMap fun i =>
        (texels c.scale b.height (y - r.y0)).map fun j => b.content i j)
    else none
  | _, _ => none

def Event.repaints : Event α β → Bool
  | .recomposite .. => true
  | _ => false

/--
Damage reaches the texture and the screen.

What is applied was committed, the damage requested for it is still recorded unless everything is
uploaded, and a surface that is shown does not shrink.
-/
def Condition (st : TextureScene α β) : Event α β → Prop
  | .damageBuffer _ r => r.x + r.w < 2 ^ 31 ∧ r.y + r.h < 2 ^ 31
  | .apply s _ =>
    let x := st.surface s
    x.ahead = false ∧ (x.bufferAttached = true → ∀ b ∈ x.pendingBuffer,
      (s ∈ st.mapped → ∀ a ∈ x.currentBuffer, a.width ≤ b.width ∧ a.height ≤ b.height) ∧
      (x.Preserves (some b) → (s ∈ st.mapped → c.scale = 1) ∧
        ∀ i j, b.Contains i j → DamageReport.Covered x.waiting i j →
          DamageReport.Covered x.glDirtyRects i j))
  | _ => True

/-- What clients request, and repaints. -/
inductive Request (α β : Type*) where
  -- A buffer, or none, for the next commit.
  | attach (s : α) (buffer : Option (ShmBuffer β))
  -- A part of the surface, or of the buffer, has changed.
  | damage (s : α) (r : DamageReport)
  | damageBuffer (s : α) (r : DamageReport)
  | commit (s : α) (input : α → MapInput)
  -- Commits of a subsurface are to wait for its parent's, or not.
  | setSync (s : α)
  | setDesync (s : α) (input : α → MapInput)
  -- The output is repainted, where some surfaces hide what is behind them.
  | recomposite (age : Nat) (solid : α → Bool)

def request (st : TextureScene α β) : Request α β → TextureScene α β
  | .attach s buffer => st.modify s (·.attach buffer)
  | .damage s r => st.surfaceDamage c s r
  | .damageBuffer s r => st.surfaceDamageBuffer c s r
  | .commit s input => st.surfaceCommit c s input
  | .setSync s => st.setSync s true
  | .setDesync s input => st.subsurfaceSetDesync c s input
  | .recomposite age solid => st.recompositeNow c age solid

def applySteps (input : α → MapInput) (st : TextureScene α β) (s : α) : List (Event α β) :=
  (c.forest.cascade
    { own := fun (p : TextureScene α β × List (Event α β)) s =>
        (p.1.applyOwn c s (input s), p.2 ++ [.apply s (input s)])
      ready := fun p s => (p.1.surface s).sync && (p.1.surface s).cachePending
      enter := fun p s => (p.1.cache s false, p.2 ++ [.cache s false]) } (st, []) s).2

def steps (st : TextureScene α β) : Request α β → List (Event α β)
  | .attach s buffer => [.attach s buffer]
  | .damage s r => [.damage s r]
  | .damageBuffer s r => [.damageBuffer s r]
  | .commit s input =>
    .note s ::
      if (c.forest.parent s).isSome = true ∧ (st.surface s).sync = true then [.cache s true]
      else applySteps c input (st.modify s TextureSurface.note) s
  | .setSync s => [.setSync s true]
  | .setDesync s input =>
    .setSync s false ::
      if (st.surface s).cachePending then
        .cache s false :: applySteps c input ((st.setSync s false).cache s false) s
      else []
  | .recomposite age solid => [.recomposite age solid]

/-- Buffers have pixels, and clients request damage for all that their commits change. -/
def Permitted (st : TextureScene α β) : Request α β → Prop
  | .attach s buffer => st.Allowed (.attach s buffer)
  | .commit s _ => st.Allowed (.note s)
  | _ => True

def requests : Machine (TextureScene α β) (Request α β) where
  start st := st = {}
  enabled := Permitted
  next := request c

def Request.repaints : Request α β → Bool
  | .recomposite .. => true
  | _ => false

/-- An output pixel that the surface covers, and that a request changes. -/
def Changes (st : TextureScene α β) (event : Request α β) (s : α) (x y : Int) : Prop :=
  (⟨0, 0, c.width, c.height⟩ : Rect).Contains x y ∧
    ((st.request c event).sample c s x y).isSome = true ∧
    (st.request c event).sample c s x y ≠ st.sample c s x y

/-- Every step of the request meets the condition for that. -/
def Meets (st : TextureScene α β) (event : Request α β) : Prop :=
  ((machine c).restrict (Condition c)).Admits st (st.steps c event)

end TextureScene

end Xios
