import Xios.Output.Damage
import Xios.Output.Extent
import Xios.Output.Texture

/-! Damage that clients request, in the 32-bit arithmetic that carries it to the output. -/

namespace Xios

/-- A rectangle of a request, or one kept for later. -/
structure DirtyRect where
  x : Int32
  y : Int32
  w : Int32
  h : Int32
  deriving DecidableEq

def DirtyRect.report (r : DirtyRect) : DamageReport :=
  ⟨r.x.toInt, r.y.toInt, r.w.toInt, r.h.toInt⟩

/-- A surface as a damage request finds it. -/
structure DirtySurface extends ShownSurface where
  -- It is in the list of surfaces shown.
  mapped : Bool := true
  -- Its texture has to be uploaded again, within some rectangles if any are listed.
  glDirty : Bool := false
  glDirtyRects : List DamageReport := []
  -- The compositor draws it at this place, as the cursor or as the icon of a drag.
  overlay : Option Point := none

/-- The damage of the output, and a surface of it. -/
structure DamageState where
  surface : DirtySurface
  damage : OutputDamage := {}

theorem OutputDamage.wellFormed_empty : ({} : OutputDamage).WellFormed :=
  ⟨by decide, by decide, by simp, by simp⟩

def outputDamageAddPx (o : Screen) (d : OutputDamage) (r : DamageReport) : Option OutputDamage :=
  if r.w ≤ 0 ∨ r.h ≤ 0 then some d
  else do
    let _ ← Signed.int32 (r.x + r.w)
    let _ ← Signed.int32 (r.y + r.h)
    some (d.addPx o.width o.height r)

theorem outputDamageAddPx_eq {o : Screen} (d : OutputDamage) {r : DamageReport}
    (columns : -2147483648 ≤ r.x + r.w ∧ r.x + r.w ≤ 2147483647)
    (rows : -2147483648 ≤ r.y + r.h ∧ r.y + r.h ≤ 2147483647) :
    outputDamageAddPx o d r = some (d.addPx o.width o.height r) := by
  unfold outputDamageAddPx
  split
  · rename_i empty
    rw [OutputDamage.addPx, if_pos empty]
  · rw [Signed.int32_of_fits columns.1 columns.2, Signed.int32_of_fits rows.1 rows.2]
    rfl

namespace DirtySurface

def scaled (o : Screen) (r : DamageReport) : Option DamageReport := do
  let x ← Signed.int32 (r.x * o.outputScale)
  let y ← Signed.int32 (r.y * o.outputScale)
  let w ← Signed.int32 (r.w * o.outputScale)
  let h ← Signed.int32 (r.h * o.outputScale)
  some ⟨x, y, w, h⟩

def outputDamageAddSurfaceRect (o : Screen) (s : DirtySurface) (d : OutputDamage)
    (r : DamageReport) : Option OutputDamage :=
  if r.w ≤ 0 ∨ r.h ≤ 0 ∨ s.mapped = false then some d
  else do
    let x ← Signed.int32 (s.dx + r.x)
    let y ← Signed.int32 (s.dy + r.y)
    outputDamageAddPx o d (← scaled o ⟨x, y, r.w, r.h⟩)

def outputDamageAddOverlaySurface (o : Screen) (s : DirtySurface) (d : OutputDamage) :
    Option (Bool × OutputDamage) :=
  match s.overlay with
  | none => some (false, d)
  | some p =>
    let (w, h) := s.displaySize
    if s.currentBuffer = none ∨ w ≤ 0 ∨ h ≤ 0 then some (false, d)
    else do some (true, ← outputDamageAddPx o d (← scaled o ⟨p.x, p.y, w, h⟩))

/-- `surface_gl_dirty_full` -/
def glDirtyFull (s : DirtySurface) : DirtySurface :=
  { s with glDirty := true, glDirtyRects := [] }

/-- One axis of the clipping in `surface_gl_dirty_buffer_rect` -/
def clipAxis (start length size : Int) : Option (Int × Int) := do
  let length ← if start < 0 then Signed.int32 (length + start) else some length
  let start := if start < 0 then 0 else start
  if size ≤ 0 then some (start, length)
  else
    let reach ← Signed.int32 (start + length)
    if size < reach then do some (start, ← Signed.int32 (size - start))
    else some (start, length)

def noteDirty (s : DirtySurface) (r : DamageReport) : DirtySurface :=
  if r.w ≤ 0 ∨ r.h ≤ 0 then s
  -- All of the texture is uploaded already.
  else if s.glDirty = true ∧ s.glDirtyRects = [] then s
  else if maxShmDirtyRects ≤ s.glDirtyRects.length then s.glDirtyFull
  else { s with glDirty := true, glDirtyRects := s.glDirtyRects ++ [r] }

/-- `surface_gl_dirty_buffer_rect` -/
def glDirtyBufferRect (s : DirtySurface) (r : DamageReport) : Option DirtySurface :=
  if r.w ≤ 0 ∨ r.h ≤ 0 then some s
  else do
    let (x, w) ← clipAxis r.x r.w s.size.width
    let (y, h) ← clipAxis r.y r.h s.size.height
    some (s.noteDirty ⟨x, y, w, h⟩)

end DirtySurface

namespace DamageState

/-- The end of both requests: damage where the surface is an overlay, or else a part of it -/
def addRequest (o : Screen) (st : DamageState) (r : DamageReport) : Option DamageState := do
  let (overlaid, d) ← st.surface.outputDamageAddOverlaySurface o st.damage
  if overlaid then some { st with damage := d }
  else some { st with damage := ← st.surface.outputDamageAddSurfaceRect o st.damage r }

def surfaceDamage (o : Screen) (st : DamageState) (r : DirtyRect) : Option DamageState :=
  { st with surface := st.surface.glDirtyFull }.addRequest o r.report

/-- `(v + scale - 1) / scale` -/
def roundedUp (v scale : Int) : Option Int := do
  let sum ← Signed.int32 (v + scale)
  let sum ← Signed.int32 (sum - 1)
  some (sum.tdiv scale)

def surfaceDamageBuffer (o : Screen) (st : DamageState) (r : DirtyRect) : Option DamageState := do
  let s ← st.surface.glDirtyBufferRect r.report
  let w ← roundedUp r.w.toInt s.scale
  let h ← roundedUp r.h.toInt s.scale
  { st with surface := s }.addRequest o ⟨r.x.toInt.tdiv s.scale, r.y.toInt.tdiv s.scale, w, h⟩

end DamageState

end Xios
