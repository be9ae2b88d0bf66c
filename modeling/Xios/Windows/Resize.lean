import Xios.Output.Extent

/-! Windows that the user moves or resizes, and which of their edges stay in place meanwhile. -/

namespace Xios

/-- What the user does with a window. -/
inductive InteractiveOp where
  | none
  | move
  | resize
  deriving DecidableEq, Repr

def resizeHasLeft (edges : BitVec 32) : Bool :=
  edges = 4 || edges = 5 || edges = 6

def resizeHasRight (edges : BitVec 32) : Bool :=
  edges = 8 || edges = 9 || edges = 10

def resizeHasTop (edges : BitVec 32) : Bool :=
  edges = 1 || edges = 5 || edges = 9

def resizeHasBottom (edges : BitVec 32) : Bool :=
  edges = 2 || edges = 6 || edges = 10

/--
A window, and what the user has begun to do with it.

Positions of windows and of the pointer are `int` in the code, and whole numbers here: sums of them
are taken to fit.
-/
structure InteractiveWindow where
  surface : ShownSurface
  xdgToplevel : Bool := true
  cursor : Point := {}
  op : InteractiveOp := .none
  edges : BitVec 32 := 0
  -- The pointer, the position of the window and the size of its geometry at the beginning.
  px : Int := 0
  py : Int := 0
  dx : Int := 0
  dy : Int := 0
  w : Int := 0
  h : Int := 0
  -- The client is told that a resize is going on.
  resizing : Bool := false
  -- The size the client was last told.
  configured : Option (Int × Int) := none

namespace InteractiveWindow

/-- `interactive_begin` -/
def begin (st : InteractiveWindow) (op : InteractiveOp) (edges : BitVec 32) : InteractiveWindow :=
  if st.xdgToplevel = false then st
  else
    let g := st.surface.surfaceGeometry
    let begun :=
      { st with
        op
        edges
        px := st.cursor.x
        py := st.cursor.y
        dx := st.surface.dx
        dy := st.surface.dy
        w := g.w
        h := g.h }
    if op = .resize then
      { begun with
        resizing := true
        configured := some (if 1 < g.w then g.w else 1, if 1 < g.h then g.h else 1) }
    else begun

def moveAxis (start delta offset length workStart workLength : Int) : Int :=
  let least := workStart - offset
  let most := workStart + workLength - length - offset
  clampi (start + delta) least (if most < least then least else most)

def resizeAxis (low high : Bool) (start length delta offset workStart workLength least : Int) :
    Int × Int :=
  let n := if low then start + delta else start
  let len := if low then length - delta else length
  let len := if high then length + delta else len
  let len := clampi len least workLength
  (clampi n (workStart - offset) (workStart + workLength - len - offset), len)

def update (work : Area) (st : InteractiveWindow) (p : Point) : InteractiveWindow :=
  let dx := p.x - st.px
  let dy := p.y - st.py
  let g := st.surface.surfaceGeometry
  match st.op with
  | .none => st
  | .move =>
    { st with
      surface := st.surface.place (moveAxis st.dx dx g.x g.w work.x work.w)
        (moveAxis st.dy dy g.y g.h work.y work.h) }
  | .resize =>
    let (nx, nw) := resizeAxis (resizeHasLeft st.edges) (resizeHasRight st.edges) st.dx st.w dx g.x
      work.x work.w 80
    let (ny, nh) := resizeAxis (resizeHasTop st.edges) (resizeHasBottom st.edges) st.dy st.h dy g.y
      work.y work.h 60
    { st with surface := st.surface.place nx ny, configured := some (nw, nh) }

/-- The geometry of the window lies within the work area. -/
def Inside (work : Area) (st : InteractiveWindow) : Prop :=
  let g := st.surface.surfaceGeometry
  work.x ≤ st.surface.dx + g.x ∧ st.surface.dx + g.x + g.w ≤ work.x + work.w ∧
    work.y ≤ st.surface.dy + g.y ∧ st.surface.dy + g.y + g.h ≤ work.y + work.h
  deriving Decidable

/-- An interval that a resize asks for lies within the work area, is long enough, and has kept the
edge that is not dragged. -/
def AxisKept (low : Bool) (start length workStart workLength least first size : Int) : Prop :=
  workStart ≤ first ∧ first + size ≤ workStart + workLength ∧ least ≤ size ∧ size ≤ workLength ∧
    if low then first + size = start + length else first = start
  deriving Decidable

/-- The geometry a resize asks for has kept to the work area and its edges. -/
def Kept (work : Area) (begun st : InteractiveWindow) : Prop :=
  let g := begun.surface.surfaceGeometry
  ∃ size, st.configured = some size ∧
    AxisKept (resizeHasLeft begun.edges) (begun.surface.dx + g.x) g.w work.x work.w 80
      (st.surface.dx + st.surface.surfaceGeometry.x) size.1 ∧
    AxisKept (resizeHasTop begun.edges) (begun.surface.dy + g.y) g.h work.y work.h 60
      (st.surface.dy + st.surface.surfaceGeometry.y) size.2

/-- The pointer has not been dragged to where the edge that is not dragged moves. -/
def AxisFree (low high : Bool) (start length delta workStart workLength least : Int) : Prop :=
  if low then
    -- The other edge lies at the border, or there is room on both sides of the dragged one.
    start + length = workStart + workLength ∨ least ≤ length - delta ∧ workStart ≤ start + delta
  else if high then
    start = workStart ∨
      start + least ≤ workStart + workLength ∧ start + length + delta ≤ workStart + workLength
  else start + least ≤ workStart + workLength
  deriving Decidable

theorem resizeAxis_kept_iff {low high : Bool}
    {start length delta offset workStart workLength least : Int} (apart : ¬(low ∧ high))
    (room : least ≤ workLength) (left : workStart ≤ start + offset)
    (right : start + offset + length ≤ workStart + workLength) :
    AxisKept low (start + offset) length workStart workLength least
        ((resizeAxis low high start length delta offset workStart workLength least).1 + offset)
        (resizeAxis low high start length delta offset workStart workLength least).2 ↔
      AxisFree low high (start + offset) length delta workStart workLength least := by
  cases low with
  | true =>
    -- The far edge moves where a clamp holds the length and the position apart.
    simp only [AxisKept, AxisFree, resizeAxis, clampi, ↓reduceIte] at *
    simp only [true_and, Bool.not_eq_true] at apart
    simp only [apart, Bool.false_eq_true, ↓reduceIte]
    omega
  | false =>
    cases high with
    | true =>
      simp only [AxisKept, AxisFree, resizeAxis, clampi, Bool.false_eq_true, ↓reduceIte] at *
      omega
    | false =>
      simp only [AxisKept, AxisFree, resizeAxis, clampi, Bool.false_eq_true, ↓reduceIte] at *
      omega

/-- Only the position of the window and the size its client was told differ. -/
structure SameDrag (a b : InteractiveWindow) : Prop where
  op : b.op = a.op
  edges : b.edges = a.edges
  pointer : b.px = a.px ∧ b.py = a.py
  position : b.dx = a.dx ∧ b.dy = a.dy
  size : b.w = a.w ∧ b.h = a.h
  geometry : b.surface.surfaceGeometry = a.surface.surfaceGeometry

theorem SameDrag.update {a b : InteractiveWindow} (same : SameDrag a b) (work : Area) (p : Point) :
    SameDrag a (b.update work p) := by
  obtain ⟨op, edges, pointer, position, size, geometry⟩ := same
  unfold InteractiveWindow.update
  simp only
  split
  · exact ⟨op, edges, pointer, position, size, geometry⟩
  · exact ⟨op, edges, pointer, position, size, geometry⟩
  · exact ⟨op, edges, pointer, position, size, geometry⟩

theorem SameDrag.run {a b : InteractiveWindow} (same : SameDrag a b) (work : Area)
    (motions : List Point) : SameDrag a (motions.foldl (InteractiveWindow.update work) b) := by
  induction motions generalizing b with
  | nil => exact same
  | cons p rest ih => exact ih (same.update work p)

theorem resizeHas_apart (edges : BitVec 32) :
    ¬(resizeHasLeft edges = true ∧ resizeHasRight edges = true) ∧
      ¬(resizeHasTop edges = true ∧ resizeHasBottom edges = true) := by
  simp only [resizeHasLeft, resizeHasRight, resizeHasTop, resizeHasBottom, Bool.or_eq_true,
    decide_eq_true_eq]
  constructor
  · rintro ⟨(rfl | rfl) | rfl, (other | other) | other⟩ <;> exact absurd other (by decide)
  · rintro ⟨(rfl | rfl) | rfl, (other | other) | other⟩ <;> exact absurd other (by decide)

/-- After each motion the window has kept to the work area and its edges exactly if the pointer is
where the edges that are not dragged are free. -/
theorem resize_kept_iff (start : InteractiveWindow) (toplevel : start.xdgToplevel = true)
    (edges : BitVec 32) (work : Area) (wide : 80 ≤ work.w) (high : 60 ≤ work.h)
    (inside : start.Inside work) (before : List Point) (p : Point) :
    Kept work (start.begin .resize edges)
        ((before ++ [p]).foldl (InteractiveWindow.update work) (start.begin .resize edges)) ↔
      AxisFree (resizeHasLeft edges) (resizeHasRight edges)
          (start.surface.dx + start.surface.surfaceGeometry.x) start.surface.surfaceGeometry.w
          (p.x - start.cursor.x) work.x work.w 80 ∧
        AxisFree (resizeHasTop edges) (resizeHasBottom edges)
          (start.surface.dy + start.surface.surfaceGeometry.y) start.surface.surfaceGeometry.h
          (p.y - start.cursor.y) work.y work.h 60 := by
  obtain ⟨left, right, top, bottom⟩ := inside
  obtain ⟨across, along⟩ := resizeHas_apart edges
  have same : SameDrag (start.begin .resize edges) (start.begin .resize edges) :=
    ⟨rfl, rfl, ⟨rfl, rfl⟩, ⟨rfl, rfl⟩, ⟨rfl, rfl⟩, rfl⟩
  -- The last motion starts from what was noted at the beginning, whatever came before it.
  have last := same.run work before
  rw [List.foldl_append, List.foldl_cons, List.foldl_nil]
  generalize before.foldl (InteractiveWindow.update work) (start.begin .resize edges) = st at last ⊢
  obtain ⟨op, sameEdges, pointer, position, size, geometry⟩ := last
  have begun : (start.begin .resize edges).surface = start.surface := by simp [begin, toplevel]
  rw [begun] at geometry
  simp only [begin, toplevel, Bool.true_eq_false, ↓reduceIte] at op sameEdges pointer position size
  rw [← resizeAxis_kept_iff across wide left right, ← resizeAxis_kept_iff along high top bottom]
  simp only [Kept, begin, toplevel, Bool.true_eq_false, ↓reduceIte, InteractiveWindow.update, op,
    sameEdges, pointer.1, pointer.2, position.1, position.2, size.1, size.2, geometry,
    ShownSurface.place_dx, ShownSurface.place_dy, ShownSurface.place_surfaceGeometry,
    Option.some.injEq, exists_eq_left']

def middleWindow : InteractiveWindow where
  surface := { currentBuffer := some .other, size := ⟨200, 200, by decide⟩, dx := 100, dy := 100 }

theorem resize_kept_left :
    Kept ⟨0, 0, 400, 400⟩ (middleWindow.begin .resize 4)
      (([⟨150, 0⟩] ++ [⟨-50, 0⟩] : List Point).foldl (InteractiveWindow.update ⟨0, 0, 400, 400⟩)
        (middleWindow.begin .resize 4)) :=
  (resize_kept_iff middleWindow rfl 4 ⟨0, 0, 400, 400⟩ (by decide) (by decide) (by decide)
    [⟨150, 0⟩] ⟨-50, 0⟩).mpr (by decide)

/-- A drag of the left edge to the right, past the least width, takes the right edge along. -/
theorem resize_moves_right :
    ¬Kept ⟨0, 0, 400, 400⟩ (middleWindow.begin .resize 4)
      ((middleWindow.begin .resize 4).update ⟨0, 0, 400, 400⟩ ⟨150, 0⟩) := by
  have asked : ((middleWindow.begin .resize 4).update ⟨0, 0, 400, 400⟩ ⟨150, 0⟩).configured =
      some (80, 200) := by decide
  rintro ⟨size, told, kept, -⟩
  rw [asked] at told
  obtain rfl := Option.some.inj told
  exact absurd kept (by decide)

end InteractiveWindow

end Xios
