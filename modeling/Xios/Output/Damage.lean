import Xios.Lib.Rect
import Xios.Lib.Signed
import Mathlib.Logic.Function.Basic

/-! Output damage and its per-frame history, as the compositor accumulates and consumes them. -/

namespace Xios

/-- Number of damage rectangles kept before falling back to their union. -/
def maxOutputDamageRects : Nat := 16

/-- Damage accumulated since the last frame. -/
structure OutputDamage where
  -- Something is damaged.
  valid : Bool := false
  -- The list has been given up in favour of the union.
  coarse : Bool := false
  rects : List Rect := []
  -- Union of everything damaged, meaningful while something is.
  bounds : Rect := ⟨0, 0, 0, 0⟩
  deriving DecidableEq, Repr

/-- One rectangle of damage as callers report it, in output pixels. -/
structure DamageReport where
  -- Left edge.
  x : Int
  -- Top edge.
  y : Int
  -- Width, ignored unless positive.
  w : Int
  -- Height, ignored unless positive.
  h : Int
  deriving DecidableEq, Repr

/-- The pixel lies in the reported rectangle. -/
def DamageReport.Contains (report : DamageReport) (x y : Int) : Prop :=
  report.x ≤ x ∧ x < report.x + report.w ∧ report.y ≤ y ∧ y < report.y + report.h
  deriving Decidable

/-- The edges of the report can be computed by the machine. -/
def DamageReport.Fits (report : DamageReport) : Prop :=
  Signed.Fits32 report.x ∧ Signed.Fits32 report.y ∧ Signed.Fits32 report.w ∧
    Signed.Fits32 report.h ∧ Signed.Fits32 (report.x + report.w) ∧
    Signed.Fits32 (report.y + report.h)
  deriving Decidable

namespace OutputDamage

def setCoarseUnion (d : OutputDamage) : OutputDamage :=
  if d.valid then { d with coarse := true, rects := [d.bounds] } else d

def unionAddRect (d : OutputDamage) (r : Rect) : OutputDamage :=
  if d.valid then { d with bounds := d.bounds.hull r }
  else { d with valid := true, bounds := r }

/--
Merge a rectangle into the first listed one it touches, if there is one.

The grown rectangle then swallows whatever it now touches, scanning the list from its start.
-/
def mergeRect (r : Rect) : List Rect → List Rect → Option (List Rect)
  | _, [] => none
  | before, head :: after =>
    if head.touches r then
      let (grown, before) := (head.hull r).absorb before
      let (grown, after) := grown.absorb after
      some (before ++ grown :: after)
    else mergeRect r (before ++ [head]) after

def addRect (d : OutputDamage) (r : Rect) : OutputDamage :=
  let d := d.unionAddRect r
  if d.coarse then d.setCoarseUnion
  else
    match mergeRect r [] d.rects with
    | some rects => { d with rects }
    | none =>
      if d.rects.length < maxOutputDamageRects then { d with rects := d.rects ++ [r] }
      else d.setCoarseUnion

/-- Add a report whose edges fit into 32 bits, as those of rectangles that are kept do. -/
def addPx (width height : Int) (d : OutputDamage) (report : DamageReport) : OutputDamage :=
  if report.w ≤ 0 ∨ report.h ≤ 0 then d
  else
    let r : Rect := ⟨max report.x 0, max report.y 0, min (report.x + report.w) width,
      min (report.y + report.h) height⟩
    if r.x1 ≤ r.x0 ∨ r.y1 ≤ r.y0 then d else d.addRect r

/-- Add any report, with its right and bottom edges in the arithmetic of the machine. -/
def addPx32 (width height : Int) (d : OutputDamage) (report : DamageReport) : OutputDamage :=
  if report.w ≤ 0 ∨ report.h ≤ 0 then d
  else
    -- An edge past the largest number becomes negative, which leaves nothing of the rectangle.
    let r : Rect := ⟨max report.x 0, max report.y 0,
      min ((report.x + report.w).bmod 4294967296) width,
      min ((report.y + report.h).bmod 4294967296) height⟩
    if r.x1 ≤ r.x0 ∨ r.y1 ≤ r.y0 then d else d.addRect r

def addFull (width height : Int) (d : OutputDamage) : OutputDamage :=
  d.addPx width height ⟨0, 0, width, height⟩

/-- A pixel is damaged. -/
def Covers (d : OutputDamage) (x y : Int) : Prop :=
  d.valid = true ∧ Rect.Covers d.rects x y

/-- What every sequence of additions maintains. -/
structure WellFormed (d : OutputDamage) : Prop where
  -- The list fits the array it is kept in.
  capacity : d.rects.length ≤ maxOutputDamageRects
  -- There is a rectangle exactly when something is damaged.
  listed : d.valid = true ↔ d.rects ≠ []
  -- The union reaches around every listed rectangle.
  bounded : ∀ r ∈ d.rects, r.Within d.bounds
  -- Once the list has been given up, it is the union.
  union : d.coarse = true → d.valid = true → d.rects = [d.bounds]

variable {x y : Int}

theorem mergeRect_covers {r : Rect} {before after merged : List Rect}
    (found : mergeRect r before after = some merged)
    (covered : r.Contains x y ∨ Rect.Covers (before ++ after) x y) : Rect.Covers merged x y := by
  -- The induction follows the search for the first rectangle that touches the new one.
  induction after generalizing before with
  | nil => simp [mergeRect] at found
  | cons head rest ih =>
    simp only [mergeRect] at found
    split at found
    · obtain rfl := Option.some.inj found
      have first : ((head.hull r).absorb before).1.Contains x y ∨
          Rect.Covers ((head.hull r).absorb before).2 x y ∨ Rect.Covers rest x y := by
        simp only [Rect.covers_append, Rect.covers_cons] at covered
        rcases covered with inside | covered | inside | covered
        · exact (Rect.absorb_covers (Or.inl ((Rect.within_hull_right head r).contains inside))).imp
            id Or.inl
        · exact (Rect.absorb_covers (Or.inr covered)).imp id Or.inl
        · exact (Rect.absorb_covers (Or.inl ((Rect.within_hull_left head r).contains inside))).imp
            id Or.inl
        · exact Or.inr (Or.inr covered)
      simp only [Rect.covers_append, Rect.covers_cons]
      rcases first with inside | covered | covered
      · exact Or.inr (Rect.absorb_covers (Or.inl inside))
      · exact Or.inl covered
      · exact Or.inr (Rect.absorb_covers (Or.inr covered))
    · exact ih found (by simpa using covered)

theorem mergeRect_length {r : Rect} {before after merged : List Rect}
    (found : mergeRect r before after = some merged) :
    merged.length ≤ (before ++ after).length ∧ merged ≠ [] := by
  induction after generalizing before with
  | nil => simp [mergeRect] at found
  | cons head rest ih =>
    simp only [mergeRect] at found
    split at found
    · obtain rfl := Option.some.inj found
      have shorter := Rect.absorb_length (head.hull r) before
      have shortest := Rect.absorb_length ((head.hull r).absorb before).1 rest
      exact ⟨by simp; omega, by simp⟩
    · simpa using ih found

theorem mergeRect_all {holds : Rect → Prop}
    (hull : ∀ {a b : Rect}, holds a → holds b → holds (a.hull b)) {r : Rect}
    {before after merged : List Rect} (found : mergeRect r before after = some merged)
    (own : holds r) (others : ∀ other ∈ before ++ after, holds other) :
    ∀ other ∈ merged, holds other := by
  induction after generalizing before with
  | nil => simp [mergeRect] at found
  | cons head rest ih =>
    simp only [mergeRect] at found
    split at found
    · obtain rfl := Option.some.inj found
      have older := Rect.absorb_all hull before (hull (others head (by simp)) own)
        fun other member => others other (by simp [member])
      have newer := Rect.absorb_all hull rest older.1
        fun other member => others other (by simp [member])
      intro other member
      rcases List.mem_append.mp member with kept | last
      · exact older.2 other kept
      · rcases List.mem_cons.mp last with rfl | kept
        · exact newer.1
        · exact newer.2 other kept
    · exact ih found (by simpa using others)

variable {d : OutputDamage}

theorem unionAddRect_bounds (well : d.WellFormed) (r : Rect) :
    r.Within (d.unionAddRect r).bounds ∧ ∀ other ∈ d.rects, other.Within (d.unionAddRect r).bounds := by
  unfold unionAddRect
  split
  · exact ⟨Rect.within_hull_right _ _, fun other member =>
      (well.bounded other member).trans (Rect.within_hull_left _ _)⟩
  · rename_i undamaged
    have empty : d.rects = [] := by
      by_contra listed
      exact undamaged (well.listed.mpr listed)
    exact ⟨Rect.Within.refl r, by simp [empty]⟩

theorem unionAddRect_fields (d : OutputDamage) (r : Rect) :
    (d.unionAddRect r).valid = true ∧ (d.unionAddRect r).rects = d.rects ∧
      (d.unionAddRect r).coarse = d.coarse := by
  unfold unionAddRect
  split
  · rename_i damaged
    exact ⟨damaged, rfl, rfl⟩
  · exact ⟨rfl, rfl, rfl⟩

/-- A rectangle is added to the pending damage, which loses nothing by merging. -/
theorem addRect_spec (well : d.WellFormed) (r : Rect) :
    (d.addRect r).WellFormed ∧
      ∀ x y, r.Contains x y ∨ d.Covers x y → (d.addRect r).Covers x y := by
  obtain ⟨own, others⟩ := unionAddRect_bounds well r
  obtain ⟨damaged, sameRects, sameCoarse⟩ := unionAddRect_fields d r
  unfold addRect
  generalize d.unionAddRect r = after at own others damaged sameRects sameCoarse
  -- Falling back to the union covers everything, since the union reaches around it all.
  have whole : after.setCoarseUnion.WellFormed ∧
      ∀ x y, r.Contains x y ∨ d.Covers x y → after.setCoarseUnion.Covers x y := by
    simp only [setCoarseUnion, damaged, ↓reduceIte]
    refine ⟨⟨by simp [maxOutputDamageRects], by simp,
      by simpa using Rect.Within.refl _, by simp⟩, ?_⟩
    rintro x y (inside | ⟨-, other, member, inside⟩)
    · exact ⟨rfl, by simpa using own.contains inside⟩
    · exact ⟨rfl, by simpa using (others other member).contains inside⟩
  simp only
  split
  · exact whole
  · rename_i fine
    split
    · -- A touching rectangle was found, and the merged list replaces the old one.
      rename_i merged found
      rw [sameRects] at found
      obtain ⟨shorter, nonempty⟩ := mergeRect_length found
      have bounded := mergeRect_all Rect.hull_within found own (by simpa using others)
      refine ⟨⟨shorter.trans (by simpa using well.capacity), by simpa [damaged] using nonempty,
        bounded, fun coarse => absurd coarse fine⟩, ?_⟩
      rintro x y (inside | ⟨-, covered⟩)
      · exact ⟨damaged, mergeRect_covers found (Or.inl inside)⟩
      · exact ⟨damaged, mergeRect_covers found (Or.inr (by simpa using covered))⟩
    · split
      · -- Nothing touches the new rectangle, and there is room for it.
        rename_i room
        rw [sameRects] at room
        refine ⟨⟨by simpa [sameRects] using Nat.succ_le_of_lt room, by simp [damaged], ?_,
          fun coarse => absurd coarse fine⟩, ?_⟩
        · intro other member
          rw [sameRects] at member
          rcases List.mem_append.mp member with old | new
          · exact others other old
          · obtain rfl := List.mem_singleton.mp new
            exact own
        · rintro x y (inside | ⟨-, covered⟩)
          · exact ⟨damaged, by simp [sameRects, inside]⟩
          · exact ⟨damaged, by simp [sameRects, covered]⟩
      · exact whole

theorem WellFormed.addPx (well : d.WellFormed) (width height : Int) (report : DamageReport) :
    (d.addPx width height report).WellFormed := by
  unfold OutputDamage.addPx
  split
  · exact well
  · simp only
    split
    · exact well
    · exact (addRect_spec well _).1

theorem addPx_mono (well : d.WellFormed) (width height : Int) (report : DamageReport)
    (covered : d.Covers x y) : (d.addPx width height report).Covers x y := by
  unfold OutputDamage.addPx
  split
  · exact covered
  · simp only
    split
    · exact covered
    · exact (addRect_spec well _).2 x y (Or.inr covered)

theorem addPx_covers (well : d.WellFormed) {width height : Int} {report : DamageReport}
    (inside : (⟨0, 0, width, height⟩ : Rect).Contains x y) (reported : report.Contains x y) :
    (d.addPx width height report).Covers x y := by
  simp only [Rect.Contains] at inside
  simp only [DamageReport.Contains] at reported
  unfold OutputDamage.addPx
  rw [if_neg (by omega)]
  simp only
  rw [if_neg (by omega)]
  exact (addRect_spec well _).2 x y (Or.inl (by simp only [Rect.Contains]; omega))

theorem addPx32_of_fits (width height : Int) (d : OutputDamage) {report : DamageReport}
    (fits : report.Fits) : d.addPx32 width height report = d.addPx width height report := by
  obtain ⟨-, -, -, -, ⟨left, right⟩, top, bottom⟩ := fits
  have column : (report.x + report.w).bmod 4294967296 = report.x + report.w :=
    Int.bmod_eq_of_le (by omega) (by omega)
  have row : (report.y + report.h).bmod 4294967296 = report.y + report.h :=
    Int.bmod_eq_of_le (by omega) (by omega)
  rw [addPx32, addPx, column, row]

theorem addPx32_spec (well : d.WellFormed) (width height : Int) (report : DamageReport) :
    (d.addPx32 width height report).WellFormed ∧
      ∀ x y, d.Covers x y → (d.addPx32 width height report).Covers x y := by
  unfold addPx32
  split
  · exact ⟨well, fun _ _ covered => covered⟩
  · simp only
    split
    · exact ⟨well, fun _ _ covered => covered⟩
    · have added := addRect_spec well ⟨max report.x 0, max report.y 0,
        min ((report.x + report.w).bmod 4294967296) width,
        min ((report.y + report.h).bmod 4294967296) height⟩
      exact ⟨added.1, fun x y covered => added.2 x y (Or.inr covered)⟩

/-- Reports that are added one after the other are all covered if each is when it is added. -/
theorem foldl_spec {add : OutputDamage → DamageReport → OutputDamage}
    {named : DamageReport → Int → Int → Prop}
    (adds : ∀ d report, d.WellFormed → (add d report).WellFormed ∧
      ∀ x y, d.Covers x y ∨ named report x y → (add d report).Covers x y)
    (well : d.WellFormed) (reports : List DamageReport) :
    (reports.foldl add d).WellFormed ∧
      ∀ x y, (d.Covers x y ∨ ∃ report ∈ reports, named report x y) →
        (reports.foldl add d).Covers x y := by
  -- The induction is on the reports, each of which is covered from its addition on.
  induction reports generalizing d with
  | nil => exact ⟨well, by simp⟩
  | cons report rest ih =>
    obtain ⟨wellNext, covers⟩ := adds d report well
    obtain ⟨wellAfter, later⟩ := ih wellNext
    refine ⟨wellAfter, ?_⟩
    rintro x y (covered | ⟨other, member, contained⟩)
    · exact later x y (Or.inl (covers x y (Or.inl covered)))
    · rcases List.mem_cons.mp member with rfl | member
      · exact later x y (Or.inl (covers x y (Or.inr contained)))
      · exact later x y (Or.inr ⟨other, member, contained⟩)

theorem foldl_addPx_spec (well : d.WellFormed) (width height : Int) (reports : List DamageReport) :
    (reports.foldl (OutputDamage.addPx width height) d).WellFormed ∧
      ∀ x y, (d.Covers x y ∨ ∃ report ∈ reports,
          (⟨0, 0, width, height⟩ : Rect).Contains x y ∧ report.Contains x y) →
        (reports.foldl (OutputDamage.addPx width height) d).Covers x y := by
  apply foldl_spec _ well
  intro d report well
  refine ⟨well.addPx width height report, ?_⟩
  rintro x y (covered | ⟨inside, contained⟩)
  · exact addPx_mono well width height report covered
  · exact addPx_covers well inside contained

theorem foldl_addPx32_spec (well : d.WellFormed) (width height : Int)
    (reports : List DamageReport) :
    (reports.foldl (addPx32 width height) d).WellFormed ∧
      ∀ x y, (d.Covers x y ∨ ∃ report ∈ reports, report.Fits ∧
          (⟨0, 0, width, height⟩ : Rect).Contains x y ∧ report.Contains x y) →
        (reports.foldl (addPx32 width height) d).Covers x y := by
  apply foldl_spec _ well
  intro d report well
  obtain ⟨wellNext, kept⟩ := addPx32_spec well width height report
  refine ⟨wellNext, ?_⟩
  rintro x y (covered | ⟨fits, inside, contained⟩)
  · exact kept x y covered
  · rw [addPx32_of_fits width height d fits]
    exact addPx_covers well inside contained

theorem addFull_covers (well : d.WellFormed) {width height : Int}
    (inside : (⟨0, 0, width, height⟩ : Rect).Contains x y) : (d.addFull width height).Covers x y :=
  addPx_covers well inside (by simpa [DamageReport.Contains, Rect.Contains] using inside)

end OutputDamage

/-- The damage of the frame shown last. -/
structure PresentDamage where
  -- A frame has been shown.
  valid : Bool := false
  rects : List Rect := []
  deriving DecidableEq, Repr

/-- Hand the accumulated damage to a frame and start afresh, remembering what was handed out. -/
def outputDamageConsume (width height : Int) (d : OutputDamage) :
    List Rect × PresentDamage × OutputDamage :=
  let union : Rect := if d.valid then d.bounds else ⟨0, 0, width, height⟩
  let listed := if d.valid then d.rects else []
  let rects := if listed.isEmpty then [union] else listed.take maxOutputDamageRects
  (rects, { valid := true, rects }, { d with valid := false, coarse := false, rects := [] })

theorem outputDamageConsume_rects {d : OutputDamage} (well : d.WellFormed)
    (damaged : d.valid = true) (width height : Int) :
    (outputDamageConsume width height d).1 = d.rects := by
  have nonempty := well.listed.mp damaged
  simp [outputDamageConsume, damaged, nonempty, List.take_of_length_le well.capacity]

theorem outputDamageConsume_wellFormed (width height : Int) (d : OutputDamage) :
    (outputDamageConsume width height d).2.2.WellFormed :=
  ⟨by simp [outputDamageConsume], by simp [outputDamageConsume], by simp [outputDamageConsume],
    by simp [outputDamageConsume]⟩

/-- Damage of one past frame. -/
structure DamageHistoryEntry where
  -- The frame's damage was recorded.
  valid : Bool := false
  -- The rectangles painted for the frame.
  rects : List Rect := []
  deriving DecidableEq, Repr

/-- The ring of the damage of the last three frames. -/
structure DamageHistory where
  -- The ring itself.
  entries : Fin 3 → DamageHistoryEntry := fun _ => {}
  -- Number of frames recorded since the last reset.
  serial : Nat := 0

namespace DamageHistory

def entry (history : DamageHistory) (back : Nat) : DamageHistoryEntry :=
  history.entries ⟨(history.serial - back) % 3, Nat.mod_lt _ (by decide)⟩

/-- The damage of that frame is no longer, or was never, recorded. -/
def Missing (history : DamageHistory) (back : Nat) : Prop :=
  3 < back ∨ history.serial < back ∨ (history.entry back).valid = false
  deriving Decidable

/-- Add the damage of past frames, oldest last, from `back` frames ago on. -/
def applyFrom (history : DamageHistory) (width height : Int) :
    Nat → Nat → OutputDamage → OutputDamage
  | _, 0, d => d
  | back, left + 1, d =>
    if history.Missing back then d.addFull width height
    else
      -- The sums are the far edges of the rectangle again, so that they fit.
      let reports := (history.entry back).rects.map fun r =>
        { x := r.x0, y := r.y0, w := r.x1 - r.x0, h := r.y1 - r.y0 }
      history.applyFrom width height (back + 1) left
        (reports.foldl (OutputDamage.addPx width height) d)

def apply (history : DamageHistory) (width height : Int) (age : Nat) (d : OutputDamage) :
    OutputDamage :=
  if age = 0 then d.addFull width height
  else history.applyFrom width height 1 (age - 1) d

def record (history : DamageHistory) (last : PresentDamage) : DamageHistory where
  entries :=
    Function.update history.entries ⟨history.serial % 3, Nat.mod_lt _ (by decide)⟩
      (if last.valid && !last.rects.isEmpty then { valid := true, rects := last.rects } else {})
  serial := history.serial + 1

/-- A pixel that may have changed in the frame so many frames back. -/
def Touched (history : DamageHistory) (back : Nat) (x y : Int) : Prop :=
  history.Missing back ∨ Rect.Covers (history.entry back).rects x y

/-- The damage of the frames that a slot has missed is merged. -/
theorem applyFrom_spec (history : DamageHistory) (width height : Int) (left back : Nat)
    {d : OutputDamage} (well : d.WellFormed) :
    (history.applyFrom width height back left d).WellFormed ∧
      ∀ x y, (d.Covers x y ∨ (⟨0, 0, width, height⟩ : Rect).Contains x y ∧
          ∃ k, back ≤ k ∧ k < back + left ∧ history.Touched k x y) →
        (history.applyFrom width height back left d).Covers x y := by
  -- The induction is on the frames left to look at, each adding what its frame painted.
  induction left generalizing back d with
  | zero =>
    refine ⟨well, ?_⟩
    rintro x y (covered | ⟨-, k, lower, upper, -⟩)
    · exact covered
    · omega
  | succ left ih =>
    simp only [applyFrom]
    split
    · refine ⟨well.addPx _ _ _, ?_⟩
      rintro x y (covered | ⟨inside, -⟩)
      · exact OutputDamage.addPx_mono well _ _ _ covered
      · exact OutputDamage.addFull_covers well inside
    · rename_i present
      obtain ⟨wellAfter, covers⟩ := OutputDamage.foldl_addPx_spec well width height
        ((history.entry back).rects.map fun r =>
          { x := r.x0, y := r.y0, w := r.x1 - r.x0, h := r.y1 - r.y0 })
      obtain ⟨wellLater, later⟩ := ih (back + 1) wellAfter
      refine ⟨wellLater, ?_⟩
      rintro x y (covered | ⟨inside, k, lower, upper, touched⟩)
      · exact later x y (Or.inl (covers x y (Or.inl covered)))
      · by_cases same : k = back
        · subst same
          obtain ⟨r, member, contained⟩ := touched.resolve_left present
          refine later x y (Or.inl (covers x y (Or.inr ⟨_, List.mem_map_of_mem member, inside, ?_⟩)))
          simp only [Rect.Contains] at contained
          simp only [DamageReport.Contains]
          omega
        · exact later x y (Or.inr ⟨inside, k, by omega, by omega, touched⟩)

theorem touched_record {history : DamageHistory} {last : PresentDamage} {back : Nat} {x y : Int}
    (positive : 1 ≤ back) (touched : history.Touched back x y) :
    (history.record last).Touched (back + 1) x y := by
  by_cases old : 3 < back + 1
  · exact Or.inl (Or.inl old)
  by_cases early : history.serial < back
  · exact Or.inl (Or.inr (Or.inl (by simpa [record] using early)))
  -- Fewer than three frames back, so the ring position was not overwritten.
  have apart : (⟨(history.serial - back) % 3, Nat.mod_lt _ (by decide)⟩ : Fin 3) ≠
      ⟨history.serial % 3, Nat.mod_lt _ (by decide)⟩ := by
    simp only [ne_eq, Fin.mk.injEq]
    omega
  have kept : (history.record last).entry (back + 1) = history.entry back := by
    simp only [entry, record, Nat.add_sub_add_right]
    exact Function.update_of_ne apart _ _
  rcases touched with (far | short | invalid) | covered
  · omega
  · exact absurd short early
  · exact Or.inl (Or.inr (Or.inr (by rw [kept]; exact invalid)))
  · exact Or.inr (by rw [kept]; exact covered)

theorem touched_record_newest (history : DamageHistory) {last : PresentDamage} {x y : Int}
    (covered : Rect.Covers last.rects x y) : (history.record last).Touched 1 x y := by
  have newest : (history.record last).entry 1 =
      if last.valid && !last.rects.isEmpty then { valid := true, rects := last.rects } else {} := by
    simp [entry, record]
  by_cases shown : (last.valid && !last.rects.isEmpty) = true
  · exact Or.inr (by rw [newest, if_pos shown]; exact covered)
  · exact Or.inl (Or.inr (Or.inr (by rw [newest, if_neg shown])))

end DamageHistory

end Xios
