import Mathlib.Data.List.Basic
import Xios.Lib.Machine
import Xios.Lib.Signed
import Xios.Output.Damage

/-! What accumulated damage is exactly, however rectangles are merged on the way. -/

namespace Rect

/-- A rectangle is not empty. -/
def Solid (r : Rect) : Prop :=
  r.x0 < r.x1 ∧ r.y0 < r.y1
  deriving Decidable

/-- The rectangle is the smallest one around all others. -/
structure IsHull (box : Rect) (rects : List Rect) : Prop where
  -- It reaches around each of them.
  around : ∀ r ∈ rects, r.Within box
  -- Whatever reaches around each of them reaches around it.
  least : ∀ outer : Rect, (∀ r ∈ rects, r.Within outer) → box.Within outer

theorem isHull_singleton (r : Rect) : r.IsHull [r] where
  around := by simpa using Within.refl r
  least outer around := around r (by simp)

theorem IsHull.concat {box : Rect} {rects : List Rect} (hull : box.IsHull rects) (r : Rect) :
    (box.hull r).IsHull (rects ++ [r]) where
  around := by
    intro other member
    rcases List.mem_append.mp member with old | new
    · exact (hull.around other old).trans (within_hull_left box r)
    · rw [List.mem_singleton.mp new]
      exact within_hull_right box r
  least outer around := by
    apply hull_within
    · exact hull.least outer fun other member => around other (List.mem_append_left _ member)
    · exact around r (by simp)

theorem Solid.mono {inner outer : Rect} (solid : inner.Solid) (within : inner.Within outer) :
    outer.Solid := by
  simp only [Solid, Within] at *
  omega

end Rect

namespace Xios

/-- The part of reported damage that lies on an output of the given size. -/
def DamageReport.clipped (width height : Int) (report : DamageReport) : Option Rect :=
  if report.w ≤ 0 ∨ report.h ≤ 0 then none
  else
    let r : Rect := ⟨max report.x 0, max report.y 0, min (report.x + report.w) width,
      min (report.y + report.h) height⟩
    if r.x1 ≤ r.x0 ∨ r.y1 ≤ r.y0 then none else some r

theorem DamageReport.clipped_spec {width height : Int} {report : DamageReport} {r : Rect}
    (clipped : report.clipped width height = some r) :
    r.Within ⟨0, 0, width, height⟩ ∧ r.Solid := by
  unfold DamageReport.clipped at clipped
  split at clipped
  · cases clipped
  · simp only at clipped
    split at clipped
    · cases clipped
    · rename_i solid
      obtain rfl := Option.some.inj clipped
      simp only [Rect.Within, Rect.Solid]
      omega

namespace OutputDamage

theorem addPx_eq (width height : Int) (d : OutputDamage) (report : DamageReport) :
    d.addPx width height report =
      match report.clipped width height with
      | none => d
      | some r => d.addRect r := by
  unfold addPx DamageReport.clipped
  split
  · rfl
  · simp only
    split <;> rfl

section

/-!
The merging of `output_damage_add_px` as the code has it, with the positions of both loops.

The rectangle that grows is at position `i`, which moves when an earlier one is removed.
-/

def mergeLoop (rects : List Rect) (i j : Nat) : List Rect :=
  if inside : j < rects.length then
    if j = i ∨ (rects.getD i ⟨0, 0, 0, 0⟩).touches rects[j] = false then
      mergeLoop rects i (j + 1)
    else
      let grown := (rects.getD i ⟨0, 0, 0, 0⟩).hull rects[j]
      mergeLoop ((rects.set i grown).eraseIdx j) (if j < i then i - 1 else i) j
  else rects
termination_by rects.length - j
decreasing_by
  · omega
  · rw [List.length_eraseIdx_of_lt (by simpa using inside), List.length_set]
    omega

def mergeScan (r : Rect) (rects : List Rect) (i : Nat) : Option (List Rect) :=
  if inside : i < rects.length then
    if rects[i].touches r then some (mergeLoop (rects.set i (rects[i].hull r)) i 0)
    else mergeScan r rects (i + 1)
  else none
termination_by rects.length - i

/-- The inner loop behind the grown rectangle takes in what it touches. -/
theorem mergeLoop_after (before seen rest : List Rect) (grown : Rect) :
    mergeLoop (before ++ grown :: (seen ++ rest)) before.length
        (before.length + 1 + seen.length) =
      before ++ (grown.absorb rest).1 :: (seen ++ (grown.absorb rest).2) := by
  -- The induction is on what the loop has not looked at yet.
  induction rest generalizing seen grown with
  | nil =>
    rw [mergeLoop, dif_neg (by simp; omega)]
    simp [Rect.absorb]
  | cons r rest ih =>
    have here : (before ++ grown :: (seen ++ r :: rest))[before.length + 1 + seen.length]? =
        some r := by
      rw [List.getElem?_append_right (by omega),
        show before.length + 1 + seen.length - before.length = seen.length + 1 by omega,
        List.getElem?_cons_succ, List.getElem?_append_right (le_refl _), Nat.sub_self]
      rfl
    have inside : before.length + 1 + seen.length < (before ++ grown :: (seen ++ r :: rest)).length := by
      simp only [List.length_append, List.length_cons]
      omega
    have growing : (before ++ grown :: (seen ++ r :: rest)).getD before.length ⟨0, 0, 0, 0⟩ =
        grown := by
      simp [List.getD_eq_getElem?_getD]
    rw [List.getElem?_eq_getElem inside, Option.some.injEq] at here
    rw [mergeLoop, dif_pos inside, growing, here]
    by_cases touching : grown.touches r = true
    · -- The swallowed rectangle is taken out, and the same position is looked at again.
      rw [if_neg (by simp [touching]; omega), if_neg (by omega)]
      have taken : ((before ++ grown :: (seen ++ r :: rest)).set before.length
            (grown.hull r)).eraseIdx (before.length + 1 + seen.length) =
          before ++ grown.hull r :: (seen ++ rest) := by
        rw [List.set_append_right _ _ (le_refl _), Nat.sub_self, List.set_cons_zero,
          List.eraseIdx_append_of_length_le (by omega),
          show before.length + 1 + seen.length - before.length = seen.length + 1 by omega,
          List.eraseIdx_cons_succ, List.eraseIdx_append_of_length_le (le_refl _), Nat.sub_self]
        rfl
      simp only
      rw [taken, ih]
      simp [Rect.absorb, touching]
    · rw [if_pos (.inr (by simpa using touching))]
      have further := ih (seen ++ [r]) grown
      simp only [List.length_append, List.length_singleton, List.append_assoc,
        List.singleton_append] at further
      rw [show before.length + 1 + seen.length + 1 = before.length + 1 + (seen.length + 1) by omega,
        further]
      simp [Rect.absorb, touching]

theorem mergeLoop_before (seen rest after : List Rect) (grown : Rect) :
    mergeLoop (seen ++ (rest ++ grown :: after)) (seen.length + rest.length) seen.length =
      seen ++ (grown.absorb rest).2 ++ ((grown.absorb rest).1.absorb after).1 ::
        ((grown.absorb rest).1.absorb after).2 := by
  -- The induction is on what lies between the two positions.
  induction rest generalizing seen grown with
  | nil =>
    -- The loop steps over the growing rectangle itself.
    have behind := mergeLoop_after seen [] after grown
    simp only [List.nil_append, List.length_nil, Nat.add_zero] at behind
    rw [mergeLoop, dif_pos (by simp), if_pos (.inl (by simp))]
    simpa [Rect.absorb] using behind
  | cons r rest ih =>
    have inside : seen.length < (seen ++ (r :: rest ++ grown :: after)).length := by simp
    have here : (seen ++ (r :: rest ++ grown :: after))[seen.length] = r := by simp
    have growing : (seen ++ (r :: rest ++ grown :: after)).getD (seen.length + (r :: rest).length)
        ⟨0, 0, 0, 0⟩ = grown := by
      simp [List.getD_eq_getElem?_getD]
    rw [mergeLoop, dif_pos inside, growing, here]
    by_cases touching : grown.touches r = true
    · -- Everything behind moves one position to the front, the growing rectangle included.
      rw [if_neg (by simp [touching]), if_pos (by simp)]
      have taken : ((seen ++ (r :: rest ++ grown :: after)).set (seen.length + (r :: rest).length)
            (grown.hull r)).eraseIdx seen.length = seen ++ (rest ++ grown.hull r :: after) := by
        rw [List.set_append_right _ _ (by omega), Nat.add_sub_cancel_left,
          List.set_append_right _ _ (le_refl _), Nat.sub_self, List.set_cons_zero,
          List.eraseIdx_append_of_length_le (le_refl _), Nat.sub_self]
        rfl
      simp only
      rw [taken, show seen.length + (r :: rest).length - 1 = seen.length + rest.length by simp, ih]
      simp [Rect.absorb, touching]
    · rw [if_pos (.inr (by simpa using touching))]
      have further := ih (seen ++ [r]) grown
      simp only [List.length_append, List.length_singleton, List.append_assoc,
        List.singleton_append] at further
      rw [show seen.length + (r :: rest).length = seen.length + 1 + rest.length by
          simp only [List.length_cons]; omega]
      simp only [List.cons_append]
      rw [further]
      simp [Rect.absorb, touching]

theorem mergeScan_append (r : Rect) (before after : List Rect) :
    mergeScan r (before ++ after) before.length = mergeRect r before after := by
  -- The induction follows the search for the first rectangle that touches the new one.
  induction after generalizing before with
  | nil => rw [mergeScan, dif_neg (by simp), mergeRect]
  | cons head rest ih =>
    have bound : before.length < (before ++ head :: rest).length := by simp
    have here : (before ++ head :: rest)[before.length] = head := by simp
    rw [mergeScan, dif_pos (by simp), here, mergeRect]
    by_cases touching : head.touches r = true
    · rw [if_pos touching, if_pos touching]
      have merged := mergeLoop_before [] before rest (head.hull r)
      simp only [List.nil_append, List.length_nil, Nat.zero_add] at merged
      simp [merged]
    · rw [if_neg touching, if_neg touching]
      simpa using ih (before ++ [head])

/-- The two loops over positions compute the same list as the recursion. -/
theorem mergeScan_eq (r : Rect) (rects : List Rect) : mergeScan r rects 0 = mergeRect r [] rects :=
  mergeScan_append r [] rects

end

/-- What the accumulator holds after some rectangles on the output were added. -/
structure Holds (width height : Int) (d : OutputDamage) (added : List Rect) : Prop where
  well : d.WellFormed
  -- Something is damaged once a rectangle was added.
  valid : d.valid = true ↔ added ≠ []
  -- The list is given up only while something is damaged.
  coarse : d.coarse = true → d.valid = true
  -- Every added pixel is covered.
  covers : ∀ r ∈ added, ∀ x y, r.Contains x y → Rect.Covers d.rects x y
  -- The box reaches around what was added, and no further.
  box : d.valid = true → d.bounds.IsHull added
  -- What was added lies on the output and has pixels, and so does what is kept.
  onOutput : ∀ r ∈ added, r.Within ⟨0, 0, width, height⟩ ∧ r.Solid
  solid : ∀ r ∈ d.rects, r.Solid

/-- No damage is pending. -/
structure Empty (d : OutputDamage) : Prop where
  valid : d.valid = false
  coarse : d.coarse = false
  rects : d.rects = []

variable {width height : Int} {d : OutputDamage} {added : List Rect}

theorem Empty.holds (empty : d.Empty) (width height : Int) : d.Holds width height [] := by
  obtain ⟨valid, coarse, rects⟩ := empty
  have well : d.WellFormed := ⟨by simp [rects], by simp [valid, rects], by simp [rects],
    by simp [coarse]⟩
  exact ⟨well, by simp [valid], by simp [coarse], by simp, by simp [valid], by simp, by simp [rects]⟩

theorem Holds.box_unionAddRect (holds : d.Holds width height added) (r : Rect) :
    (d.unionAddRect r).bounds.IsHull (added ++ [r]) := by
  unfold unionAddRect
  split
  · rename_i damaged
    exact (holds.box damaged).concat r
  · rename_i undamaged
    have nothing : added = [] := by
      by_contra something
      exact undamaged (holds.valid.mpr something)
    subst nothing
    exact Rect.isHull_singleton r

theorem Holds.solid_addRect (holds : d.Holds width height added) {r : Rect} (solid : r.Solid) :
    ∀ other ∈ (d.addRect r).rects, other.Solid := by
  obtain ⟨damaged, sameRects, -⟩ := unionAddRect_fields d r
  have box : (d.unionAddRect r).bounds.Solid :=
    solid.mono ((holds.box_unionAddRect r).around r (by simp))
  unfold addRect
  generalize d.unionAddRect r = after at damaged sameRects box
  -- Falling back to the union leaves the union alone.
  have whole : ∀ other ∈ after.setCoarseUnion.rects, other.Solid := by
    simpa [setCoarseUnion, damaged] using box
  simp only
  split
  · exact whole
  · split
    · rename_i merged found
      exact mergeRect_all (fun own _ => own.mono (Rect.within_hull_left _ _)) found solid
        (by simpa [sameRects] using holds.solid)
    · split
      · intro other member
        rw [sameRects] at member
        rcases List.mem_append.mp member with old | new
        · exact holds.solid other old
        · rw [List.mem_singleton.mp new]
          exact solid
      · exact whole

theorem addRect_fields (d : OutputDamage) (r : Rect) :
    (d.addRect r).valid = true ∧ (d.addRect r).bounds = (d.unionAddRect r).bounds := by
  obtain ⟨damaged, -, -⟩ := unionAddRect_fields d r
  unfold addRect
  generalize d.unionAddRect r = after at damaged
  have whole : after.setCoarseUnion.valid = true ∧
      after.setCoarseUnion.bounds = after.bounds := by
    simp [setCoarseUnion, damaged]
  simp only
  split
  · exact whole
  · split
    · exact ⟨damaged, rfl⟩
    · split
      · exact ⟨damaged, rfl⟩
      · exact whole

theorem Holds.addRect (holds : d.Holds width height added) {r : Rect}
    (onOutput : r.Within ⟨0, 0, width, height⟩) (solid : r.Solid) :
    (d.addRect r).Holds width height (added ++ [r]) := by
  obtain ⟨well, covers⟩ := addRect_spec holds.well r
  obtain ⟨damaged, bounds⟩ := addRect_fields d r
  refine ⟨well, by simp [damaged], fun _ => damaged, ?_, ?_, ?_, holds.solid_addRect solid⟩
  · intro other member x y inside
    rcases List.mem_append.mp member with old | new
    · have before : d.Covers x y :=
        ⟨holds.valid.mpr (List.ne_nil_of_mem old), holds.covers other old x y inside⟩
      exact (covers x y (.inr before)).2
    · rw [List.mem_singleton.mp new] at inside
      exact (covers x y (.inl inside)).2
  · intro _
    rw [bounds]
    exact holds.box_unionAddRect r
  · intro other member
    rcases List.mem_append.mp member with old | new
    · exact holds.onOutput other old
    · rw [List.mem_singleton.mp new]
      exact ⟨onOutput, solid⟩

theorem Holds.addPx (holds : d.Holds width height added) (report : DamageReport) :
    (d.addPx width height report).Holds width height
      (added ++ (report.clipped width height).toList) := by
  rw [addPx_eq]
  cases clipped : report.clipped width height with
  | none => simpa using holds
  | some r =>
    obtain ⟨onOutput, solid⟩ := DamageReport.clipped_spec clipped
    exact holds.addRect onOutput solid

theorem Holds.consume (holds : d.Holds width height added) :
    (outputDamageConsume width height d).1 =
        (if added = [] then [⟨0, 0, width, height⟩] else d.rects) ∧
      (outputDamageConsume width height d).2.2.Empty := by
  refine ⟨?_, ⟨rfl, rfl, rfl⟩⟩
  by_cases nothing : added = []
  · have undamaged : d.valid = false := by
      rw [← Bool.not_eq_true, holds.valid]
      simpa using nothing
    simp [outputDamageConsume, undamaged, nothing]
  · rw [if_neg nothing]
    exact outputDamageConsume_rects holds.well (holds.valid.mpr nothing) width height

end OutputDamage

/-- The accumulator, with the reports that came in since it was last consumed. -/
structure DamageLog where
  damage : OutputDamage := {}
  -- The reports, oldest first, which the code does not keep.
  reports : List DamageReport := []

namespace DamageLog

/-- What is done with the damage. -/
inductive Event where
  | add (report : DamageReport)
  -- A frame takes the damage.
  | consume

def next (width height : Int) (s : DamageLog) : Event → DamageLog
  | .add report =>
    { damage := s.damage.addPx width height report, reports := s.reports ++ [report] }
  | .consume => { damage := (outputDamageConsume width height s.damage).2.2, reports := [] }

/-- The edges of what is reported fit. -/
def Allowed : Event → Prop
  | .add report => report.Fits
  | .consume => True

def machine (width height : Int) : Machine DamageLog Event where
  start s := s = {}
  enabled _ := Allowed
  next := next width height

def clips (width height : Int) (s : DamageLog) : List Rect :=
  s.reports.flatMap fun report => (report.clipped width height).toList

variable {width height : Int} {trace : List Event} {s : DamageLog}

theorem holds_of_run (run : (machine width height).Run trace s) :
    s.damage.Holds width height (s.clips width height) := by
  refine run.invariant (fun _ s => s.damage.Holds width height (s.clips width height)) ?_ ?_
  · intro s begun
    rw [begun]
    exact OutputDamage.Empty.holds ⟨rfl, rfl, rfl⟩ width height
  · intro _ s event holds _
    cases event with
    | add report =>
      have grown := holds.addPx report
      simpa [machine, next, clips] using grown
    | consume => exact holds.consume.2.holds width height

/--
The damage accumulated since it was last consumed is exactly what was reported.

The kept rectangles cover every reported rectangle as far as it lies on the output, and lie in the
box around those, which is their hull.
Each of them lies on the output and has pixels, and there are never too many.
A frame is handed exactly these rectangles, or the whole output if nothing is damaged, and leaves
nothing behind.
-/
theorem accumulated_exact (run : (machine width height).Run trace s) :
    (∀ r ∈ s.clips width height, ∀ x y, r.Contains x y → Rect.Covers s.damage.rects x y) ∧
      (∀ x y, Rect.Covers s.damage.rects x y → s.damage.bounds.Contains x y) ∧
      (s.clips width height ≠ [] → s.damage.bounds.IsHull (s.clips width height)) ∧
      (∀ r ∈ s.damage.rects, r.Within ⟨0, 0, width, height⟩ ∧ r.Solid) ∧
      s.damage.rects.length ≤ maxOutputDamageRects ∧
      (outputDamageConsume width height s.damage).1 =
        (if s.clips width height = [] then [⟨0, 0, width, height⟩] else s.damage.rects) ∧
      (outputDamageConsume width height s.damage).2.2.Empty := by
  have holds := holds_of_run run
  refine ⟨holds.covers, ?_, ?_, ?_, holds.well.capacity, holds.consume⟩
  · rintro x y ⟨r, member, inside⟩
    exact (holds.well.bounded r member).contains inside
  · intro something
    exact holds.box (holds.valid.mpr something)
  · intro r member
    -- Something is damaged, so that the box is the hull of rectangles on the output.
    have damaged : s.damage.valid = true := by
      rw [holds.well.listed]
      exact List.ne_nil_of_mem member
    have inside := (holds.box damaged).least ⟨0, 0, width, height⟩ fun other added =>
      (holds.onOutput other added).1
    exact ⟨(holds.well.bounded r member).trans inside, holds.solid r member⟩

def overlapping : List Event :=
  [.add ⟨-2, 1, 4, 4⟩, .add ⟨1, 3, 20, 2⟩]

theorem accumulated_exact_overlapping :
    (∀ r ∈ [⟨0, 1, 2, 5⟩, ⟨1, 3, 8, 5⟩], ∀ x y, Rect.Contains r x y →
        Rect.Covers [⟨0, 1, 8, 5⟩] x y) ∧
      (⟨0, 1, 8, 5⟩ : Rect).IsHull [⟨0, 1, 2, 5⟩, ⟨1, 3, 8, 5⟩] := by
  have run := Machine.Run.of_script (m := machine 8 6) (s := {}) rfl overlapping
    ⟨show DamageReport.Fits _ by decide, show DamageReport.Fits _ by decide, trivial⟩
  obtain ⟨covered, -, hull, -⟩ := accumulated_exact run
  exact ⟨covered, hull (by decide)⟩

/-- Without any damage a frame is handed a rectangle that is not kept. -/
theorem not_consumes_kept :
    ¬∀ (width height : Int) (trace : List Event) (s : DamageLog),
      (machine width height).Run trace s →
        (outputDamageConsume width height s.damage).1 = s.damage.rects := by
  intro exact
  have handed := exact 8 6 [] {} (.start rfl)
  exact absurd handed (by decide)

end DamageLog

end Xios
