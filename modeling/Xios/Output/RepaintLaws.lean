import Xios.Output.Repaint

/-! Damage, history and buffer age together never lose a pixel that a slot still has to repaint. -/

namespace Xios

namespace OutputQueue

/-- Two states of a queue in which every slot has the same age. -/
structure SameAges (before after : OutputQueue) : Prop where
  -- As many slots are in use.
  count : after.count = before.count
  -- As many frames have been published.
  frame : after.frame = before.frame
  -- Every slot was last published at the same frame.
  lastFrame : ∀ i, (after.slots i).lastFrame = (before.slots i).lastFrame

theorem SameAges.trans {a b c : OutputQueue} (first : SameAges a b) (second : SameAges b c) :
    SameAges a c :=
  ⟨second.count.trans first.count, second.frame.trans first.frame,
    fun i => (second.lastFrame i).trans (first.lastFrame i)⟩

theorem sameAges_update (q : OutputQueue) (i : Fin outputQueueMaxBuffers) (slot : OutputQueueSlot)
    (cursor : Nat) (same : slot.lastFrame = (q.slots i).lastFrame) :
    SameAges q { q with slots := Function.update q.slots i slot, cursor } := by
  refine ⟨rfl, rfl, fun j => ?_⟩
  by_cases here : j = i
  · subst here; simpa using same
  · simp [Function.update_of_ne here]

theorem SameAges.slotAge {before after : OutputQueue} (same : SameAges before after)
    (i : Fin outputQueueMaxBuffers) :
    after.slotAge (after.slots i) = before.slotAge (before.slots i) := by
  simp only [OutputQueue.slotAge, same.frame, same.lastFrame i]

theorem acquire_sameAges {q after : OutputQueue} {rotate : Bool} {grant : Grant}
    (acquired : q.acquire rotate = some (grant, after)) : SameAges q after := by
  obtain ⟨-, -, taken⟩ := acquire_some acquired
  obtain rfl : after = _ := congrArg Prod.snd taken
  exact sameAges_update q grant.index _ _ rfl

theorem cancel_sameAges (q : OutputQueue) (index : Nat) : SameAges q (q.cancel index) := by
  unfold cancel
  split
  · exact sameAges_update q _ _ _ rfl
  · exact ⟨rfl, rfl, fun _ => rfl⟩

theorem consumer_sameAges (q : OutputQueue) (op : ConsumerOp) : SameAges q (op.apply q) := by
  cases op with
  | release index clientBit seq =>
    simp only [ConsumerOp.apply, release]
    split
    · split
      · exact ⟨rfl, rfl, fun _ => rfl⟩
      · split
        · exact ⟨rfl, rfl, fun _ => rfl⟩
        · exact sameAges_update q _ _ _ rfl
    · exact ⟨rfl, rfl, fun _ => rfl⟩
  | dropClient clientBit =>
    simp only [ConsumerOp.apply, dropClient]
    split
    · exact ⟨rfl, rfl, fun _ => rfl⟩
    · refine ⟨rfl, rfl, fun i => ?_⟩
      simp only
      split <;> rfl
  | recoverAbandoned =>
    refine ⟨rfl, rfl, fun i => ?_⟩
    simp only [ConsumerOp.apply, recoverAbandoned]
    split <;> rfl

theorem consumers_sameAges (q : OutputQueue) (ops : List ConsumerOp) :
    SameAges q (ops.foldl ConsumerOp.apply q) := by
  induction ops generalizing q with
  | nil => exact ⟨rfl, rfl, fun _ => rfl⟩
  | cons op rest ih => exact (consumer_sameAges q op).trans (ih _)

end OutputQueue

namespace OutputLoop

variable {α : Type*}

/-- The slot holds a published frame. -/
def Published (s : OutputLoop α) (i : Fin outputQueueMaxBuffers) : Prop :=
  (s.queue.slots i).lastFrame ≠ 0

/-- The pixel will be repainted when the slot is next acquired. -/
def Owed (s : OutputLoop α) (i : Fin outputQueueMaxBuffers) (x y : Int) : Prop :=
  s.damage.Covers x y ∨
    ∃ back, 1 ≤ back ∧ back ≤ s.queue.frame - (s.queue.slots i).lastFrame ∧
      s.history.Touched back x y

/-- What every run of the output loop maintains until it terminates. -/
structure Fresh (s : OutputLoop α) : Prop where
  well : s.damage.WellFormed
  -- No slot was published in the future.
  ages : ∀ i, (s.queue.slots i).lastFrame ≤ s.queue.frame
  -- A published slot shows the scene wherever nothing changed since.
  current : ∀ i, s.Published i → ∀ x y, s.Inside x y → s.changed i x y = false →
    s.content i x y = s.scene x y
  -- While slots are being composed into, every changed pixel is owed to the slot.
  owed : s.directPresentActive = false → ∀ i, s.Published i → ∀ x y, s.Inside x y →
    s.changed i x y = true → s.Owed i x y

variable {s : OutputLoop α}

theorem Fresh.queue (fresh : s.Fresh) {queue : OutputQueue}
    (same : OutputQueue.SameAges s.queue queue) : Fresh { s with queue } := by
  obtain ⟨well, ages, current, owed⟩ := fresh
  refine ⟨well, ?_, ?_, ?_⟩
  · intro i
    rw [same.lastFrame i, same.frame]
    exact ages i
  · intro i published
    exact current i (by simpa [Published, same.lastFrame i] using published)
  · intro composing i published x y inside differs
    rcases owed composing i (by simpa [Published, same.lastFrame i] using published) x y inside
      differs with covered | ⟨back, positive, recent, touched⟩
    · exact Or.inl covered
    · exact Or.inr ⟨back, positive, by rw [same.lastFrame i, same.frame]; exact recent, touched⟩

theorem Fresh.grow (fresh : s.Fresh) {damage : OutputDamage} (well : damage.WellFormed)
    (grown : ∀ x y, s.damage.Covers x y → damage.Covers x y) : Fresh { s with damage } := by
  refine ⟨well, fresh.ages, fresh.current, ?_⟩
  intro composing i published x y inside differs
  rcases fresh.owed composing i published x y inside differs with covered | older
  · exact Or.inl (grown x y covered)
  · exact Or.inr older

theorem Fresh.sceneChange [DecidableEq α] (fresh : s.Fresh) {scene : Int → Int → α}
    {reports : List DamageReport} (reported : s.Reported scene (reports.filter (·.Fits))) :
    ((s.setScene scene).addReports reports).Fresh := by
  obtain ⟨well, covers⟩ :=
    OutputDamage.foldl_addPx32_spec fresh.well s.width s.height reports
  refine ⟨well, fresh.ages, ?_, ?_⟩
  · intro i published x y inside unchanged
    simp only [addReports, setScene, Bool.or_eq_false_iff, decide_eq_false_iff_not,
      not_not] at unchanged
    rw [show ((s.setScene scene).addReports reports).content i x y = s.content i x y from rfl,
      fresh.current i published x y inside unchanged.1]
    exact unchanged.2.symm
  · -- A newly changed pixel was just reported, and the others were owed before.
    intro composing i published x y inside differs
    simp only [addReports, setScene, Bool.or_eq_true, decide_eq_true_eq] at differs
    rcases differs with before | now
    · rcases fresh.owed composing i published x y inside before with covered | older
      · exact Or.inl (covers x y (Or.inl covered))
      · exact Or.inr older
    · obtain ⟨report, member, contained⟩ := reported x y inside now
      obtain ⟨given, fits⟩ := List.mem_filter.mp member
      exact Or.inl (covers x y (Or.inr ⟨report, given, of_decide_eq_true fits, inside, contained⟩))

theorem Fresh.refit [DecidableEq α] (fresh : s.Fresh) (change : Reconfigure α) :
    (s.refit change).Fresh := by
  obtain ⟨well, -⟩ := OutputDamage.foldl_addPx32_spec fresh.well s.width s.height change.reports
  refine ⟨well.addPx _ _ _, fresh.ages, ?_, ?_⟩
  · intro i published x y inside unchanged
    simp only [OutputLoop.refit, outputDamageAddFull, addReports, setScene, Bool.or_eq_false_iff,
      decide_eq_false_iff_not, not_not] at unchanged
    rw [show (s.refit change).content i x y = s.content i x y from rfl,
      fresh.current i published x y inside unchanged.1]
    exact unchanged.2.symm
  · intro _ i _ x y inside _
    exact Or.inl (OutputDamage.addFull_covers well inside)

theorem Fresh.leaveDirect (fresh : s.Fresh) :
    s.leaveDirect.Fresh ∧ s.leaveDirect.directPresentActive = false := by
  unfold OutputLoop.leaveDirect
  split
  · refine ⟨⟨fresh.well.addPx _ _ _, fresh.ages, fresh.current, ?_⟩, rfl⟩
    intro _ i _ x y inside _
    exact Or.inl (OutputDamage.addFull_covers fresh.well inside)
  · rename_i composing
    exact ⟨fresh, by simpa using composing⟩

theorem Fresh.apply (fresh : s.Fresh) (composing : s.directPresentActive = false)
    (i : Fin outputQueueMaxBuffers) {age : Nat} (aged : age = s.queue.slotAge (s.queue.slots i)) :
    (s.history.apply s.width s.height age s.damage).WellFormed ∧
      (∀ x y, s.damage.Covers x y →
        (s.history.apply s.width s.height age s.damage).Covers x y) ∧
      ∀ x y, s.Inside x y → (s.Published i → s.changed i x y = true) →
        (s.history.apply s.width s.height age s.damage).Covers x y := by
  unfold DamageHistory.apply
  split
  · exact ⟨fresh.well.addPx _ _ _, fun x y => OutputDamage.addPx_mono fresh.well _ _ _,
      fun x y inside _ => OutputDamage.addFull_covers fresh.well inside⟩
  · rename_i defined
    have published : (s.queue.slots i).lastFrame ≠ 0 ∧
        (s.queue.slots i).lastFrame ≤ s.queue.frame := by
      by_contra undefined
      exact defined (aged.trans (if_neg undefined))
    have exactAge : age = min (s.queue.frame - (s.queue.slots i).lastFrame + 1) uintMax :=
      aged.trans (if_pos published)
    obtain ⟨well, covers⟩ :=
      s.history.applyFrom_spec s.width s.height (age - 1) 1 fresh.well
    refine ⟨well, fun x y covered => covers x y (Or.inl covered), ?_⟩
    intro x y inside differs
    rcases fresh.owed composing i published.1 x y inside (differs published.1) with
      covered | ⟨back, positive, recent, touched⟩
    · exact covers x y (Or.inl covered)
    · by_cases reached : back < age
      · exact covers x y (Or.inr ⟨inside, back, positive, by omega, touched⟩)
      · -- The age was cut off at its width, far beyond what the history remembers.
        have saturated : age = uintMax := by omega
        refine covers x y (Or.inr ⟨inside, 4, by omega, ?_, Or.inl (Or.inl (by decide))⟩)
        simp only [saturated, uintMax]
        omega

/-- What a finished frame says about the slot it was drawn into. -/
def Repainted (s : OutputLoop α) (result : FrameOutcome × OutputLoop α) : Prop :=
  match result.1 with
  | .painted i rects =>
    (∀ x y, s.Inside x y → s.changed i x y = true → Rect.Covers rects x y) ∧
      ∀ x y, s.Inside x y → result.2.content i x y = s.scene x y
  | .cancelled i =>
    ∀ x y, s.Inside x y → s.changed i x y = false ∧ result.2.content i x y = s.scene x y
  | _ => True

theorem Fresh.paint_content (fresh : s.Fresh) (i : Fin outputQueueMaxBuffers) {rects : List Rect}
    {x y : Int} (inside : s.Inside x y)
    (covers : (s.Published i → s.changed i x y = true) → Rect.Covers rects x y) :
    (s.paint i rects).content i x y = s.scene x y := by
  simp only [paint, Function.update_self]
  split
  · rfl
  · rename_i uncovered
    -- An uncovered pixel belongs to a published slot and has not changed since.
    have published : s.Published i := by
      by_contra unpublished
      exact uncovered (covers fun shown => absurd shown unpublished)
    have unchanged : s.changed i x y = false := by
      cases differs : s.changed i x y with
      | false => rfl
      | true => exact absurd (covers fun _ => differs) uncovered
    exact fresh.current i published x y inside unchanged

theorem Fresh.publish (fresh : s.Fresh) (composing : s.directPresentActive = false)
    {i : Fin outputQueueMaxBuffers} (inUse : (i : Nat) < s.queue.count) (last : PresentDamage)
    {damage : OutputDamage} (well : damage.WellFormed)
    (recorded : ∀ x y, s.damage.Covers x y → Rect.Covers last.rects x y)
    (painted : ∀ x y, s.Inside x y → (s.paint i last.rects).content i x y = s.scene x y)
    (pendingClients : BitVec 32) (seq : Nat) :
    Fresh { (({ s with lastPresent := last, damage } : OutputLoop α).paint i last.rects).publish i
      pendingClients seq with history := s.history.record last } := by
  have queue : s.queue.publish i pendingClients seq =
      { s.queue with
        slots := Function.update s.queue.slots i
          { s.queue.slots i with
            acquired := false, abandoned := false, pendingClients, lastSeq := seq
            lastFrame := s.queue.frame + 1 }
        frame := s.queue.frame + 1 } := by
    simp [OutputQueue.publish, inUse]
  refine ⟨well, ?_, ?_, ?_⟩
  · intro j
    simp only [OutputLoop.publish, paint, queue]
    by_cases same : j = i
    · subst same; simp
    · simpa [Function.update_of_ne same] using (fresh.ages j).trans (Nat.le_succ _)
  · intro j published x y inside unchanged
    by_cases same : j = i
    · subst same; exact painted x y inside
    · simp only [Published, OutputLoop.publish, paint, queue, Function.update_of_ne same]
        at published unchanged ⊢
      exact fresh.current j published x y inside unchanged
  · intro _ j published x y inside differs
    by_cases same : j = i
    · subst same
      simp [OutputLoop.publish, paint] at differs
    · -- What was owed to another slot is now one frame further back, or was just painted.
      simp only [Published, Owed, OutputLoop.publish, paint, queue, Function.update_of_ne same]
        at published differs ⊢
      have earlier := fresh.ages j
      rcases fresh.owed composing j published x y inside differs with
        covered | ⟨back, positive, recent, touched⟩
      · exact Or.inr ⟨1, le_rfl, by omega,
          s.history.touched_record_newest (recorded x y covered)⟩
      · exact Or.inr ⟨back + 1, by omega, by omega, DamageHistory.touched_record positive touched⟩

/-- A repaint shows the scene in the slot it was granted, whatever the slot showed before. -/
theorem Fresh.composite (fresh : s.Fresh) (composing : s.directPresentActive = false)
    (frame : Frame) (grant : OutputQueue.Grant)
    (aged : grant.age = s.queue.slotAge (s.queue.slots grant.index))
    (inUse : (grant.index : Nat) < s.queue.count) :
    ((s.composite frame grant).2.running = true → (s.composite frame grant).2.Fresh) ∧
      s.Repainted (s.composite frame grant) := by
  obtain ⟨well, grown, covers⟩ := fresh.apply composing grant.index aged
  have applied := fresh.grow well grown
  unfold OutputLoop.composite
  generalize s.history.apply s.width s.height grant.age s.damage = damage at *
  simp only
  split
  · rename_i damaged
    have rects : (outputDamageConsume s.width s.height damage).1 = damage.rects :=
      outputDamageConsume_rects well damaged s.width s.height
    have remembered : (outputDamageConsume s.width s.height damage).2.1 =
        { valid := true, rects := damage.rects } := by
      rw [← rects]
      rfl
    have painted (x y : Int) (inside : s.Inside x y) :
        (s.paint grant.index damage.rects).content grant.index x y = s.scene x y :=
      fresh.paint_content grant.index inside fun differs => (covers x y inside differs).2
    simp only [consume, rects, remembered]
    split
    · refine ⟨fun _ => ?_, ?_, painted⟩
      · exact applied.publish (i := grant.index) composing inUse
          { valid := true, rects := damage.rects }
          (outputDamageConsume_wellFormed s.width s.height damage)
          (fun x y covered => covered.2) painted frame.pendingClients frame.seq
      · intro x y inside differs
        exact (covers x y inside fun _ => differs).2
    · exact ⟨by simp, trivial⟩
  · rename_i undamaged
    -- Nothing is damaged, so nothing was owed and the slot was published before.
    have nothing (x y : Int) (inside : s.Inside x y) :
        ¬(s.Published grant.index → s.changed grant.index x y = true) := fun differs =>
      undamaged (covers x y inside differs).1
    refine ⟨fun _ => applied.queue (OutputQueue.cancel_sameAges _ _), ?_⟩
    intro x y inside
    obtain ⟨published, unchanged⟩ := Classical.not_imp.mp (nothing x y inside)
    simp only [Bool.not_eq_true] at unchanged
    exact ⟨unchanged, fresh.current grant.index published x y inside unchanged⟩

theorem Fresh.recompositeNow (fresh : s.Fresh) (frame : Frame) :
    ((s.recompositeNow frame).2.running = true → (s.recompositeNow frame).2.Fresh) ∧
      s.Repainted (s.recompositeNow frame) := by
  unfold OutputLoop.recompositeNow
  split
  · exact ⟨by simp, trivial⟩
  · -- Slots are repainted from scratch after direct presentation, so nothing is owed now.
    refine ⟨fun _ => ⟨outputDamageConsume_wellFormed s.width s.height s.damage, fresh.ages,
      fresh.current, ?_⟩, trivial⟩
    simp
  · obtain ⟨fresh, composing⟩ := fresh.leaveDirect
    have scene (result : FrameOutcome × OutputLoop α)
        (repainted : s.leaveDirect.Repainted result) : s.Repainted result := by
      unfold OutputLoop.leaveDirect at repainted
      split at repainted <;> exact repainted
    generalize s.leaveDirect = s' at *
    simp only
    split
    · exact ⟨fun _ => fresh, trivial⟩
    · rename_i grant queue acquired
      have same := (OutputQueue.acquire_sameAges acquired).trans
        (OutputQueue.consumers_sameAges queue frame.meanwhile)
      obtain ⟨-, inUse, taken⟩ := OutputQueue.acquire_some acquired
      have aged : grant.age = s'.queue.slotAge (s'.queue.slots grant.index) :=
        congrArg (fun result => result.1.age) taken
      split
      · have drawn := (fresh.queue same).composite composing frame grant
          (by rw [aged]; exact (same.slotAge grant.index).symm)
          (by rw [same.count]; exact inUse)
        exact ⟨drawn.1, scene _ drawn.2⟩
      · exact ⟨by simp, trivial⟩

theorem Fresh.outputReconfigurePx [DecidableEq α] (fresh : s.Fresh) (change : Reconfigure α)
    (alive : (s.outputReconfigurePx change).running = true) :
    (s.outputReconfigurePx change).Fresh := by
  -- New memory has never been published, so nothing is owed to it.
  have reallocated : Fresh { s with
      queue := (OutputQueue.reset s.queue.count).getD s.queue
      content := change.blank, width := change.pw, height := change.ph
      damage := { s.damage with valid := false, rects := [] }
      history := {}, directPresentActive := false } := by
    have empty : OutputQueue.reset s.queue.count =
        some ⟨fun _ => {}, s.queue.count, s.queue.bounded, 0, 0⟩ := dif_pos s.queue.bounded
    refine ⟨⟨by simp, by simp, by simp, by simp⟩, ?_, ?_, ?_⟩
    · simp [empty]
    · simp [Published, empty]
    · simp [Published, empty]
  unfold OutputLoop.outputReconfigurePx at alive ⊢
  split
  · exact fresh
  split
  · exact fresh
  split
  · exact fresh
  split
  · split
    · simp only at alive ⊢
      split
      · exact reallocated.refit change
      · rename_i sized small differs moved made unbound
        simp [sized, small, differs, moved, made, unbound] at alive
    · exact fresh
  · exact fresh.refit change

theorem run_fresh [DecidableEq α] {count : Nat} {trace : List (Event α)}
    (run : ((machine α count).restrict Fitting).Run trace s) : s.running = true → s.Fresh := by
  refine run.invariant (fun _ s => s.running = true → s.Fresh) ?_ ?_
  · rintro s ⟨created, damage, -, -, -, -⟩ -
    simp only [OutputQueue.reset] at created
    split at created
    · rename_i bounded
      obtain queue := (Option.some.inj created).symm
      refine ⟨by rw [damage]; exact ⟨by simp, by simp, by simp, by simp⟩, ?_, ?_, ?_⟩
      · simp [queue]
      · simp [Published, queue]
      · simp [Published, queue]
    · cases created
  · rintro trace s event fresh ⟨allowed, fitting⟩
    cases event with
    | sceneChange scene reports => exact fun _ => (fresh allowed.1).sceneChange fitting
    | consumer op => exact fun _ => (fresh allowed).queue (OutputQueue.consumer_sameAges _ op)
    | recomposite frame => exact ((fresh allowed).recompositeNow frame).1
    | reconfigure change => exact (fresh allowed).outputReconfigurePx change

/--
Incremental repainting shows the same as a full composite, in every run in which what is reported
of a scene change fits into 32 bits.

The rectangles painted into an acquired slot cover every output pixel that changed since the slot
was last published, and afterwards the slot shows the current scene at every output pixel.
A slot that is given back because there is nothing to draw shows it already.
-/
theorem repaint_full_composite [DecidableEq α] {count : Nat} {trace : List (Event α)}
    {s : OutputLoop α} (run : ((machine α count).restrict Fitting).Run trace s) (frame : Frame)
    (allowed : s.Allowed (.recomposite frame)) : s.Repainted (s.recompositeNow frame) :=
  ((run_fresh run allowed).recompositeNow frame).2

def blankOutput : OutputLoop Bool where
  queue := ⟨fun _ => {}, 3, Nat.le_refl 3, 0, 0⟩
  width := 20
  height := 1
  damage := {}
  lastPresent := {}
  history := {}
  directPresentActive := false
  running := true
  scene := fun _ _ => false
  content := fun _ _ _ => false
  changed := fun _ _ _ => false

/-- A composed frame for consumers that never release, so that only the first slot is used. -/
def composedFrame (seq : Nat) : Frame :=
  { direct := .blocked, rotate := false, bound := true, meanwhile := [], notified := true
    pendingClients := 0#32, seq }

/-- A frame is shown, and then the column in the middle changes. -/
def blinkEvents (report : DamageReport) : List (Event Bool) :=
  [.recomposite (composedFrame 1), .sceneChange (fun x _ => decide (x = 10)) [report]]

def blinked (report : DamageReport) : OutputLoop Bool :=
  (blinkEvents report).foldl next blankOutput

theorem reported_blink (report : DamageReport) (column : report.x ≤ 10 ∧ 10 < report.x + report.w)
    (row : report.y ≤ 0 ∧ 0 < report.y + report.h) :
    (blankOutput.next (.recomposite (composedFrame 1))).Reported (fun x _ => decide (x = 10))
      [report] := by
  rintro x y ⟨-, -, above, below⟩ differs
  have middle : x = 10 := of_decide_eq_true (eq_true_of_ne_false differs)
  have first : 0 ≤ y ∧ y < 1 := ⟨above, below⟩
  refine ⟨report, List.mem_singleton.mpr rfl, ?_⟩
  simp only [DamageReport.Contains]
  omega

theorem repaint_full_composite_blinked :
    ((blinked ⟨10, 0, 1, 1⟩).recompositeNow (composedFrame 2)).1 = .painted 0 [⟨10, 0, 11, 1⟩] ∧
      (blinked ⟨10, 0, 1, 1⟩).Repainted
        ((blinked ⟨10, 0, 1, 1⟩).recompositeNow (composedFrame 2)) := by
  have reported := reported_blink ⟨10, 0, 1, 1⟩ (by decide) (by decide)
  have run : ((machine Bool 3).restrict Fitting).Run (blinkEvents ⟨10, 0, 1, 1⟩).reverse
      (blinked ⟨10, 0, 1, 1⟩) :=
    .of_script (m := (machine Bool 3).restrict Fitting) (s := blankOutput)
      ⟨rfl, rfl, rfl, rfl, rfl, rfl⟩ (blinkEvents ⟨10, 0, 1, 1⟩)
      ⟨⟨rfl, trivial⟩, ⟨⟨rfl, reported⟩, reported⟩, trivial⟩
  exact ⟨by decide, repaint_full_composite run (composedFrame 2) rfl⟩

/-- A report that reaches beyond the largest number is dropped, and what it named stays stale. -/
theorem not_repaint_full_composite :
    ¬∀ (trace : List (Event Bool)) (s : OutputLoop Bool) (frame : Frame),
      (machine Bool 3).Run trace s → s.Allowed (.recomposite frame) →
        s.Repainted (s.recompositeNow frame) := by
  intro claim
  have reported := reported_blink ⟨10, 0, 2147483647, 2147483647⟩ (by decide) (by decide)
  have run : (machine Bool 3).Run (blinkEvents ⟨10, 0, 2147483647, 2147483647⟩).reverse
      (blinked ⟨10, 0, 2147483647, 2147483647⟩) :=
    .of_script (m := machine Bool 3) (s := blankOutput) ⟨rfl, rfl, rfl, rfl, rfl, rfl⟩
      (blinkEvents ⟨10, 0, 2147483647, 2147483647⟩) ⟨rfl, ⟨rfl, reported⟩, trivial⟩
  have repainted := claim _ _ (composedFrame 2) run rfl
  have cancelled : ((blinked ⟨10, 0, 2147483647, 2147483647⟩).recompositeNow
      (composedFrame 2)).1 = .cancelled 0 := by decide
  unfold Repainted at repainted
  rw [cancelled] at repainted
  -- The frame is given up, although the column in the middle has changed.
  have inside : (⟨0, 0, 20, 1⟩ : Rect).Contains 10 0 := by decide
  have unchanged := (repainted 10 0 inside).1
  exact absurd unchanged (by decide)

end OutputLoop

end Xios
