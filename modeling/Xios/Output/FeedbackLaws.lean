import Mathlib.Data.List.Nodup
import Mathlib.Data.List.Perm.Basic
import Xios.Output.Feedback

/-! Clients are told once, and in order, that their frames were shown. -/

namespace Xios

namespace Presenter

def answered (p : Presenter) : List Feedback :=
  p.answers.map Prod.fst

def handedOver (p : Presenter) : List Feedback :=
  p.presentBatches.flatMap PresentBatch.feedbacks

def waiting (p : Presenter) : List Feedback :=
  p.surfaces.flatMap PresentSurface.feedbacks

def line (p : Presenter) : List Feedback :=
  p.answered ++ p.handedOver ++ p.waiting

def waitingFrames (p : Presenter) : List Nat :=
  p.surfaces.flatMap (fun s => s.pendingFrames ++ s.frames) ++
    p.presentBatches.flatMap PresentBatch.frames

def batchLine (p : Presenter) : List Nat :=
  p.answeredBatches ++ p.presentBatches.map PresentBatch.number

/-- Objects move on towards their answers, and nothing else happens to them. -/
structure Moves (p p' : Presenter) : Prop where
  line : p'.line = p.line
  frames : (p'.waitingFrames ++ p'.done).Perm (p.waitingFrames ++ p.done)
  -- Surfaces stay, and get no feedbacks.
  surfaces : p'.surfaces.map PresentSurface.surface = p.surfaces.map PresentSurface.surface
  own : ∀ s' ∈ p'.surfaces, ∃ s ∈ p.surfaces, s.surface = s'.surface ∧
    ∀ feedback ∈ s'.feedbacks, feedback ∈ s.feedbacks
  -- Frames are numbered as they are handed over.
  batches : p.batchLine = List.range p.published → p'.batchLine = List.range p'.published
  requests : p'.created = p.created ∧ p'.feedbackRequests = p.feedbackRequests ∧
    p'.frameRequests = p.frameRequests
  lost : p'.lostFeedbacks = p.lostFeedbacks ∧ p'.lostFrames = p.lostFrames

theorem Moves.refl (p : Presenter) : Moves p p :=
  ⟨rfl, .refl _, rfl, fun s member => ⟨s, member, rfl, fun _ => id⟩, id, ⟨rfl, rfl, rfl⟩, rfl, rfl⟩

variable {p p' : Presenter}

theorem Moves.trans {p'' : Presenter} (first : Moves p p') (second : Moves p' p'') : Moves p p'' where
  line := second.line.trans first.line
  frames := second.frames.trans first.frames
  surfaces := second.surfaces.trans first.surfaces
  own s'' member := by
    obtain ⟨s', member', same', less'⟩ := second.own s'' member
    obtain ⟨s, member, same, less⟩ := first.own s' member'
    exact ⟨s, member, same.trans same', fun feedback inside => less feedback (less' feedback inside)⟩
  batches numbered := second.batches (first.batches numbered)
  requests := ⟨second.requests.1.trans first.requests.1, second.requests.2.1.trans
    first.requests.2.1, second.requests.2.2.trans first.requests.2.2⟩
  lost := ⟨second.lost.1.trans first.lost.1, second.lost.2.trans first.lost.2⟩

theorem Moves.of_eq (surfaces : p'.surfaces = p.surfaces)
    (batches : p'.presentBatches = p.presentBatches) (answers : p'.answers = p.answers)
    (done : p'.done = p.done) (answered : p'.answeredBatches = p.answeredBatches)
    (published : p'.published = p.published)
    (requests : p'.created = p.created ∧ p'.feedbackRequests = p.feedbackRequests ∧
      p'.frameRequests = p.frameRequests)
    (lost : p'.lostFeedbacks = p.lostFeedbacks ∧ p'.lostFrames = p.lostFrames) : Moves p p' where
  line := by
    unfold Presenter.line Presenter.answered handedOver waiting
    rw [surfaces, batches, answers]
  frames := by
    unfold waitingFrames
    rw [surfaces, batches, done]
  surfaces := by rw [surfaces]
  own s member := ⟨s, surfaces ▸ member, rfl, fun _ => id⟩
  batches := by
    unfold batchLine
    rw [batches, answered, published]
    exact id
  requests := requests
  lost := lost

theorem moves_frameClockArm (p : Presenter) : Moves p p.frameClockArm :=
  .of_eq rfl rfl rfl rfl rfl rfl ⟨rfl, rfl, rfl⟩ ⟨rfl, rfl⟩

theorem moves_frameClockDisarm (p : Presenter) : Moves p p.frameClockDisarm :=
  .of_eq rfl rfl rfl rfl rfl rfl ⟨rfl, rfl, rfl⟩ ⟨rfl, rfl⟩

theorem moves_presentSurfaces (none : p.presentBatches = []) : Moves p p.presentSurfaces where
  line := by
    simp [Presenter.line, Presenter.answered, handedOver, waiting, presentSurfaces, takeFeedbacks,
      presentationPresentList, none, List.flatMap_map, Function.comp_def]
  frames := by
    simp [waitingFrames, presentSurfaces, takeFeedbacks, presentationPresentList, List.flatMap_map]
  surfaces := by
    simp [presentSurfaces, takeFeedbacks, presentationPresentList]
  own s' member := by
    simp only [presentSurfaces, takeFeedbacks, presentationPresentList, List.mem_map] at member
    obtain ⟨s, member, rfl⟩ := member
    exact ⟨s, member, rfl, nofun⟩
  batches := id
  requests := ⟨rfl, rfl, rfl⟩
  lost := ⟨rfl, rfl⟩

theorem moves_sendFrameCallbacks (p : Presenter) : Moves p p.sendFrameCallbacks where
  line := by
    simp [Presenter.line, Presenter.answered, handedOver, waiting, sendFrameCallbacks, takeFrames,
      frameListSendDone, List.flatMap_map]
  frames := by
    simp only [waitingFrames, sendFrameCallbacks, takeFrames, frameListSendDone, List.flatMap_map,
      List.append_nil]
    have apart := p.surfaces.flatMap_append_perm (fun s => s.pendingFrames) PresentSurface.frames
    rw [List.perm_iff_count]
    intro frame
    have parts := apart.count_eq frame
    simp only [List.count_append] at parts ⊢
    omega
  surfaces := by
    simp [sendFrameCallbacks, takeFrames, frameListSendDone]
  own s' member := by
    simp only [sendFrameCallbacks, takeFrames, frameListSendDone, List.mem_map] at member
    obtain ⟨s, member, rfl⟩ := member
    exact ⟨s, member, rfl, fun _ => id⟩
  batches := id
  requests := ⟨rfl, rfl, rfl⟩
  lost := ⟨rfl, rfl⟩

theorem moves_presentBatchAnswer {batch : PresentBatch} {rest : List PresentBatch}
    (all : p.presentBatches = batch :: rest) : Moves p (p.presentBatchAnswer batch rest) where
  line := by
    simp [Presenter.line, Presenter.answered, handedOver, waiting, presentBatchAnswer,
      presentationPresentList, frameListSendDone, all, Function.comp_def]
  frames := by
    simp only [waitingFrames, presentBatchAnswer, presentationPresentList, frameListSendDone,
      all, List.flatMap_cons]
    rw [List.perm_iff_count]
    intro frame
    simp only [List.count_append]
    omega
  surfaces := rfl
  own s member := ⟨s, member, rfl, fun _ => id⟩
  batches := by
    simp [batchLine, presentBatchAnswer, presentationPresentList, frameListSendDone, all]
  requests := ⟨rfl, rfl, rfl⟩
  lost := ⟨rfl, rfl⟩

theorem moves_answerWhile (ready : PresentBatch → Bool) {batches : List PresentBatch}
    (all : p.presentBatches = batches) : Moves p (answerWhile ready p batches) := by
  induction batches generalizing p with
  | nil => exact .refl p
  | cons batch rest ih =>
    unfold answerWhile
    split
    · exact (moves_presentBatchAnswer all).trans (ih rfl)
    · exact .refl p

theorem answerWhile_all {batches : List PresentBatch} (all : p.presentBatches = batches) :
    (answerWhile (fun _ => true) p batches).presentBatches = [] := by
  induction batches generalizing p with
  | nil => exact all
  | cons batch rest ih =>
    unfold answerWhile
    exact ih rfl

theorem moves_frameCallbacksAfterRepaint (p : Presenter) :
    Moves p p.frameCallbacksAfterRepaint := by
  have emptied := answerWhile_all (p := p.frameClockDisarm) rfl
  exact (moves_frameClockDisarm p).trans ((moves_answerWhile (fun _ => true) rfl).trans
    ((moves_presentSurfaces emptied).trans (moves_sendFrameCallbacks _)))

theorem moves_frameCallbacksAfterPresent (p : Presenter) (seq : Nat) (appClient memory : Bool)
    (nowMs : BitVec 32) : Moves p (p.frameCallbacksAfterPresent seq appClient memory nowMs) := by
  unfold frameCallbacksAfterPresent
  split
  · exact moves_frameCallbacksAfterRepaint p
  · refine ⟨?_, ?_, ?_, ?_, ?_, ⟨rfl, rfl, rfl⟩, rfl, rfl⟩
    · simp [Presenter.line, Presenter.answered, handedOver, waiting, takeFeedbacks, takeFrames,
        frameClockDisarm, List.flatMap_map]
    · have apart := p.surfaces.flatMap_append_perm (fun s => s.pendingFrames)
        fun s => s.frames
      simp only [waitingFrames, takeFeedbacks, takeFrames, frameClockDisarm, List.flatMap_map,
        List.flatMap_append, List.flatMap_cons, List.flatMap_nil, List.append_nil]
      rw [List.perm_iff_count]
      intro frame
      have parts := apart.count_eq frame
      simp only [List.count_append] at parts ⊢
      omega
    · simp [takeFeedbacks, takeFrames, frameClockDisarm]
    · intro s' member
      simp only [takeFeedbacks, takeFrames, frameClockDisarm, List.map_map, List.mem_map] at member
      obtain ⟨s, member, rfl⟩ := member
      exact ⟨s, member, rfl, nofun⟩
    · intro numbered
      simp only [batchLine, takeFeedbacks, takeFrames, frameClockDisarm, List.map_append,
        List.map_cons, List.map_nil, List.range_succ]
      rw [← List.append_assoc]
      exact congrArg (· ++ [p.published]) numbered

theorem moves_recompositeNow (p : Presenter) (paint : Paint) :
    Moves p (p.recompositeNow paint) := by
  unfold recompositeNow
  have timer : Moves p (if p.repaintTimerArmed then
      { p with repaintTimerArmed := false, recomposeScheduled := false } else p) := by
    split
    · exact .of_eq rfl rfl rfl rfl rfl rfl ⟨rfl, rfl, rfl⟩ ⟨rfl, rfl⟩
    · exact .refl p
  cases paint with
  | retry =>
    exact timer.trans (.of_eq rfl rfl rfl rfl rfl rfl ⟨rfl, rfl, rfl⟩ ⟨rfl, rfl⟩)
  | nothing => exact timer
  | canvases => exact timer.trans (moves_frameCallbacksAfterRepaint _)
  | output seq appClient memory nowMs =>
    exact timer.trans (moves_frameCallbacksAfterPresent _ seq appClient memory nowMs)

theorem moves_recompositeAll (p : Presenter) (request : RepaintRequest) :
    Moves p (p.recompositeAll request) := by
  unfold recompositeAll
  split
  · exact .refl p
  · cases request with
    | undamaged => exact moves_frameClockArm p
    | scheduled timer => exact .of_eq rfl rfl rfl rfl rfl rfl ⟨rfl, rfl, rfl⟩ ⟨rfl, rfl⟩
    | atOnce paint => exact moves_recompositeNow p paint

theorem moves_frameClockTimerCb (p : Presenter) : Moves p p.frameClockTimerCb := by
  unfold frameClockTimerCb
  refine (moves_frameClockDisarm p).trans (.trans ?_ (moves_sendFrameCallbacks _))
  split
  · exact .refl _
  · rename_i idle
    rw [not_or, not_not] at idle
    exact moves_presentSurfaces idle.2

theorem moves_presentAckTimerCb (p : Presenter) (presented : Nat) (nowMs : BitVec 32) :
    Moves p (p.presentAckTimerCb presented nowMs) := by
  unfold presentAckTimerCb
  dsimp only
  split
  · exact (moves_answerWhile _ rfl).trans (moves_frameClockArm _)
  · exact moves_answerWhile _ rfl

theorem moves_surfaceCommitApply (p : Presenter) (surface : Nat) (outcome : CommitOutcome) :
    Moves p (p.surfaceCommitApply surface outcome) := by
  unfold surfaceCommitApply
  have latched : Moves p (p.modifySurface surface fun s =>
      { s with frames := s.pendingFrames ++ s.frames, pendingFrames := [] }) := by
    refine ⟨?_, .of_eq ?_, ?_, fun s' member => ?_, id, ⟨rfl, rfl, rfl⟩, rfl, rfl⟩
    · unfold Presenter.line Presenter.answered handedOver waiting modifySurface
      simp only [List.flatMap_map, apply_ite, ite_self]
    · unfold waitingFrames modifySurface
      simp only [List.flatMap_map]
      congr 3
      funext s
      split <;> rfl
    · unfold modifySurface
      simp only [List.map_map]
      refine List.map_congr_left fun s _ => ?_
      simp only [Function.comp_apply]
      split <;> rfl
    · unfold modifySurface at member
      obtain ⟨s, there, rfl⟩ := List.mem_map.mp member
      refine ⟨s, there, ?_, ?_⟩ <;> split <;> simp
  cases outcome with
  | invalid => exact latched
  | changed request => exact latched.trans (moves_recompositeAll _ request)
  | unchanged =>
    dsimp only
    split
    · exact latched.trans (moves_frameClockArm _)
    · exact latched

/-- Every object is in one place. -/
structure Placed (p : Presenter) : Prop where
  -- Feedbacks wait, are answered or are lost, and are numbered as they are requested.
  feedbacks : p.feedbackRequests.Perm (p.line ++ p.lostFeedbacks)
  numbered : p.feedbackRequests.map Feedback.number = List.range p.feedbackRequests.length
  -- Frame callbacks wait, are called or are lost.
  frames : (List.range p.frameRequests).Perm (p.waitingFrames ++ p.done ++ p.lostFrames)
  -- Feedbacks wait on their own surfaces, which are all different.
  own : ∀ s ∈ p.surfaces, ∀ feedback ∈ s.feedbacks, feedback.surface = s.surface
  distinct : (p.surfaces.map PresentSurface.surface).Nodup
  fresh : ∀ surface ∈ p.surfaces.map PresentSurface.surface, surface < p.created
  -- Frames are answered in the order in which they were handed over.
  batches : p.batchLine = List.range p.published

/-- The feedbacks of each surface stand in the order in which they were requested. -/
def InOrder (line : List Feedback) : Prop :=
  ∀ surface, (line.filter (·.surface = surface)).Pairwise (·.number < ·.number)

theorem InOrder.insert {first rest : List Feedback} {feedback : Feedback}
    (ordered : InOrder (first ++ rest))
    (newest : ∀ other ∈ first ++ rest, other.number < feedback.number)
    (away : ∀ other ∈ rest, other.surface ≠ feedback.surface) :
    InOrder (first ++ feedback :: rest) := by
  intro surface
  have before := ordered surface
  rw [List.filter_append] at before ⊢
  rw [List.filter_cons]
  split
  · rename_i mine
    have same : feedback.surface = surface := of_decide_eq_true mine
    have none : rest.filter (·.surface = surface) = [] := by
      rw [List.filter_eq_nil_iff]
      intro other member
      simpa [← same] using away other member
    rw [none, List.append_nil] at before
    rw [none, List.pairwise_append]
    refine ⟨before, List.pairwise_singleton _ _, fun other member last single => ?_⟩
    rw [List.mem_singleton.mp single]
    exact newest other (List.mem_append_left _ (List.mem_of_mem_filter member))
  · exact before

theorem InOrder.sublist {line line' : List Feedback} (ordered : InOrder line)
    (fewer : line'.Sublist line) : InOrder line' :=
  fun surface => (ordered surface).sublist (fewer.filter _)

theorem InOrder.swap {first second third rest : List Feedback}
    (ordered : InOrder (first ++ second ++ third ++ rest))
    (apart : ∀ a ∈ second, ∀ b ∈ third, a.surface ≠ b.surface) :
    InOrder (first ++ third ++ second ++ rest) := by
  intro surface
  have before := ordered surface
  simp only [List.filter_append] at before ⊢
  have none : second.filter (·.surface = surface) = [] ∨ third.filter (·.surface = surface) = [] := by
    rw [List.filter_eq_nil_iff, List.filter_eq_nil_iff]
    by_contra both
    simp only [not_or, not_forall, not_not, decide_eq_true_eq] at both
    obtain ⟨⟨a, first, here⟩, b, second, there⟩ := both
    exact apart a first b second (here.trans there.symm)
  obtain none | none := none
  · simpa [none] using before
  · simpa [none] using before

theorem Placed.moves (placed : Placed p) (moves : Moves p p') : Placed p' where
  feedbacks := by
    rw [moves.requests.2.1, moves.line, moves.lost.1]
    exact placed.feedbacks
  numbered := by
    rw [moves.requests.2.1]
    exact placed.numbered
  frames := by
    rw [moves.requests.2.2, moves.lost.2]
    exact placed.frames.trans (moves.frames.symm.append_right _)
  own s' member feedback inside := by
    obtain ⟨s, there, same, less⟩ := moves.own s' member
    rw [← same]
    exact placed.own s there feedback (less feedback inside)
  distinct := by
    rw [moves.surfaces]
    exact placed.distinct
  fresh := by
    rw [moves.surfaces, moves.requests.1]
    exact placed.fresh
  batches := moves.batches placed.batches

theorem InOrder.moves (ordered : InOrder p.line) (moves : Moves p p') : InOrder p'.line := by
  rw [moves.line]
  exact ordered

variable {surface : Nat}

theorem Placed.split (placed : Placed p) (there : p.surfaces.any (·.surface = surface) = true) :
    ∃ before s after, p.surfaces = before ++ s :: after ∧ s.surface = surface ∧
      (∀ other ∈ before, other.surface ≠ surface) ∧ ∀ other ∈ after, other.surface ≠ surface := by
  obtain ⟨s, member, same⟩ := List.any_eq_true.mp there
  obtain ⟨before, after, parts⟩ := List.append_of_mem member
  have here : s.surface = surface := of_decide_eq_true same
  have distinct := placed.distinct
  rw [parts, List.map_append, List.map_cons, List.nodup_append, List.nodup_cons] at distinct
  obtain ⟨-, ⟨later, -⟩, earlier⟩ := distinct
  refine ⟨before, s, after, parts, here, fun other member equal => ?_, fun other member equal => ?_⟩
  · exact earlier _ (List.mem_map_of_mem member) _ List.mem_cons_self (equal.trans here.symm)
  · exact later ((equal.trans here.symm) ▸ List.mem_map_of_mem member)

theorem modifySurface_split {before after : List PresentSurface} {s : PresentSurface}
    (f : PresentSurface → PresentSurface) (parts : p.surfaces = before ++ s :: after)
    (here : s.surface = surface) (earlier : ∀ other ∈ before, other.surface ≠ surface)
    (later : ∀ other ∈ after, other.surface ≠ surface) :
    (p.modifySurface surface f).surfaces = before ++ f s :: after := by
  have same : ∀ others : List PresentSurface, (∀ other ∈ others, other.surface ≠ surface) →
      (others.map fun s => if s.surface = surface then f s else s) = others := by
    intro others away
    conv_rhs => rw [← List.map_id others]
    exact List.map_congr_left fun s member => if_neg (away s member)
  unfold modifySurface
  rw [parts]
  rw [List.map_append, List.map_cons, same before earlier, same after later, if_pos here]

theorem Placed.surfaceFrame (placed : Placed p) (surface : Nat) :
    Placed (p.surfaceFrame surface) ∧ (p.surfaceFrame surface).line = p.line := by
  unfold Presenter.surfaceFrame
  split
  · rename_i there
    obtain ⟨before, s, after, parts, here, earlier, later⟩ := placed.split there
    have changed := modifySurface_split (fun s =>
      { s with pendingFrames := p.frameRequests :: s.pendingFrames }) parts here earlier later
    have surfaces : (p.modifySurface surface fun s =>
        { s with pendingFrames := p.frameRequests :: s.pendingFrames }).surfaces.map
          PresentSurface.surface = p.surfaces.map PresentSurface.surface := by
      rw [changed, parts]
      simp
    have line : (p.modifySurface surface fun s =>
        { s with pendingFrames := p.frameRequests :: s.pendingFrames }).line = p.line := by
      unfold line waiting
      rw [changed, parts]
      simp [modifySurface, Presenter.answered, handedOver]
    refine ⟨⟨?_, placed.numbered, ?_, ?_, ?_, ?_, placed.batches⟩, line⟩
    · exact line ▸ placed.feedbacks
    · rw [List.perm_iff_count]
      intro frame
      have old := placed.frames.count_eq frame
      unfold waitingFrames at old ⊢
      rw [parts] at old
      rw [changed]
      simp only [modifySurface, List.flatMap_append, List.flatMap_cons, List.count_append,
        List.count_cons, List.range_succ, List.count_nil, List.cons_append] at old ⊢
      omega
    · intro s' member
      rw [changed, List.mem_append, List.mem_cons] at member
      have own := placed.own
      rw [parts] at own
      obtain earlier | rfl | later := member
      · exact own s' (List.mem_append_left _ earlier)
      · exact own s (List.mem_append_right _ List.mem_cons_self)
      · exact own s' (List.mem_append_right _ (List.mem_cons_of_mem _ later))
    · exact surfaces ▸ placed.distinct
    · exact surfaces ▸ placed.fresh
  · exact ⟨placed, rfl⟩

theorem Placed.number_lt (placed : Placed p) {feedback : Feedback} (member : feedback ∈ p.line) :
    feedback.number < p.feedbackRequests.length := by
  have requested : feedback ∈ p.feedbackRequests :=
    placed.feedbacks.mem_iff.mpr (List.mem_append_left _ member)
  have number := List.mem_map_of_mem (f := Feedback.number) requested
  rw [placed.numbered, List.mem_range] at number
  exact number

/-- A new feedback waits behind those of its surface. -/
theorem Placed.presentationFeedback (placed : Placed p) (surface : Nat) :
    Placed (p.presentationFeedback surface) ∧
      (InOrder p.line → InOrder (p.presentationFeedback surface).line) := by
  unfold Presenter.presentationFeedback
  split
  · rename_i there
    obtain ⟨before, s, after, parts, here, earlier, later⟩ := placed.split there
    generalize new : (⟨p.feedbackRequests.length, surface⟩ : Feedback) = feedback
    have changed := modifySurface_split (fun s =>
      { s with feedbacks := s.feedbacks ++ [feedback] }) parts here earlier later
    have surfaces : (p.modifySurface surface fun s =>
        { s with feedbacks := s.feedbacks ++ [feedback] }).surfaces.map
          PresentSurface.surface = p.surfaces.map PresentSurface.surface := by
      rw [changed, parts]
      simp
    have line : (p.modifySurface surface fun s =>
        { s with feedbacks := s.feedbacks ++ [feedback] }).line =
          p.answered ++ p.handedOver ++ before.flatMap PresentSurface.feedbacks ++ s.feedbacks ++
            feedback :: after.flatMap PresentSurface.feedbacks := by
      unfold line waiting
      rw [changed]
      simp [modifySurface, Presenter.answered, handedOver]
    have old : p.line = p.answered ++ p.handedOver ++ before.flatMap PresentSurface.feedbacks ++
        s.feedbacks ++ after.flatMap PresentSurface.feedbacks := by
      unfold Presenter.line waiting
      rw [parts]
      simp
    refine ⟨⟨?_, ?_, placed.frames.trans (.append_right _ (.append_right _ ?_)), ?_, ?_, ?_,
      placed.batches⟩, fun ordered => ?_⟩
    · -- The new feedback stands somewhere in the line.
      have moved : (p.line ++ [feedback]).Perm (p.modifySurface surface fun s =>
          { s with feedbacks := s.feedbacks ++ [feedback] }).line := by
        rw [line, old, List.append_assoc _ _ [feedback]]
        exact .append_left _ (List.perm_append_singleton _ _)
      have added := placed.feedbacks.append_right [feedback]
      refine added.trans ?_
      rw [List.append_assoc]
      refine (List.Perm.append_left _ List.perm_append_comm).trans ?_
      rw [← List.append_assoc]
      exact moved.append_right _
    · change (p.feedbackRequests ++ [feedback]).map Feedback.number =
        List.range (p.feedbackRequests ++ [feedback]).length
      rw [List.map_append, placed.numbered, List.length_append, List.length_singleton,
        List.range_succ, ← new]
      rfl
    · unfold waitingFrames
      rw [changed, parts]
      simp [modifySurface]
    · intro s' member
      rw [changed, List.mem_append, List.mem_cons] at member
      have own := placed.own
      rw [parts] at own
      obtain earlier | rfl | later := member
      · exact own s' (List.mem_append_left _ earlier)
      · intro waiting inside
        obtain old | rfl := List.mem_append.mp inside |>.imp_right List.mem_singleton.mp
        · exact own s (List.mem_append_right _ List.mem_cons_self) waiting old
        · rw [← new]
          exact here.symm
      · exact own s' (List.mem_append_right _ (List.mem_cons_of_mem _ later))
    · exact surfaces ▸ placed.distinct
    · exact surfaces ▸ placed.fresh
    · change InOrder (p.modifySurface surface fun s =>
        { s with feedbacks := s.feedbacks ++ [feedback] }).line
      rw [line]
      refine InOrder.insert (old ▸ ordered) (fun other member => ?_) fun other member => ?_
      · rw [← new]
        exact placed.number_lt (old ▸ member)
      · obtain ⟨s', member, inside⟩ := List.mem_flatMap.mp member
        have own := placed.own s' (parts ▸ List.mem_append_right _
          (List.mem_cons_of_mem _ member)) other inside
        rw [own, ← new]
        exact later s' member
  · exact ⟨placed, id⟩

theorem Placed.presentationFeedbackDestroy (placed : Placed p) (number : Nat) :
    Placed (p.presentationFeedbackDestroy number) ∧
      (InOrder p.line → InOrder (p.presentationFeedbackDestroy number).line) := by
  have waiting : (p.presentationFeedbackDestroy number).waiting =
      p.waiting.filter fun feedback => feedback.number ≠ number := by
    simp [Presenter.waiting, Presenter.presentationFeedbackDestroy, List.filter_flatMap,
      List.flatMap_map]
  have handed : (p.presentationFeedbackDestroy number).handedOver =
      p.handedOver.filter fun feedback => feedback.number ≠ number := by
    simp [handedOver, Presenter.presentationFeedbackDestroy, List.filter_flatMap, List.flatMap_map]
  have line : (p.presentationFeedbackDestroy number).line =
      p.answered ++ (p.handedOver.filter fun feedback => feedback.number ≠ number) ++
        p.waiting.filter fun feedback => feedback.number ≠ number := by
    unfold Presenter.line
    rw [waiting, handed]
    rfl
  refine ⟨⟨?_, placed.numbered, ?_, ?_, ?_, ?_, ?_⟩, fun ordered => ordered.sublist ?_⟩
  · -- What leaves the line is lost.
    have lost : (p.presentationFeedbackDestroy number).lostFeedbacks = p.lostFeedbacks ++
        (p.waiting ++ p.handedOver).filter fun feedback => !decide (feedback.number ≠ number) := rfl
    rw [line, lost]
    refine placed.feedbacks.trans ?_
    rw [List.perm_iff_count]
    intro feedback
    have first := (List.filter_append_perm (fun feedback : Feedback =>
      decide (feedback.number ≠ number)) p.handedOver).count_eq feedback
    have second := (List.filter_append_perm (fun feedback : Feedback =>
      decide (feedback.number ≠ number)) p.waiting).count_eq feedback
    unfold Presenter.line
    simp only [List.count_append, List.filter_append] at first second ⊢
    omega
  · have same : (p.presentationFeedbackDestroy number).waitingFrames = p.waitingFrames := by
      simp [waitingFrames, Presenter.presentationFeedbackDestroy, List.flatMap_map]
    rw [same]
    exact placed.frames
  · intro s' member feedback inside
    obtain ⟨s, there, rfl⟩ := List.mem_map.mp member
    exact placed.own s there feedback (List.mem_of_mem_filter inside)
  · simpa [Presenter.presentationFeedbackDestroy, Function.comp_def] using placed.distinct
  · simpa [Presenter.presentationFeedbackDestroy] using placed.fresh
  · simpa [Presenter.presentationFeedbackDestroy, batchLine, Function.comp_def] using placed.batches
  · rw [line]
    exact ((List.Sublist.refl _).append List.filter_sublist).append List.filter_sublist

theorem Placed.frameCallbackDestroy (placed : Placed p) (number : Nat) :
    Placed (p.frameCallbackDestroy number) ∧ (p.frameCallbackDestroy number).line = p.line := by
  have line : (p.frameCallbackDestroy number).line = p.line := by
    simp [Presenter.line, Presenter.answered, handedOver, waiting, Presenter.frameCallbackDestroy,
      List.flatMap_map]
  have frames : (p.frameCallbackDestroy number).waitingFrames =
      p.waitingFrames.filter fun frame => frame ≠ number := by
    simp [waitingFrames, Presenter.frameCallbackDestroy, List.filter_flatMap, List.flatMap_map]
  refine ⟨⟨?_, placed.numbered, ?_, ?_, ?_, ?_, ?_⟩, line⟩
  · rw [line]
    exact placed.feedbacks
  · have lost : (p.frameCallbackDestroy number).lostFrames = p.lostFrames ++
        p.waitingFrames.filter fun frame => !decide (frame ≠ number) := rfl
    rw [frames, lost]
    refine placed.frames.trans ?_
    rw [List.perm_iff_count]
    intro frame
    have parts := (List.filter_append_perm (fun frame : Nat => decide (frame ≠ number))
      p.waitingFrames).count_eq frame
    change _ = List.count frame (p.waitingFrames.filter _ ++ p.done ++ _)
    simp only [List.count_append] at parts ⊢
    omega
  · intro s' member feedback inside
    obtain ⟨s, there, rfl⟩ := List.mem_map.mp member
    exact placed.own s there feedback inside
  · simpa [Presenter.frameCallbackDestroy, Function.comp_def] using placed.distinct
  · simpa [Presenter.frameCallbackDestroy] using placed.fresh
  · simpa [Presenter.frameCallbackDestroy, batchLine, Function.comp_def] using placed.batches

theorem Placed.createSurface (placed : Placed p) :
    Placed (p.next .createSurface) ∧ (p.next .createSurface).line = p.line := by
  have absent : p.created ∉ p.surfaces.map PresentSurface.surface := by
    intro member
    exact Nat.lt_irrefl _ (placed.fresh _ member)
  refine ⟨⟨placed.feedbacks, placed.numbered, placed.frames, ?_, ?_, ?_, placed.batches⟩, rfl⟩
  · intro s member
    obtain rfl | earlier := List.mem_cons.mp member
    · nofun
    · exact placed.own s earlier
  · exact List.nodup_cons.mpr ⟨absent, placed.distinct⟩
  · intro surface member
    obtain rfl | earlier := List.mem_cons.mp member
    · exact Nat.lt_succ_self _
    · exact Nat.lt_succ_of_lt (placed.fresh surface earlier)

/-- A surface may be destroyed if the app has not still to show older frames of it. -/
def Settled (p : Presenter) : PresentEvent → Prop
  | .surfaceDestroyed surface _ =>
    (∀ s ∈ p.surfaces, s.surface = surface → s.feedbacks = []) ∨
      ∀ batch ∈ p.presentBatches, ∀ feedback ∈ batch.feedbacks, feedback.surface ≠ surface
  | _ => True

/-- A surface that is destroyed answers its feedbacks with discarded. -/
theorem Placed.destroyed (placed : Placed p) (there : p.surfaces.any (·.surface = surface) = true) :
    Placed (p.surfaceResourceDestroy surface none) ∧
      (p.Settled (.surfaceDestroyed surface none) → InOrder p.line →
        InOrder (p.surfaceResourceDestroy surface none).line) := by
  obtain ⟨before, s, after, parts, here, earlier, later⟩ := placed.split there
  have mine : p.surfaces.filter (fun s => decide (s.surface = surface)) = [s] := by
    rw [parts, List.filter_append, List.filter_cons_of_pos (by simpa using here),
      List.filter_eq_nil_iff.mpr fun other member => by simpa using earlier other member,
      List.filter_eq_nil_iff.mpr fun other member => by simpa using later other member,
      List.nil_append]
  have others : p.surfaces.filter (fun s => decide (s.surface ≠ surface)) = before ++ after := by
    rw [parts, List.filter_append, List.filter_cons_of_neg (by simpa using here),
      List.filter_eq_self.mpr fun other member => by simpa using earlier other member,
      List.filter_eq_self.mpr fun other member => by simpa using later other member]
  have result : p.surfaceResourceDestroy surface none =
      { p with
        surfaces := before ++ after
        answers := p.answers ++ s.feedbacks.map fun feedback => (feedback, .discarded)
        lostFrames := p.lostFrames ++ (s.frames ++ s.pendingFrames) } := by
    unfold Presenter.surfaceResourceDestroy
    rw [mine, others]
    simp
  have line : (p.surfaceResourceDestroy surface none).line = p.answered ++ s.feedbacks ++
      p.handedOver ++ (before.flatMap PresentSurface.feedbacks ++
        after.flatMap PresentSurface.feedbacks) := by
    rw [result]
    simp [Presenter.line, Presenter.answered, waiting, handedOver, Function.comp_def]
  have old : p.line = p.answered ++ p.handedOver ++ before.flatMap PresentSurface.feedbacks ++
      s.feedbacks ++ after.flatMap PresentSurface.feedbacks := by
    unfold Presenter.line waiting
    rw [parts]
    simp
  have fewer : (before ++ after).Sublist p.surfaces := by
    rw [parts]
    exact (List.Sublist.refl before).append (List.sublist_cons_self s after)
  have own : ∀ feedback ∈ s.feedbacks, feedback.surface = surface := by
    intro feedback inside
    rw [← here]
    exact placed.own s (parts ▸ List.mem_append_right _ List.mem_cons_self) feedback inside
  refine ⟨⟨?_, ?_, ?_, ?_, ?_, ?_, ?_⟩, fun settled ordered => ?_⟩
  · rw [line, result]
    refine placed.feedbacks.trans ?_
    rw [old, List.perm_iff_count]
    intro feedback
    simp only [List.count_append]
    omega
  · rw [result]
    exact placed.numbered
  · refine Eq.subst (motive := fun p' : Presenter => (List.range p'.frameRequests).Perm
      (p'.waitingFrames ++ p'.done ++ p'.lostFrames)) result.symm ?_
    refine placed.frames.trans ?_
    unfold waitingFrames
    rw [parts, List.perm_iff_count]
    intro frame
    simp only [List.flatMap_append, List.flatMap_cons, List.count_append]
    omega
  · rw [result]
    exact fun s' member => placed.own s' (fewer.subset member)
  · rw [result]
    exact placed.distinct.sublist (fewer.map _)
  · rw [result]
    exact fun other member => placed.fresh other ((fewer.map _).subset member)
  · rw [result]
    exact placed.batches
  · -- The feedbacks of the surface go to the front, past those of other surfaces.
    rw [line]
    rw [old] at ordered
    have first : InOrder (p.answered ++ p.handedOver ++ s.feedbacks ++
        before.flatMap PresentSurface.feedbacks ++ after.flatMap PresentSurface.feedbacks) := by
      refine ordered.swap fun a other b mine => ?_
      obtain ⟨s', member, inside⟩ := List.mem_flatMap.mp other
      rw [own b mine, placed.own s' (parts ▸ List.mem_append_left _ member) a inside]
      exact earlier s' member
    rw [List.append_assoc _ (before.flatMap _)] at first
    refine first.swap fun a handed b mine => ?_
    obtain none | away := settled
    · rw [none s (parts ▸ List.mem_append_right _ List.mem_cons_self) here] at mine
      cases mine
    · obtain ⟨batch, member, inside⟩ := List.mem_flatMap.mp handed
      rw [own b mine]
      exact away batch member a inside

theorem Placed.surfaceResourceDestroy (placed : Placed p) (surface : Nat)
    (request : Option RepaintRequest) :
    Placed (p.surfaceResourceDestroy surface request) ∧
      (p.Settled (.surfaceDestroyed surface request) → InOrder p.line →
        InOrder (p.surfaceResourceDestroy surface request).line) := by
  have gone : Placed (p.surfaceResourceDestroy surface none) ∧
      (p.Settled (.surfaceDestroyed surface none) → InOrder p.line →
        InOrder (p.surfaceResourceDestroy surface none).line) := by
    cases there : p.surfaces.any (·.surface = surface) with
    | false =>
      have away : ∀ s ∈ p.surfaces, s.surface ≠ surface := by
        simpa using there
      have none : p.surfaces.filter (fun s => decide (s.surface = surface)) = [] :=
        List.filter_eq_nil_iff.mpr (by simpa using away)
      have all : p.surfaces.filter (fun s => decide (s.surface ≠ surface)) = p.surfaces :=
        List.filter_eq_self.mpr (by simpa using away)
      have same : p.surfaceResourceDestroy surface .none = p := by
        unfold Presenter.surfaceResourceDestroy
        rw [none, all]
        simp
      rw [same]
      exact ⟨placed, fun _ => id⟩
    | true => exact placed.destroyed there
  cases request with
  | none => exact gone
  | some request =>
    have moves := moves_recompositeAll (p.surfaceResourceDestroy surface none) request
    exact ⟨gone.1.moves moves, fun settled ordered => (gone.2 settled ordered).moves moves⟩

theorem placed_empty : Placed {} :=
  ⟨.refl _, rfl, .refl _, nofun, List.nodup_nil, nofun, rfl⟩

/-- Every step leaves every object in one place, and the feedbacks in order. -/
theorem Placed.next (placed : Placed p) (event : PresentEvent) :
    Placed (p.next event) ∧
      (p.Settled event → InOrder p.line → InOrder (p.next event).line) := by
  have moved : ∀ {p' : Presenter}, Moves p p' →
      Placed p' ∧ (p.Settled event → InOrder p.line → InOrder p'.line) :=
    fun moves => ⟨placed.moves moves, fun _ ordered => ordered.moves moves⟩
  cases event with
  | createSurface =>
    obtain ⟨still, line⟩ := placed.createSurface
    exact ⟨still, fun _ ordered => line ▸ ordered⟩
  | surfaceFrame surface =>
    obtain ⟨still, line⟩ := placed.surfaceFrame surface
    exact ⟨still, fun _ ordered => by rwa [Presenter.next, line]⟩
  | presentationFeedback surface =>
    obtain ⟨still, ordered⟩ := placed.presentationFeedback surface
    exact ⟨still, fun _ => ordered⟩
  | commit surface outcome => exact moved (moves_surfaceCommitApply p surface outcome)
  | recompositeAll request => exact moved (moves_recompositeAll p request)
  | recompositeNow paint => exact moved (moves_recompositeNow p paint)
  | repaintDue timer paint =>
    refine moved (Moves.trans ?_ (moves_recompositeNow _ paint))
    exact .of_eq rfl rfl rfl rfl rfl rfl ⟨rfl, rfl, rfl⟩ ⟨rfl, rfl⟩
  | frameClock => exact moved (moves_frameClockTimerCb p)
  | presentAck presented nowMs => exact moved (moves_presentAckTimerCb p presented nowMs)
  | feedbackDestroyed number =>
    obtain ⟨still, ordered⟩ := placed.presentationFeedbackDestroy number
    exact ⟨still, fun _ => ordered⟩
  | frameDestroyed number =>
    obtain ⟨still, line⟩ := placed.frameCallbackDestroy number
    exact ⟨still, fun _ ordered => by rwa [Presenter.next, line]⟩
  | surfaceDestroyed surface request => exact placed.surfaceResourceDestroy surface request

/-- Objects are answered once and in order. -/
structure Answered (p : Presenter) : Prop where
  -- No feedback is answered twice, and no frame callback is called twice.
  feedbacksOnce : p.answered.Nodup
  framesOnce : p.done.Nodup
  -- Each object is in one place: on its surface, with one frame of the app, answered or lost.
  feedbackPlaces : ∀ feedback ∈ p.feedbackRequests,
    (p.surfaces.flatMap (fun s => s.feedbacks.filter (·.surface = s.surface)) ++
      p.presentBatches.flatMap PresentBatch.feedbacks ++ p.answered ++
      p.lostFeedbacks).count feedback = 1
  framePlaces : ∀ frame < p.frameRequests,
    (p.surfaces.flatMap (fun s => s.pendingFrames ++ s.frames) ++
      p.presentBatches.flatMap PresentBatch.frames ++ p.done ++ p.lostFrames).count frame = 1
  -- The feedbacks of each surface are answered in the order of their requests.
  inOrder : ∀ surface, (p.answered.filter (·.surface = surface)).Pairwise (·.number < ·.number)
  -- Frames are answered in the order in which they were handed to the app.
  batchesInOrder : p.answeredBatches.Pairwise (· < ·)

theorem Placed.nodup (placed : Placed p) : p.feedbackRequests.Nodup := by
  have numbers : (p.feedbackRequests.map Feedback.number).Nodup := by
    rw [placed.numbered]
    exact List.nodup_range
  exact List.Nodup.of_map _ numbers

/--
Objects are answered once and in order.

Up to then, no surface was destroyed with feedbacks on it while the app had still to show older
frames of it.
-/
theorem answered_once_in_order {trace : List PresentEvent} {p : Presenter}
    (run : (machine.restrict Settled).Run trace p) : Answered p := by
  have invariant : Placed p ∧ InOrder p.line := by
    refine Machine.Run.invariant (fun _ p => Placed p ∧ InOrder p.line) ?_ ?_ run
    · rintro p rfl
      exact ⟨placed_empty, fun _ => List.Pairwise.nil⟩
    · intro trace p event both allowed
      obtain ⟨placed, ordered⟩ := both.1.next event
      exact ⟨placed, ordered allowed.2 both.2⟩
  obtain ⟨placed, ordered⟩ := invariant
  have all : (p.line ++ p.lostFeedbacks).Nodup := placed.feedbacks.nodup_iff.mp placed.nodup
  have frames : (p.waitingFrames ++ p.done ++ p.lostFrames).Nodup :=
    placed.frames.nodup_iff.mp List.nodup_range
  have own : p.surfaces.flatMap (fun s => s.feedbacks.filter (·.surface = s.surface)) =
      p.waiting := by
    refine List.flatMap_congr fun s member => ?_
    rw [List.filter_eq_self]
    intro feedback inside
    exact decide_eq_true (placed.own s member feedback inside)
  refine ⟨?_, ?_, fun feedback requested => ?_, fun frame requested => ?_, fun surface => ?_, ?_⟩
  · unfold line at all
    rw [List.append_assoc, List.append_assoc] at all
    exact (List.nodup_append.mp all).1
  · rw [List.append_assoc] at frames
    exact (List.nodup_append.mp (List.nodup_append.mp frames).2.1).1
  · have once := List.nodup_iff_count_eq_one.mp placed.nodup feedback requested
    rw [placed.feedbacks.count_eq feedback] at once
    rw [own]
    unfold line handedOver at once
    simp only [List.count_append] at once ⊢
    omega
  · have once := List.nodup_iff_count_eq_one.mp List.nodup_range frame (List.mem_range.mpr requested)
    rw [placed.frames.count_eq frame] at once
    exact once
  · have before := ordered surface
    unfold line at before
    rw [List.filter_append, List.filter_append] at before
    exact (List.pairwise_append.mp (List.pairwise_append.mp before).1).1
  · have numbered := placed.batches
    unfold batchLine at numbered
    have sorted : (p.answeredBatches ++ p.presentBatches.map PresentBatch.number).Pairwise
        (· < ·) := numbered ▸ List.pairwise_lt_range
    exact (List.pairwise_append.mp sorted).1

def shownInTime : List PresentEvent :=
  [.createSurface, .presentationFeedback 0, .surfaceFrame 0,
    .commit 0 (.changed (.scheduled false)), .repaintDue false (.output 1 true true 0),
    .presentationFeedback 0, .presentAck 1 5, .surfaceDestroyed 0 none]

theorem answered_once_in_order_shownInTime :
    ∃ p : Presenter, (machine.restrict Settled).Run shownInTime.reverse p ∧
      p.answers = [(⟨0, 0⟩, .presented), (⟨1, 0⟩, .discarded)] ∧ Answered p := by
  have run : (machine.restrict Settled).Run shownInTime.reverse _ :=
    .of_script (m := machine.restrict Settled) (s := {}) rfl shownInTime
      ⟨⟨trivial, trivial⟩, ⟨trivial, trivial⟩, ⟨trivial, trivial⟩, ⟨trivial, trivial⟩,
        ⟨rfl, trivial⟩, ⟨trivial, trivial⟩, ⟨trivial, trivial⟩, ⟨trivial, Or.inr nofun⟩, trivial⟩
  exact ⟨_, run, rfl, answered_once_in_order run⟩

def shownTooLate : List PresentEvent :=
  [.createSurface, .presentationFeedback 0, .commit 0 (.changed (.scheduled false)),
    .repaintDue false (.output 1 true true 0), .presentationFeedback 0, .surfaceDestroyed 0 none,
    .presentAck 1 5]

/-- The second frame of a surface that is destroyed can be answered before the first one. -/
theorem not_answered_once_in_order :
    ¬∀ (trace : List PresentEvent) (p : Presenter), machine.Run trace p → Answered p := by
  intro answered
  have run : machine.Run shownTooLate.reverse _ :=
    .of_script (m := machine) (s := {}) rfl shownTooLate
      ⟨trivial, trivial, trivial, rfl, trivial, trivial, trivial, trivial⟩
  have ordered := (answered _ _ run).inOrder 0
  revert ordered
  decide

end Presenter

end Xios
