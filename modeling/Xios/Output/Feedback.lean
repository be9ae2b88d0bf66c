import Xios.Lib.Machine

/-! When clients are told that their frames were shown, as `iosc.c` does it. -/

namespace Xios

/-- How long the app may take to show a frame, in milliseconds. -/
def presentTimeoutMs : BitVec 32 := 100

/-- A request to be told when a frame was shown. -/
structure Feedback where
  -- How many were requested before.
  number : Nat
  -- The surface whose frame it is about.
  surface : Nat
  deriving DecidableEq

/-- How a feedback is answered. -/
inductive FeedbackAnswer where
  | presented
  | discarded
  deriving DecidableEq

/-- The objects of a surface that wait for an answer. -/
structure PresentSurface where
  surface : Nat
  -- Frame callbacks that the next commit makes valid, and valid ones.
  pendingFrames : List Nat := []
  frames : List Nat := []
  -- Feedbacks, oldest first.
  feedbacks : List Feedback := []
  deriving DecidableEq

/-- A frame that was handed to the app, with the objects that wait for it to be shown. -/
structure PresentBatch where
  -- How many were handed over before, which the code does not count.
  number : Nat
  -- The generation that the app has to show.
  seq : Nat
  startedMs : BitVec 32
  feedbacks : List Feedback
  frames : List Nat
  deriving DecidableEq

/-- What a repaint comes to. -/
inductive Paint where
  -- There is nothing to paint on, or nothing to paint.
  | retry
  | nothing
  -- All windows have been painted on canvases of their own.
  | canvases
  -- The output has been painted, with the generation published.
  | output (seq : Nat) (appClient memory : Bool) (nowMs : BitVec 32)
  deriving DecidableEq

/-- What a request for a repaint meets. -/
inductive RepaintRequest where
  -- Nothing on the output changed.
  | undamaged
  -- A repaint can be scheduled, by a timer or as soon as nothing else is to do.
  | scheduled (timer : Bool)
  -- A repaint cannot be scheduled.
  | atOnce (paint : Paint)
  deriving DecidableEq

/-- What becomes of a commit. -/
inductive CommitOutcome where
  | invalid
  -- Nothing has to be painted.
  | unchanged
  | changed (request : RepaintRequest)
  deriving DecidableEq

/-- What clients, timers and the app do. -/
inductive PresentEvent where
  | createSurface
  | surfaceFrame (surface : Nat)
  | presentationFeedback (surface : Nat)
  | commit (surface : Nat) (outcome : CommitOutcome)
  -- Something else asks for a repaint, or needs one at once.
  | recompositeAll (request : RepaintRequest)
  | recompositeNow (paint : Paint)
  -- A scheduled repaint is due, by the timer or because nothing else is to do.
  | repaintDue (timer : Bool) (paint : Paint)
  | frameClock
  -- The app is asked for the last generation that it has shown.
  | presentAck (presented : Nat) (nowMs : BitVec 32)
  -- Objects are destroyed without an answer.
  | feedbackDestroyed (number : Nat)
  | frameDestroyed (number : Nat)
  | surfaceDestroyed (surface : Nat) (request : Option RepaintRequest)
  deriving DecidableEq

/-- Everything that waits for an answer, and what was answered. -/
structure Presenter where
  surfaces : List PresentSurface := []
  -- Frames that were handed to the app, oldest first.
  presentBatches : List PresentBatch := []
  frameClockArmed : Bool := false
  recomposeScheduled : Bool := false
  repaintTimerArmed : Bool := false
  -- Objects created so far, which the code does not count.
  created : Nat := 0
  published : Nat := 0
  frameRequests : Nat := 0
  feedbackRequests : List Feedback := []
  -- Everything answered so far, oldest first, and what was destroyed without an answer.
  answers : List (Feedback × FeedbackAnswer) := []
  done : List Nat := []
  answeredBatches : List Nat := []
  lostFeedbacks : List Feedback := []
  lostFrames : List Nat := []

namespace Presenter

def modifySurface (p : Presenter) (surface : Nat) (f : PresentSurface → PresentSurface) :
    Presenter :=
  { p with surfaces := p.surfaces.map fun s => if s.surface = surface then f s else s }

def presentationPresentList (p : Presenter) (feedbacks : List Feedback) : Presenter :=
  { p with answers := p.answers ++ feedbacks.map fun feedback => (feedback, .presented) }

def frameListSendDone (p : Presenter) (frames : List Nat) : Presenter :=
  { p with done := p.done ++ frames }

def takeFeedbacks (p : Presenter) : List Feedback × Presenter :=
  (p.surfaces.flatMap PresentSurface.feedbacks,
    { p with surfaces := p.surfaces.map fun s => { s with feedbacks := [] } })

def takeFrames (p : Presenter) : List Nat × Presenter :=
  (p.surfaces.flatMap PresentSurface.frames,
    { p with surfaces := p.surfaces.map fun s => { s with frames := [] } })

def presentSurfaces (p : Presenter) : Presenter :=
  p.takeFeedbacks.2.presentationPresentList p.takeFeedbacks.1

def sendFrameCallbacks (p : Presenter) : Presenter :=
  p.takeFrames.2.frameListSendDone p.takeFrames.1

def frameClockArm (p : Presenter) : Presenter :=
  { p with frameClockArmed := true }

def frameClockDisarm (p : Presenter) : Presenter :=
  { p with frameClockArmed := false }

def frameClockTimerCb (p : Presenter) : Presenter :=
  let p := p.frameClockDisarm
  let p := if p.recomposeScheduled ∨ p.presentBatches ≠ [] then p else p.presentSurfaces
  p.sendFrameCallbacks

/-- Answer what waits for the first frame of the queue, and take that frame out. -/
def presentBatchAnswer (p : Presenter) (batch : PresentBatch) (rest : List PresentBatch) :
    Presenter :=
  let p := (p.presentationPresentList batch.feedbacks).frameListSendDone batch.frames
  { p with presentBatches := rest, answeredBatches := p.answeredBatches ++ [batch.number] }

def answerWhile (ready : PresentBatch → Bool) (p : Presenter) : List PresentBatch → Presenter
  | [] => p
  | batch :: rest =>
    if ready batch then answerWhile ready (p.presentBatchAnswer batch rest) rest else p

def frameCallbacksAfterRepaint (p : Presenter) : Presenter :=
  let p := p.frameClockDisarm
  let p := answerWhile (fun _ => true) p p.presentBatches
  p.presentSurfaces.sendFrameCallbacks

/-- Answer the frames that the app has shown, or should have shown by now. -/
def presentAckTimerCb (p : Presenter) (presented : Nat) (nowMs : BitVec 32) : Presenter :=
  let p := answerWhile (fun batch => decide (batch.seq ≤ presented ∨
    ¬(nowMs - batch.startedMs < presentTimeoutMs))) p p.presentBatches
  if p.presentBatches = [] then p.frameClockArm else p

def frameCallbacksAfterPresent (p : Presenter) (seq : Nat) (appClient memory : Bool)
    (nowMs : BitVec 32) : Presenter :=
  if seq = 0 ∨ appClient = false ∨ memory = false then p.frameCallbacksAfterRepaint
  else
    let p := p.frameClockDisarm
    let (feedbacks, p) := p.takeFeedbacks
    let (frames, p) := p.takeFrames
    { p with
      presentBatches := p.presentBatches ++ [⟨p.published, seq, nowMs, feedbacks, frames⟩]
      published := p.published + 1 }

def recompositeNow (p : Presenter) (paint : Paint) : Presenter :=
  let p :=
    if p.repaintTimerArmed then { p with repaintTimerArmed := false, recomposeScheduled := false }
    else p
  match paint with
  | .retry => { p with repaintTimerArmed := true, recomposeScheduled := true }
  | .nothing => p
  | .canvases => p.frameCallbacksAfterRepaint
  | .output seq appClient memory nowMs => p.frameCallbacksAfterPresent seq appClient memory nowMs

def recompositeAll (p : Presenter) (request : RepaintRequest) : Presenter :=
  if p.recomposeScheduled then p
  else
    match request with
    | .undamaged => p.frameClockArm
    | .scheduled timer =>
      { p with recomposeScheduled := true, repaintTimerArmed := timer || p.repaintTimerArmed }
    | .atOnce paint => p.recompositeNow paint

/-- A client asks to be called when it may draw the next frame. -/
def surfaceFrame (p : Presenter) (surface : Nat) : Presenter :=
  if p.surfaces.any (·.surface = surface) then
    { p.modifySurface surface fun s => { s with pendingFrames := p.frameRequests :: s.pendingFrames }
      with frameRequests := p.frameRequests + 1 }
  else p

/-- A client asks to be told when its frame was shown. -/
def presentationFeedback (p : Presenter) (surface : Nat) : Presenter :=
  if p.surfaces.any (·.surface = surface) then
    let feedback : Feedback := ⟨p.feedbackRequests.length, surface⟩
    { p.modifySurface surface fun s => { s with feedbacks := s.feedbacks ++ [feedback] }
      with feedbackRequests := p.feedbackRequests ++ [feedback] }
  else p

def surfaceCommitApply (p : Presenter) (surface : Nat) (outcome : CommitOutcome) : Presenter :=
  let p := p.modifySurface surface fun s =>
    { s with frames := s.pendingFrames ++ s.frames, pendingFrames := [] }
  match outcome with
  | .invalid => p
  | .changed request => p.recompositeAll request
  | .unchanged =>
    if p.surfaces.any fun s => s.surface = surface && !(s.frames.isEmpty && s.feedbacks.isEmpty)
    then p.frameClockArm
    else p

def presentationFeedbackDestroy (p : Presenter) (number : Nat) : Presenter :=
  let other (feedback : Feedback) : Bool := feedback.number ≠ number
  let waiting := p.surfaces.flatMap PresentSurface.feedbacks ++
    p.presentBatches.flatMap PresentBatch.feedbacks
  { p with
    surfaces := p.surfaces.map fun s => { s with feedbacks := s.feedbacks.filter other }
    presentBatches := p.presentBatches.map fun b => { b with feedbacks := b.feedbacks.filter other }
    lostFeedbacks := p.lostFeedbacks ++ waiting.filter fun feedback => !other feedback }

def frameCallbackDestroy (p : Presenter) (number : Nat) : Presenter :=
  let other (frame : Nat) : Bool := frame ≠ number
  let waiting := p.surfaces.flatMap (fun s => s.pendingFrames ++ s.frames) ++
    p.presentBatches.flatMap PresentBatch.frames
  { p with
    surfaces := p.surfaces.map fun s =>
      { s with pendingFrames := s.pendingFrames.filter other, frames := s.frames.filter other }
    presentBatches := p.presentBatches.map fun b => { b with frames := b.frames.filter other }
    lostFrames := p.lostFrames ++ waiting.filter fun frame => !other frame }

def surfaceResourceDestroy (p : Presenter) (surface : Nat) (request : Option RepaintRequest) :
    Presenter :=
  let gone := p.surfaces.filter (·.surface = surface)
  let p :=
    { p with
      surfaces := p.surfaces.filter (·.surface ≠ surface)
      answers := p.answers ++
        (gone.flatMap PresentSurface.feedbacks).map fun feedback => (feedback, .discarded)
      lostFrames := p.lostFrames ++ gone.flatMap fun s => s.frames ++ s.pendingFrames }
  match request with
  | none => p
  | some request => p.recompositeAll request

def next (p : Presenter) : PresentEvent → Presenter
  | .createSurface =>
    { p with surfaces := ⟨p.created, [], [], []⟩ :: p.surfaces, created := p.created + 1 }
  | .surfaceFrame surface => p.surfaceFrame surface
  | .presentationFeedback surface => p.presentationFeedback surface
  | .commit surface outcome => p.surfaceCommitApply surface outcome
  | .recompositeAll request => p.recompositeAll request
  | .recompositeNow paint => p.recompositeNow paint
  | .repaintDue timer paint =>
    { p with
      recomposeScheduled := false
      repaintTimerArmed := !timer && p.repaintTimerArmed }.recompositeNow paint
  | .frameClock => p.frameClockTimerCb
  | .presentAck presented nowMs => p.presentAckTimerCb presented nowMs
  | .feedbackDestroyed number => p.presentationFeedbackDestroy number
  | .frameDestroyed number => p.frameCallbackDestroy number
  | .surfaceDestroyed surface request => p.surfaceResourceDestroy surface request

/-- Everything that can happen from the start of the compositor on. -/
def machine : Machine Presenter PresentEvent where
  start p := p = {}
  enabled p event :=
    match event with
    | .frameClock => p.frameClockArmed = true
    | .repaintDue true _ => p.repaintTimerArmed = true
    | .repaintDue false _ => p.recomposeScheduled = true
    | _ => True
  next := next

end Presenter

end Xios
