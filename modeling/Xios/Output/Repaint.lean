import Xios.Lib.Machine
import Xios.Output.Damage
import Xios.Output.Queue

/-! The classic output loop: every repainted slot ends up showing the whole current scene. -/

namespace Xios

/-- What the consumers' threads do to the queue while the compositor works. -/
inductive ConsumerOp where
  -- A consumer claims to be done with a slot.
  | release (index : Nat) (clientBit : BitVec 32) (seq : Nat)
  -- A consumer disappears.
  | dropClient (clientBit : BitVec 32)
  -- A new consumer has completed its handshake.
  | recoverAbandoned
  deriving DecidableEq, Repr

def ConsumerOp.apply (q : OutputQueue) : ConsumerOp → OutputQueue
  | .release index clientBit seq => (q.release index clientBit seq).2
  | .dropClient clientBit => q.dropClient clientBit
  | .recoverAbandoned => q.recoverAbandoned

/-- How the attempt to show a client's buffer directly went. -/
inductive DirectPresent where
  -- The scene cannot be shown directly.
  | blocked
  -- The client's buffer was shown instead of an output slot.
  | presented
  -- The buffer could not be published, which ends the compositor.
  | failed
  deriving DecidableEq, Repr

/-- Everything a frame depends on outside the loop's own state. -/
structure Frame where
  -- Outcome of the direct-presentation attempt.
  direct : DirectPresent
  -- A stream-v2 consumer is connected, so slots rotate.
  rotate : Bool
  -- Binding the slot and queueing its release wait succeeded.
  bound : Bool
  -- What consumers did between acquisition and publication.
  meanwhile : List ConsumerOp
  -- The frame could be announced to the consumers.
  notified : Bool
  -- Consumers that were shown the frame and will release it.
  pendingClients : BitVec 32
  -- Sequence number of the frame.
  seq : Nat
  deriving DecidableEq, Repr

/-- The ways a frame can end. -/
inductive FrameOutcome where
  -- A client's buffer was shown directly.
  | direct
  -- No slot was free, so the frame will be retried.
  | noBuffer
  -- There was nothing to draw into the acquired slot.
  | cancelled (index : Fin outputQueueMaxBuffers)
  -- The slot was repainted within the listed rectangles and published.
  | painted (index : Fin outputQueueMaxBuffers) (rects : List Rect)
  -- The compositor gave up and is terminating.
  | fatal
  deriving DecidableEq, Repr

/--
The classic-mode compositor's output state, over pixels of any type.

The last three fields are what the code's state is about: the composited scene, what each slot's
memory holds, and which pixels of the scene changed since a slot was last published.
-/
structure OutputLoop (α : Type*) where
  queue : OutputQueue
  -- Output width in pixels.
  width : Int
  -- Output height in pixels.
  height : Int
  -- Damage accumulated since the last frame.
  damage : OutputDamage
  lastPresent : PresentDamage
  -- Damage of earlier frames.
  history : DamageHistory
  -- The last frame showed a client's buffer directly.
  directPresentActive : Bool
  -- The compositor has not been told to terminate.
  running : Bool
  -- Value a full composite gives each output pixel.
  scene : Int → Int → α
  -- Value each slot's memory holds for each output pixel.
  content : Fin outputQueueMaxBuffers → Int → Int → α
  -- Pixels whose composited value changed since the slot was last published.
  changed : Fin outputQueueMaxBuffers → Int → Int → Bool

namespace OutputLoop

variable {α : Type*} [DecidableEq α]

/-- A pixel lies on the output. -/
def Inside (s : OutputLoop α) (x y : Int) : Prop :=
  (⟨0, 0, s.width, s.height⟩ : Rect).Contains x y

def addReports (s : OutputLoop α) (reports : List DamageReport) : OutputLoop α :=
  { s with damage := reports.foldl (OutputDamage.addPx32 s.width s.height) s.damage }

def outputDamageAddFull (s : OutputLoop α) : OutputLoop α :=
  { s with damage := s.damage.addFull s.width s.height }

def setScene (s : OutputLoop α) (scene : Int → Int → α) : OutputLoop α :=
  { s with
    scene
    changed := fun i x y => s.changed i x y || decide (scene x y ≠ s.scene x y) }

def consume (s : OutputLoop α) : List Rect × OutputLoop α :=
  let (rects, lastPresent, damage) := outputDamageConsume s.width s.height s.damage
  (rects, { s with lastPresent, damage })

/-- Draw the scene into a slot, clipped to the listed rectangles. -/
def paint (s : OutputLoop α) (index : Fin outputQueueMaxBuffers) (rects : List Rect) :
    OutputLoop α :=
  { s with
    content := Function.update s.content index fun x y =>
      if Rect.Covers rects x y then s.scene x y else s.content index x y }

/-- Hand a slot over to the consumers, after which nothing has changed since its publication. -/
def publish (s : OutputLoop α) (index : Fin outputQueueMaxBuffers) (pendingClients : BitVec 32)
    (seq : Nat) : OutputLoop α :=
  { s with
    queue := s.queue.publish index pendingClients seq
    changed := Function.update s.changed index fun _ _ => false }

/-- Return from direct presentation, during which no slot was repainted. -/
def leaveDirect (s : OutputLoop α) : OutputLoop α :=
  if s.directPresentActive then
    outputDamageAddFull { s with directPresentActive := false, history := {} }
  else s

def composite (s : OutputLoop α) (frame : Frame) (grant : OutputQueue.Grant) :
    FrameOutcome × OutputLoop α :=
  let s := { s with damage := s.history.apply s.width s.height grant.age s.damage }
  if s.damage.valid then
    let (rects, s) := s.consume
    let s := s.paint grant.index rects
    if frame.notified then
      let s := s.publish grant.index frame.pendingClients frame.seq
      (.painted grant.index rects, { s with history := s.history.record s.lastPresent })
    else (.fatal, { s with running := false })
  else (.cancelled grant.index, { s with queue := s.queue.cancel grant.index })

def recompositeNow (s : OutputLoop α) (frame : Frame) : FrameOutcome × OutputLoop α :=
  match frame.direct with
  | .failed => (.fatal, { s with running := false })
  | .presented => (.direct, { s.consume.2 with directPresentActive := true })
  | .blocked =>
    let s := s.leaveDirect
    match s.queue.acquire frame.rotate with
    -- Damage stays in place until a slot comes free.
    | none => (.noBuffer, s)
    | some (grant, queue) =>
      let s := { s with queue := frame.meanwhile.foldl ConsumerOp.apply queue }
      if frame.bound then s.composite frame grant
      else (.fatal, { s with running := false })

/-- A requested output configuration and how applying it goes. -/
structure Reconfigure (α : Type*) where
  -- Requested width in pixels.
  pw : Int
  -- Requested height in pixels.
  ph : Int
  -- Largest render target of the GPU, not positive when unknown.
  maxPx : Int
  -- Scale and transform stay as they are.
  sameView : Bool
  -- New output memory could be allocated.
  allocated : Bool
  -- The GPU target could be bound to it.
  rebound : Bool
  -- Initial contents of the new memory.
  blank : Fin outputQueueMaxBuffers → Int → Int → α
  -- The scene after windows have been fitted to the new shape.
  scene : Int → Int → α
  -- Damage reported while windows are fitted.
  reports : List DamageReport

def refit (s : OutputLoop α) (change : Reconfigure α) : OutputLoop α :=
  ((s.setScene change.scene).addReports change.reports).outputDamageAddFull

/-- Apply an output configuration, reallocating the slots if the physical size changes. -/
def outputReconfigurePx (s : OutputLoop α) (change : Reconfigure α) : OutputLoop α :=
  if change.pw ≤ 0 ∨ change.ph ≤ 0 then s
  else if 0 < change.maxPx ∧ (change.maxPx < change.pw ∨ change.maxPx < change.ph) then s
  else if change.sameView ∧ change.pw = s.width ∧ change.ph = s.height then s
  else if change.pw ≠ s.width ∨ change.ph ≠ s.height then
    if change.allocated then
      let s := { s with
        queue := (OutputQueue.reset s.queue.count).getD s.queue
        content := change.blank
        width := change.pw
        height := change.ph
        -- The coarse flag is left as it was.
        damage := { s.damage with valid := false, rects := [] }
        history := {}
        directPresentActive := false }
      if change.rebound then s.refit change else { s with running := false }
    else s
  else s.refit change

/-- What happens to the output. -/
inductive Event (α : Type*) where
  | sceneChange (scene : Int → Int → α) (reports : List DamageReport)
  -- A consumer's thread acts on the queue.
  | consumer (op : ConsumerOp)
  | recomposite (frame : Frame)
  | reconfigure (change : Reconfigure α)

def next (s : OutputLoop α) : Event α → OutputLoop α
  | .sceneChange scene reports => (s.setScene scene).addReports reports
  | .consumer op => { s with queue := op.apply s.queue }
  | .recomposite frame => (s.recompositeNow frame).2
  | .reconfigure change => s.outputReconfigurePx change

/-- Every pixel whose composited value changes is reported as damage. -/
def Reported (s : OutputLoop α) (scene : Int → Int → α) (reports : List DamageReport) : Prop :=
  ∀ x y, s.Inside x y → scene x y ≠ s.scene x y → ∃ report ∈ reports, report.Contains x y

/-- Of what a scene change reports, the parts whose edges fit already name every changed pixel. -/
def Fitting (s : OutputLoop α) : Event α → Prop
  | .sceneChange scene reports => s.Reported scene (reports.filter (·.Fits))
  | _ => True

/-- A terminating compositor does nothing more, and scene changes report their damage. -/
def Allowed (s : OutputLoop α) : Event α → Prop
  | .sceneChange scene reports => s.running = true ∧ s.Reported scene reports
  | _ => s.running = true

/-- All runs of the output loop over `count` slots, from their allocation on. -/
def machine (α : Type*) [DecidableEq α] (count : Nat) : Machine (OutputLoop α) (Event α) where
  start s := OutputQueue.reset count = some s.queue ∧ s.damage = {} ∧ s.lastPresent = {} ∧
    s.history = {} ∧ s.directPresentActive = false ∧ s.running = true
  enabled := Allowed
  next := next

end OutputLoop

end Xios
