import Xios.App.RecordsLaws

/-! The frames that an app sees, and the fence it gets for them between its calls. -/

namespace Xios

/-- What the app reads after a frame: the surface, the sequence number and the fence. -/
structure FrameReading where
  surfaceId : BitVec 32
  -- `xsurface_dirty_sequence`.
  dirtySeq : BitVec 64
  -- `xsurface_gpu_fence_token`.
  fence : Option (List UInt8 × BitVec 64)
  deriving DecidableEq

def XSurfaceConn.reading (c : XSurfaceConn) : FrameReading :=
  { surfaceId := c.currentSurfaceId, dirtySeq := c.dirtySeq, fence := c.gpuFenceToken }

def StreamFrame.reading (frame : StreamFrame) : FrameReading :=
  { surfaceId := frame.surfaceId, dirtySeq := frame.dirtySeq
    fence := some (frame.token, frame.value) }

/-- A connection together with what the app does with it. -/
structure FrameWatch where
  stream : AppStream
  -- No call of `xsurface_drain` is in progress.
  between : Bool := true
  -- What the app has read after each call that returned a frame.
  seen : List FrameReading := []

namespace FrameWatch

open XSurfaceConn AppStream

/-- Execute one pass through the read loop, and read the frame if the call returns one. -/
def next (geometry : Nat → SurfaceGeometry) (s : FrameWatch) (answer : DrainAnswer) :
    FrameWatch :=
  let stream := s.stream.next geometry answer
  match s.stream.conn.drain geometry answer with
  | .loop _ => { s with stream, between := false }
  | .done c true => { stream, between := true, seen := s.seen ++ [c.reading] }
  | .done _ false | .fail _ => { s with stream, between := true }

/-- All ways in which the app can read what was sent to it, one call after the other. -/
def machine (geometry : Nat → SurfaceGeometry) (outputs : List Nat) (wire : List UInt8)
    (ports : List Nat) : Machine FrameWatch DrainAnswer where
  start s := s = { stream := { conn := .connected geometry outputs } }
  enabled s := s.stream.Allowed wire ports
  next := next geometry

/-- Between calls, a fence that the app gets is the one of the last complete frame. -/
def TokenExact (s : FrameWatch) : Prop :=
  s.between = true → ∀ fence, s.stream.conn.gpuFenceToken = some fence →
    ∃ frame, (framesOf s.stream.records).getLast? = some frame ∧ fence = (frame.token, frame.value)

/-- The answer ends a call without a frame. -/
def Pauses : DrainAnswer → Prop
  | .recv .again | .recv .eof | .recv .error | .port .timedOut | .port .failed => True
  | _ => False

/-- Part of a token has arrived that differs from the token of the frame before. -/
def Torn (consumed : List UInt8) : Prop :=
  ∃ records m nonempty got frame,
    recordReader.parse .header consumed = ⟨records, some (.payload m nonempty, got), []⟩ ∧
      m.type = msgDirty ∧ (framesOf records).getLast? = some frame ∧ ¬got <+: frame.token

/-- No call ends while such a part has arrived. -/
def HarmlessPause (s : FrameWatch) (answer : DrainAnswer) : Prop :=
  Pauses answer → ¬Torn s.stream.consumed

section

variable {geometry : Nat → SurfaceGeometry} {outputs : List Nat} {wire : List UInt8}
  {ports : List Nat} {s : FrameWatch}

theorem stream_of_run {trace : List DrainAnswer}
    (run : (machine geometry outputs wire ports).Run trace s) :
    (AppStream.machine geometry outputs wire ports).Run trace s.stream := by
  induction run with
  | start begun =>
    obtain rfl := begun
    exact .start rfl
  | @step trace s answer run allowed ih =>
    have same : (next geometry s answer).stream = s.stream.next geometry answer := by
      unfold next
      split <;> rfl
    show (AppStream.machine geometry outputs wire ports).Run _ (next geometry s answer).stream
    rw [same]
    exact ih.step answer allowed

variable {records : List StreamRecord} {got : List UInt8}

theorem reading_of_reflects {c : XSurfaceConn} (reflects : c.Reflects records .header got)
    (whole : WholeFrames records) {frame : StreamFrame}
    (last : (framesOf records).getLast? = some frame) : c.reading = frame.reading := by
  have fence := reflects.fence
  have dirtySeq := reflects.dirtySeq
  have current := reflects.current
  rw [last] at fence dirtySeq current
  have value := (whole frame (List.mem_of_getLast? last)).2
  simp only [XSurfaceConn.reading, XSurfaceConn.gpuFenceToken, fence, dirtySeq, current]
  simp [fenceOf, overlay, value, StreamFrame.reading]

theorem gpuFenceToken_of_reflects {c : XSurfaceConn} {phase : RecordPhase}
    (reflects : c.Reflects records phase got) (whole : WholeFrames records) :
    c.gpuFenceToken = (framesOf records).getLast?.map fun frame =>
      (overlay phase got frame.token, frame.value) := by
  have fence := reflects.fence
  have dirtySeq := reflects.dirtySeq
  cases last : (framesOf records).getLast? with
  | none =>
    rw [last] at fence dirtySeq
    simp only [XSurfaceConn.gpuFenceToken, fence, dirtySeq]
    rfl
  | some frame =>
    rw [last] at fence dirtySeq
    have value := (whole frame (List.mem_of_getLast? last)).2
    simp only [XSurfaceConn.gpuFenceToken, fence, dirtySeq]
    simp [fenceOf, value]

theorem overlay_eq_iff {m : XiosMsg} {nonempty : 0 < m.length.toNat} {token : List UInt8}
    (dirty : m.type = msgDirty) :
    overlay (.payload m nonempty) got token = token ↔ got <+: token := by
  simp only [overlay, dirty, if_true]
  constructor
  · intro same
    exact ⟨_, same⟩
  · rintro ⟨rest, rfl⟩
    rw [List.drop_left]

/-- What one pass does to what the app sees. -/
inductive Passes (s : FrameWatch) (answer : DrainAnswer) (s' : FrameWatch) : Prop where
  | goesOn (works : ¬Pauses answer) (inside : s'.between = false)
      (frames : framesOf s'.stream.records = framesOf s.stream.records) (seen : s'.seen = s.seen)
  -- The call returns with a frame, which the app reads.
  | delivers (works : ¬Pauses answer) (frame : StreamFrame)
      (frames : framesOf s'.stream.records = framesOf s.stream.records ++ [frame])
      (seen : s'.seen = s.seen ++ [frame.reading])
      (fence : s'.stream.conn.gpuFenceToken = some (frame.token, frame.value))
  -- The call returns without a frame, and nothing has changed.
  | pauses (idle : Pauses answer) (outside : s'.between = true)
      (conn : s'.stream.conn = s.stream.conn) (consumed : s'.stream.consumed = s.stream.consumed)
      (seen : s'.seen = s.seen)

/-- One read hands over the frames it completes, and the fence of the newest one. -/
theorem passes (framed : InRecords wire) (follows : s.stream.Follows) {answer : DrainAnswer}
    (allowed : s.stream.Allowed wire ports answer)
    (unbroken : (s.stream.next geometry answer).failed = none ∨
      (s.stream.next geometry answer).failed = some .closed) :
    s.Passes answer (s.next geometry answer) := by
  obtain ⟨alive, asked⟩ := allowed
  cases waiting : s.stream.conn.pendingSurface with
  | some m =>
    cases answer with
    | recv result => simp [waiting] at asked
    | port result =>
      have step : s.stream.conn.drain geometry (.port result) =
          importPending geometry s.stream.conn m result := by
        simp [drain, waiting]
      cases result with
      | failed => simp [waiting] at asked
      | timedOut =>
        have paused : s.stream.conn.drain geometry (.port .timedOut) = .done s.stream.conn false :=
          step
        apply Passes.pauses (by trivial) <;> simp [FrameWatch.next, AppStream.next, paused, answerBytes]
      | arrived surface =>
        cases outcome : s.stream.conn.drain geometry (.port (.arrived surface)) with
        | loop c' =>
          apply Passes.goesOn id <;>
            simp [FrameWatch.next, AppStream.next, outcome, answerBytes, AppStream.records]
        | done c' dirty =>
          -- A port that arrives does not end the call.
          rw [step] at outcome
          simp only [importPending] at outcome
          split at outcome
          · cases outcome
          · split at outcome <;> cases outcome
        | fail reason =>
          simp only [AppStream.next, outcome] at unbroken
          rw [step] at outcome
          simp only [importPending] at outcome
          split at outcome
          · cases outcome
            simp at unbroken
          · split at outcome
            · cases outcome
              simp at unbroken
            · cases outcome
  | none =>
    cases answer with
    | port result => simp [waiting] at asked
    | recv result =>
      cases result with
      | eof | error =>
        apply Passes.pauses (by trivial) <;>
          simp [FrameWatch.next, AppStream.next, drain, waiting, answerBytes]
      | again =>
        apply Passes.pauses (by trivial) <;>
          simp [FrameWatch.next, AppStream.next, drain, waiting, answerBytes]
      | intr =>
        apply Passes.goesOn id <;>
          simp [FrameWatch.next, AppStream.next, drain, waiting, answerBytes, AppStream.records]
      | data bytes =>
        simp only [waiting] at asked
        obtain ⟨out, phase, got, whole, parsed, received⟩ :=
          follows.received framed alive asked.2.1 asked.2.2
        have step : s.stream.conn.drain geometry (.recv (.data bytes)) =
            s.stream.conn.receive bytes := by
          simp [drain, waiting]
        have frames {stream : AppStream} (consumed : stream.consumed = s.stream.consumed ++ bytes) :
            framesOf stream.records = framesOf s.stream.records ++ framesOf out := by
          rw [AppStream.records, consumed, parsed, framesOf_append]
        cases outcome : s.stream.conn.receive bytes with
        | loop c' =>
          rw [outcome] at received
          refine .goesOn id ?_ ?_ ?_
          · simp [FrameWatch.next, step, outcome]
          · rw [frames, received.1, List.append_nil]
            simp [FrameWatch.next, AppStream.next, step, outcome, answerBytes]
          · simp [FrameWatch.next, step, outcome]
        | done c' dirty =>
          rw [outcome] at received
          obtain ⟨rfl, rfl, ⟨frame, only, size, value⟩, reflects⟩ := received
          have wholly : WholeFrames (s.stream.records ++ out) := by
            refine wholeFrames_append whole fun frame' member => ?_
            rw [only, List.mem_singleton] at member
            exact member ▸ ⟨size, value⟩
          have last : (framesOf (s.stream.records ++ out)).getLast? = some frame := by
            rw [framesOf_append, only, List.getLast?_concat]
          have reads := reading_of_reflects reflects wholly last
          refine .delivers id frame ?_ ?_ ?_
          · rw [frames, only]
            simp [FrameWatch.next, AppStream.next, step, outcome, answerBytes]
          · simp [FrameWatch.next, step, outcome, reads]
          · have fence : c'.gpuFenceToken = some (frame.token, frame.value) :=
              congrArg FrameReading.fence reads
            simpa [FrameWatch.next, AppStream.next, step, outcome] using fence
        | fail reason =>
          simp only [AppStream.next, step, outcome] at unbroken
          rcases unbroken with open_ | closed
          · cases open_
          · cases closed
            exact absurd outcome (receive_ne_closed _ bytes)

theorem not_torn_iff {phase : RecordPhase} {consumed : List UInt8}
    (parsed : recordReader.parse .header consumed = ⟨records, some (phase, got), []⟩) :
    ¬Torn consumed ↔
      ∀ frame, (framesOf records).getLast? = some frame → overlay phase got frame.token = frame.token := by
  constructor
  · intro whole frame last
    cases phase with
    | header => rfl
    | payload m nonempty =>
      by_cases dirty : m.type = msgDirty
      · rw [overlay_eq_iff dirty]
        by_contra differs
        exact whole ⟨records, m, nonempty, got, frame, parsed, dirty, last, differs⟩
      · exact if_neg dirty
  · rintro same ⟨records', m, nonempty, got', frame, parsed', dirty, last, differs⟩
    rw [parsed] at parsed'
    cases parsed'
    exact differs ((overlay_eq_iff dirty).mp (same frame last))

theorem tokenExact_iff (follows : s.stream.Follows)
    (open_ : s.stream.failed = none ∨ s.stream.failed = some .closed) (outside : s.between = true) :
    s.TokenExact ↔ ¬Torn s.stream.consumed := by
  obtain ⟨phase, got, parsed, -, reflects⟩ := follows
  obtain ⟨whole, reflects⟩ := reflects open_
  have fence := gpuFenceToken_of_reflects reflects whole
  rw [not_torn_iff parsed]
  constructor
  · intro exact_ frame last
    rw [last] at fence
    obtain ⟨frame', last', same⟩ := exact_ outside _ fence
    rw [last] at last'
    cases last'
    exact congrArg Prod.fst same
  · intro same _ pair got_
    rw [fence] at got_
    cases last : (framesOf s.stream.records).getLast? with
    | none =>
      rw [last] at got_
      cases got_
    | some frame =>
      rw [last] at got_
      cases got_
      exact ⟨frame, rfl, congrArg (·, frame.value) (same frame last)⟩

section

variable {introduced : List XiosMsg} {pending : StreamPhase × List UInt8}
  (few : outputs.length ≤ outputQueueMaxBuffers)
  (whole : (streamReader outputs.length).parse (.header .opening) wire =
    ⟨introduced, some pending, []⟩)
  (paired : Paired geometry introduced ports)

include few whole paired

theorem passes_of_run {trace : List DrainAnswer}
    (run : (machine geometry outputs wire ports).Run trace s) {answer : DrainAnswer}
    (allowed : s.stream.Allowed wire ports answer) : s.Passes answer (s.next geometry answer) := by
  have framed := inRecords_of_stream whole
  have later := (stream_of_run run).step answer allowed
  exact passes framed (follows_of_run framed (stream_of_run run)) allowed
    (tracks_of_run few whole paired later).1

theorem seen_of_run {trace : List DrainAnswer}
    (run : (machine geometry outputs wire ports).Run trace s) :
    s.seen = (framesOf s.stream.records).map StreamFrame.reading := by
  induction run with
  | start begun =>
    obtain rfl := begun
    rfl
  | @step trace s answer run allowed ih =>
    show (next geometry s answer).seen = _
    cases passes_of_run few whole paired run allowed with
    | goesOn _ _ frames seen =>
      rw [seen, ih]
      exact congrArg _ frames.symm
    | delivers _ frame frames seen =>
      rw [seen, ih]
      show _ = (framesOf (next geometry s answer).stream.records).map _
      rw [frames, List.map_append]
      rfl
    | pauses _ _ _ consumed seen =>
      rw [seen, ih]
      show _ = (framesOf (next geometry s answer).stream.records).map _
      rw [AppStream.records, AppStream.records, consumed]

/--
However the bytes and ports of a stream arrive, the app reads its frames in order, one for each
call that returns one. Between calls it gets the token of the last frame, unless a call ends while
part of a different token has arrived.
-/
theorem frames_delivered {trace : List DrainAnswer} :
    ((machine geometry outputs wire ports).Run trace s →
      s.seen = (framesOf (recordReader.parse .header s.stream.consumed).out).map
          StreamFrame.reading ∧
        s.seen <+: (framesOf (recordReader.parse .header wire).out).map StreamFrame.reading) ∧
      (((machine geometry outputs wire ports).within TokenExact).Run trace s ↔
        ((machine geometry outputs wire ports).restrict HarmlessPause).Run trace s) := by
  constructor
  · intro run
    have seen := seen_of_run few whole paired run
    refine ⟨seen, ?_⟩
    have part := (tracks_of_run few whole paired (stream_of_run run)).2.1
    obtain ⟨more, split⟩ := recordReader.parse_out_prefix .header part
    rw [seen, ← split, framesOf_append, List.map_append]
    exact List.prefix_append ..
  · refine Machine.run_within_iff_of_run ?_ ?_
    · intro s begun outside fence got
      obtain rfl := begun
      cases got
    · intro trace s answer run exact_ allowed
      have after := (run.step answer allowed)
      have framed := inRecords_of_stream whole
      have follows := follows_of_run framed (stream_of_run after)
      have open_ := (tracks_of_run few whole paired (stream_of_run after)).1
      change (next geometry s answer).stream.Follows at follows
      change (next geometry s answer).stream.failed = _ ∨ _ at open_
      show (next geometry s answer).TokenExact ↔ _
      cases passes_of_run few whole paired run allowed with
      | goesOn works inside =>
        refine iff_of_true (fun outside => ?_) fun idle => absurd idle works
        rw [inside] at outside
        cases outside
      | delivers works frame frames _ fence =>
        refine iff_of_true (fun _ pair got => ?_) fun idle => absurd idle works
        rw [fence] at got
        cases got
        exact ⟨frame, by rw [frames, List.getLast?_concat], rfl⟩
      | pauses idle outside _ consumed =>
        rw [tokenExact_iff follows open_ outside]
        show ¬Torn (next geometry s answer).stream.consumed ↔ _
        rw [consumed]
        exact ⟨fun intact _ => intact, fun harmless => harmless idle⟩

end

def frameRecord (seq : BitVec 32) : XiosMsg :=
  { magic := msgMagic, type := msgDirty, windowId := primarySurfaceId, length := 32#32, a := seq
    c := seq }

def twoFrames : List UInt8 :=
  (frameRecord 1#32).encode ++ List.replicate 32 7 ++
    ((frameRecord 2#32).encode ++ List.replicate 32 9)

theorem parse_twoFrames : (streamReader [0].length).parse (.header .opening) twoFrames =
    ⟨[], some (.header .opening, []), []⟩ := by
  have takes (seq : BitVec 32) (token : List UInt8) (size : token.length = gpuFenceTokenSize)
      (announces : StreamView.opening.Announces 1 (frameRecord seq)) :
      (streamReader 1).parse (.header .opening) ((frameRecord seq).encode ++ token) =
        ⟨[], some (.header .opening, []), []⟩ :=
    announces.accepts size
  show (streamReader 1).parse _ ((frameRecord 1#32).encode ++ _ ++ (_ ++ _)) = _
  rw [Reader.parse_append_of_waiting _ (takes 1#32 _ rfl (by decide))]
  rw [List.nil_append, takes 2#32 _ rfl (by decide)]
  rfl

def halfToken : List DrainAnswer :=
  [.recv (.data (frameRecord 1#32).encode), .recv (.data (List.replicate 32 7)),
    .recv (.data (frameRecord 2#32).encode), .recv (.data (List.replicate 16 9))]

abbrev twoFrameMachine : Machine FrameWatch DrainAnswer :=
  machine (fun _ => ⟨8, 8, 32⟩) [0] twoFrames []

theorem enabled_data {s : FrameWatch} {bytes : List UInt8} (alive : s.stream.failed = none)
    (ready : s.stream.conn.pendingSurface = none)
    (fits : bytes ≠ [] ∧ bytes.length ≤ s.stream.conn.requested ∧
      s.stream.consumed ++ bytes <+: twoFrames) :
    twoFrameMachine.enabled s (.recv (.data bytes)) := by
  refine ⟨alive, ?_⟩
  simpa only [ready] using fits

theorem frames_delivered_twice :
    ∃ trace s, twoFrameMachine.Run trace s ∧
      s.seen = [{ surfaceId := primarySurfaceId, dirtySeq := 1#64
                  fence := some (List.replicate 32 7, 1#64) },
        { surfaceId := primarySurfaceId, dirtySeq := 2#64
          fence := some (List.replicate 32 9, 2#64) }] := by
  have script : twoFrameMachine.Admits { stream := { conn := .connected (fun _ => ⟨8, 8, 32⟩) [0] } }
      (halfToken ++ [.recv (.data (List.replicate 16 9))]) := by
    refine ⟨enabled_data rfl rfl ?_, enabled_data rfl rfl ?_, enabled_data rfl rfl ?_,
      enabled_data rfl rfl ?_, enabled_data rfl rfl ?_, trivial⟩ <;> decide
  have run := Machine.Run.of_script (m := twoFrameMachine) rfl _ script
  have paired : Paired (fun _ => ⟨8, 8, 32⟩) [] [] := ⟨[], List.nil_prefix, .nil⟩
  have delivered := ((frames_delivered (by decide) parse_twoFrames paired).1 run).1
  exact ⟨_, _, run, delivered.trans (by decide)⟩

/-- A call that ends in the middle of the second token leaves a mixture of both to the app. -/
theorem not_frames_delivered :
    ¬∀ (geometry : Nat → SurfaceGeometry) (outputs : List Nat) (wire : List UInt8)
        (ports : List Nat) (introduced : List XiosMsg) (pending : StreamPhase × List UInt8),
      outputs.length ≤ outputQueueMaxBuffers →
      (streamReader outputs.length).parse (.header .opening) wire =
        ⟨introduced, some pending, []⟩ →
      Paired geometry introduced ports →
      ∀ trace s, (machine geometry outputs wire ports).Run trace s → s.TokenExact := by
  intro exact_
  have script : twoFrameMachine.Admits { stream := { conn := .connected (fun _ => ⟨8, 8, 32⟩) [0] } }
      (halfToken ++ [.recv .again]) := by
    refine ⟨enabled_data rfl rfl ?_, enabled_data rfl rfl ?_, enabled_data rfl rfl ?_,
      enabled_data rfl rfl ?_, ⟨rfl, trivial⟩, trivial⟩ <;> decide
  have run := Machine.Run.of_script (m := twoFrameMachine) rfl _ script
  have paired : Paired (fun _ => ⟨8, 8, 32⟩) [] [] := ⟨[], List.nil_prefix, .nil⟩
  have mixed := exact_ _ [0] twoFrames [] [] _ (by decide) parse_twoFrames paired _ _ run rfl
  obtain ⟨frame, last, same⟩ := mixed (List.replicate 16 9 ++ List.replicate 16 7, 1#64) (by decide)
  -- The last whole frame still has the first token.
  have token := congrArg (Option.map StreamFrame.token) last
  have first : frame.token = List.replicate 16 9 ++ List.replicate 16 7 :=
    (congrArg Prod.fst same).symm
  rw [Option.map_some, first] at token
  exact absurd token (by decide)

end

end FrameWatch

end Xios
