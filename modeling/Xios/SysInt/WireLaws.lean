import Mathlib.Data.List.Forall2
import Xios.SysInt.Wire

/-! What a link that is connected has said last is what was stored last, in whole records. -/

namespace Xios

def lastOf (type : BitVec 32) (records : List XiosMsg) : Option XiosMsg :=
  records.reverse.find? fun m => m.type = type

theorem lastOf_concat (type : BitVec 32) (records : List XiosMsg) (m : XiosMsg) :
    lastOf type (records ++ [m]) = if m.type = type then some m else lastOf type records := by
  simp only [lastOf, List.reverse_append, List.reverse_singleton, List.singleton_append,
    List.find?_cons]
  split <;> simp_all

def wireOf (records : List XiosMsg) : List UInt8 :=
  XiosMsg.hello.encode ++ (records.map XiosMsg.encode).flatten

theorem wireOf_concat (records : List XiosMsg) (m : XiosMsg) :
    wireOf (records ++ [m]) = wireOf records ++ m.encode := by
  simp [wireOf]

theorem length_wireOf (records : List XiosMsg) :
    (wireOf records).length = msgSize * (records.length + 1) := by
  induction records with
  | nil => rfl
  | cons m records ih =>
    simp only [wireOf, List.map_cons, List.flatten_cons, List.length_append,
      XiosMsg.length_encode, List.length_cons, msgSize] at ih ⊢
    omega

theorem whole_eq (m : XiosMsg) (plan : List WriteResult) :
    whole plan = decide ((writeLoop m.encode plan).ended = .done) := by
  have same : m.encode.length = XiosMsg.hello.encode.length := by
    rw [XiosMsg.length_encode, XiosMsg.length_encode]
  unfold whole
  rw [writeLoop_ended_congr m.encode XiosMsg.hello.encode plan same]

theorem whole_atOnce : whole atOnce = true := by
  decide

namespace WireLink

theorem sendRaw_link (w : WireLink) (m : XiosMsg) (plans : List (List WriteResult)) :
    w.link.sendRaw m (plans.map whole) =
      ((w.sendRaw m plans).1, (w.sendRaw m plans).2.1.link, (w.sendRaw m plans).2.2.map whole) := by
  have wired : ∀ bytes torn, (w.onWire bytes torn).link = w.link := by
    intro bytes torn
    unfold onWire
    split <;> rfl
  have first : (plans.map whole).headD true =
      decide ((writeLoop m.encode (plans.headD atOnce)).ended = .done) := by
    cases plans with
    | nil => rw [List.headD_nil, ← whole_eq m atOnce, whole_atOnce, List.map_nil, List.headD_nil]
    | cons plan rest => rw [List.headD_cons, ← whole_eq m plan, List.map_cons, List.headD_cons]
  have rest : (plans.map whole).tail = plans.tail.map whole := (List.map_tail).symm
  unfold SiLink.sendRaw sendRaw
  split
  · rfl
  · dsimp only
    rw [first, rest]
    split
    · rename_i done
      rw [if_pos (of_decide_eq_true done), wired]
    · rename_i failed
      rw [if_neg (by simpa using failed), wired]

theorem replay_link (w : WireLink) (remembered : List XiosMsg) (plans : List (List WriteResult)) :
    w.link.replay remembered (plans.map whole) =
      ((w.replay remembered plans).1.link, (w.replay remembered plans).2.map whole) := by
  induction remembered generalizing w plans with
  | nil => rfl
  | cons m rest ih =>
    simp only [SiLink.replay, replay, sendRaw_link]
    exact ih _ _

theorem ensure_link (w : WireLink) (attempt : WireAttempt) (remembered : List XiosMsg)
    (plans : List (List WriteResult)) :
    w.link.ensure attempt.outcome remembered (plans.map whole) =
      ((w.ensure attempt remembered plans).1, (w.ensure attempt remembered plans).2.1.link,
        (w.ensure attempt remembered plans).2.2.map whole) := by
  unfold SiLink.ensure ensure WireAttempt.outcome
  split
  · rfl
  split
  · rfl
  split
  · rfl
  · cases connects : attempt.connects with
    | false => simp
    | true =>
      simp only [whole, Bool.true_and, Bool.not_true, Bool.false_eq_true, if_false,
        decide_eq_true_eq]
      split
      · rw [replay_link { w with link := _, wires := _ }]
      · rfl

theorem send_link (w : WireLink) (m : XiosMsg) (remembered : List XiosMsg)
    (first second : WireAttempt) (plans : List (List WriteResult)) :
    w.link.send m remembered first.outcome second.outcome (plans.map whole) =
      (w.send m remembered first second plans).link := by
  unfold SiLink.send send
  rw [ensure_link]
  generalize w.ensure first remembered plans = ensured
  obtain ⟨connected, w, plans⟩ := ensured
  dsimp only
  split
  · rfl
  rw [sendRaw_link]
  generalize w.sendRaw m plans = sent
  obtain ⟨taken, w, plans⟩ := sent
  split
  · rfl
  have again := ensure_link { w with link := { w.link with lastTry := 0 } } second remembered plans
  rw [again]
  generalize ensure { w with link := { w.link with lastTry := 0 } } second remembered plans = ensured
  obtain ⟨connected, w, plans⟩ := ensured
  split
  · rw [sendRaw_link]
  · rfl

theorem pollMsg_link (id : LinkId) (w : WireLink) (attempt : WireAttempt)
    (remembered : List XiosMsg) (plans : List (List WriteResult)) (reads : List LinkRead) :
    (w.link.pollMsg id attempt.outcome remembered (plans.map whole) reads).2 =
      (w.pollMsg id attempt remembered plans reads).2.link := by
  unfold SiLink.pollMsg pollMsg
  rw [ensure_link]
  generalize w.ensure attempt remembered plans = ensured
  obtain ⟨connected, w, plans⟩ := ensured
  dsimp only
  split
  · rfl
  split
  · rfl
  · rfl

/-- The bytes of a connection are its records, then part of the one whose write failed, if any. -/
def Carries (stream : LinkStream) (wire : Wire) : Prop :=
  match wire.torn with
  | none => wire.bytes = wireOf stream.sent
  | some m => ∃ tail, wire.bytes = wireOf stream.sent ++ tail ∧ tail <+: m.encode ∧
      tail.length < msgSize

/-- Every connection a link has had carried whole records, up to the one that failed. -/
structure Framed (w : WireLink) : Prop where
  -- Connections that were opened.
  carried : List.Forall₂ Carries w.link.streams w.wires
  -- Connections that were given up before that.
  unopened : ∀ wire ∈ w.unopened, wire <+: XiosMsg.hello.encode ∧ wire.length < msgSize

/-- The current connection carried exactly some records. -/
def Speaks (w : WireLink) (sent : List XiosMsg) : Prop :=
  ∃ stream earlier rest, w.link.streams = stream :: earlier ∧ w.wires = ⟨wireOf sent, none⟩ :: rest ∧
    stream.sent = sent

theorem put_short {bytes : List UInt8} {plan : List WriteResult}
    (failed : (writeLoop bytes plan).ended ≠ .done) :
    (writeLoop bytes plan).put.length < bytes.length := by
  have whole := congrArg List.length (writeLoop_put_append_rest bytes plan)
  have left := List.length_pos_iff.2 ((writeLoop_rest_eq_nil bytes plan).not.2 failed)
  rw [List.length_append] at whole
  omega

theorem put_whole {bytes : List UInt8} {plan : List WriteResult}
    (done : (writeLoop bytes plan).ended = .done) : (writeLoop bytes plan).put = bytes := by
  have whole := writeLoop_put_append_rest bytes plan
  rwa [(writeLoop_rest_eq_nil bytes plan).2 done, List.append_nil] at whole

variable {w : WireLink} {sent : List XiosMsg}

theorem sendRaw_spec (framed : w.Framed) (spoken : w.link.isOpen = true → w.Speaks sent)
    (m : XiosMsg) (plans : List (List WriteResult)) :
    (w.sendRaw m plans).2.1.Framed ∧
      ((w.sendRaw m plans).2.1.link.isOpen = true → (w.sendRaw m plans).2.1.Speaks (sent ++ [m])) ∧
      ((w.sendRaw m plans).1 = false → (w.sendRaw m plans).2.1.link.isOpen = false) := by
  unfold sendRaw
  cases opened : w.link.isOpen with
  | false =>
    refine ⟨framed, fun reopened => ?_, fun _ => opened⟩
    simp only [Bool.not_false, if_true, opened] at reopened
    cases reopened
  | true =>
    obtain ⟨stream, earlier, rest, streams, wires, rfl⟩ := spoken opened
    have carried := framed.carried
    rw [streams, wires, List.forall₂_cons] at carried
    simp only [Bool.not_true, Bool.false_eq_true, if_false, onWire, wires]
    split
    · rename_i done
      rw [put_whole done, ← wireOf_concat]
      simp only [SiLink.onStream, streams]
      refine ⟨⟨?_, framed.unopened⟩, fun _ => ⟨_, _, _, rfl, rfl, rfl⟩, fun failed => by cases failed⟩
      exact .cons rfl carried.2
    · rename_i failed
      refine ⟨⟨?_, framed.unopened⟩, fun reopened => ?_, fun _ => rfl⟩
      · show List.Forall₂ Carries w.link.streams _
        rw [streams]
        have short := put_short failed
        rw [XiosMsg.length_encode] at short
        exact .cons ⟨_, rfl, writeLoop_put_begins _ _, short⟩ carried.2
      · cases reopened

theorem replay_spec (framed : w.Framed) (spoken : w.link.isOpen = true → w.Speaks sent)
    (remembered : List XiosMsg) (plans : List (List WriteResult)) :
    (w.replay remembered plans).1.Framed ∧
      ((w.replay remembered plans).1.link.isOpen = true →
        (w.replay remembered plans).1.Speaks (sent ++ remembered)) := by
  induction remembered generalizing w sent plans with
  | nil =>
    refine ⟨framed, fun opened => ?_⟩
    rw [List.append_nil]
    exact spoken opened
  | cons m rest ih =>
    obtain ⟨kept, more, -⟩ := sendRaw_spec framed spoken m plans
    obtain ⟨kept, all⟩ := ih kept more (w.sendRaw m plans).2.2
    refine ⟨kept, fun opened => ?_⟩
    have said := all opened
    rwa [List.append_assoc] at said

/-- A link that is open was so before, or has just repeated all that is remembered. -/
theorem ensure_spec (framed : w.Framed) (attempt : WireAttempt) (remembered : List XiosMsg)
    (plans : List (List WriteResult)) :
    (w.ensure attempt remembered plans).2.1.Framed ∧
      ((w.ensure attempt remembered plans).2.1.link.isOpen = true →
        (w.link.isOpen = true ∧ (w.ensure attempt remembered plans).2.1 = w) ∨
          (w.ensure attempt remembered plans).2.1.Speaks remembered) ∧
      ((w.ensure attempt remembered plans).1 = false →
        (w.ensure attempt remembered plans).2.1.link.isOpen = false) := by
  unfold ensure
  split
  · rename_i opened
    exact ⟨framed, fun _ => .inl ⟨opened, rfl⟩, fun failed => by cases failed⟩
  rename_i closed
  rw [Bool.not_eq_true] at closed
  have shut : ∀ {p : Prop}, w.link.isOpen = true → p := by
    intro p opened
    rw [closed] at opened
    cases opened
  split
  · exact ⟨framed, shut, fun _ => closed⟩
  split
  · exact ⟨framed, shut, fun _ => closed⟩
  dsimp only
  split
  · exact ⟨⟨framed.carried, framed.unopened⟩, shut, fun _ => closed⟩
  split
  · rename_i done
    -- The opening record is out, and the remembered ones follow it.
    have opening : wireOf [] = (writeLoop XiosMsg.hello.encode attempt.hello).put := by
      rw [put_whole done, wireOf, List.map_nil, List.flatten_nil, List.append_nil]
    have fresh : Framed
        { w with
          link := { w.link with
            lastTry := attempt.now, isOpen := true, helloReceived := false
            streams := {} :: w.link.streams }
          wires := ⟨(writeLoop XiosMsg.hello.encode attempt.hello).put, none⟩ :: w.wires } :=
      ⟨.cons opening.symm framed.carried, framed.unopened⟩
    obtain ⟨kept, all⟩ := replay_spec fresh
      (fun _ => ⟨_, _, _, rfl, by rw [opening], rfl⟩) remembered plans
    refine ⟨kept, fun opened => .inr (all opened), fun failed => by cases failed⟩
  · rename_i failed
    refine ⟨⟨framed.carried, ?_⟩, shut, fun _ => closed⟩
    intro wire member
    rcases List.mem_cons.1 member with rfl | earlier
    · have short := put_short failed
      rw [XiosMsg.length_encode] at short
      exact ⟨writeLoop_put_begins _ _, short⟩
    · exact framed.unopened wire earlier

/-- A link that is connected has said last what is stored, kind by kind. -/
def Current (remembered : List XiosMsg) (w : WireLink) : Prop :=
  w.link.isOpen = true →
    ∃ sent, w.Speaks sent ∧ ∀ type, lastOf type sent = lastOf type remembered

variable {remembered : List XiosMsg} {m : XiosMsg}

theorem lastOf_repeat (last : lastOf m.type remembered = some m)
    (current : ∀ type, type ≠ m.type → lastOf type sent = lastOf type remembered)
    (type : BitVec 32) : lastOf type (sent ++ [m]) = lastOf type remembered := by
  rw [lastOf_concat]
  split
  · rename_i same
    rw [← same, last]
  · rename_i other
    exact current type fun same => other same.symm

theorem Current.ensure (framed : w.Framed) (current : w.Current remembered)
    (attempt : WireAttempt) (plans : List (List WriteResult)) :
    (w.ensure attempt remembered plans).2.1.Framed ∧
      (w.ensure attempt remembered plans).2.1.Current remembered := by
  obtain ⟨kept, opens, -⟩ := ensure_spec framed attempt remembered plans
  refine ⟨kept, fun opened => ?_⟩
  rcases opens opened with ⟨before, same⟩ | spoken
  · rw [same]
    exact current before
  · exact ⟨remembered, spoken, fun _ => rfl⟩

theorem current_of_closed (closed : w.link.isOpen = false) (remembered : List XiosMsg) :
    w.Current remembered := by
  intro opened
  rw [closed] at opened
  cases opened

/-- A connected link has said last what is stored, except possibly of one kind. -/
def Lacks (type : BitVec 32) (remembered : List XiosMsg) (w : WireLink) : Prop :=
  w.link.isOpen = true → ∃ sent, w.Speaks sent ∧
    ∀ other, other ≠ type → lastOf other sent = lastOf other remembered

theorem Lacks.sendRaw (lacking : w.Lacks m.type remembered) (framed : w.Framed)
    (last : lastOf m.type remembered = some m) (plans : List (List WriteResult)) :
    (w.sendRaw m plans).2.1.Framed ∧ (w.sendRaw m plans).2.1.Current remembered ∧
      ((w.sendRaw m plans).1 = false → (w.sendRaw m plans).2.1.link.isOpen = false) := by
  cases opened : w.link.isOpen with
  | false =>
    have unchanged : w.sendRaw m plans = (false, w, plans) := by
      simp [WireLink.sendRaw, opened]
    rw [unchanged]
    exact ⟨framed, current_of_closed opened remembered, fun _ => opened⟩
  | true =>
    obtain ⟨sent, spoken, current⟩ := lacking opened
    obtain ⟨kept, more, closes⟩ := sendRaw_spec framed (fun _ => spoken) m plans
    exact ⟨kept, fun opened => ⟨_, more opened, lastOf_repeat last current⟩, closes⟩

/-- A value that is sent is what the peer hears last, now or when it connects again. -/
theorem Current.send {old : List XiosMsg} (framed : w.Framed) (current : w.Current old)
    (last : lastOf m.type remembered = some m)
    (others : ∀ type, type ≠ m.type → lastOf type old = lastOf type remembered)
    (first second : WireAttempt) (plans : List (List WriteResult)) :
    (w.send m remembered first second plans).Framed ∧
      (w.send m remembered first second plans).Current remembered := by
  obtain ⟨kept, opens, failing⟩ := ensure_spec framed first remembered plans
  -- Whatever the connection was before, it lacks at most the record to be sent.
  have lacking : (w.ensure first remembered plans).2.1.Lacks m.type remembered := by
    intro opened
    rcases opens opened with ⟨before, same⟩ | spoken
    · obtain ⟨sent, spoken, last⟩ := current before
      rw [same]
      exact ⟨sent, spoken, fun type other => (last type).trans (others type other)⟩
    · exact ⟨remembered, spoken, fun _ _ => rfl⟩
  unfold WireLink.send
  generalize w.ensure first remembered plans = ensured at kept failing lacking
  obtain ⟨connected, w, plans⟩ := ensured
  dsimp only at kept failing lacking ⊢
  split
  · rename_i missing
    exact ⟨kept, current_of_closed (failing (by simpa using missing)) remembered⟩
  obtain ⟨kept, current, closes⟩ := lacking.sendRaw kept last plans
  generalize w.sendRaw m plans = sent at kept current closes
  obtain ⟨taken, w, plans⟩ := sent
  split
  · exact ⟨kept, current⟩
  -- The failed write closed the connection, so a new one says everything that is stored.
  rename_i failed
  have shut := closes (by simpa using failed)
  have retried : Framed { w with link := { w.link with lastTry := 0 } } :=
    ⟨kept.carried, kept.unopened⟩
  have closed : Current remembered { w with link := { w.link with lastTry := 0 } } :=
    current_of_closed shut remembered
  obtain ⟨kept, current⟩ := closed.ensure retried second plans
  split
  · have lacking : (WireLink.ensure { w with link := { w.link with lastTry := 0 } } second
        remembered plans).2.1.Lacks m.type remembered := by
      intro opened
      obtain ⟨sent, spoken, last⟩ := current opened
      exact ⟨sent, spoken, fun type _ => last type⟩
    obtain ⟨kept, current, -⟩ := lacking.sendRaw kept last _
    exact ⟨kept, current⟩
  · exact ⟨kept, current⟩

/-- Two links with the same connections, as far as what went out on them is concerned. -/
def SameSent (l l' : SiLink) : Prop :=
  l'.streams.map LinkStream.sent = l.streams.map LinkStream.sent

theorem sameSent_onStream (l : SiLink) (change : LinkStream → LinkStream)
    (same : ∀ stream, (change stream).sent = stream.sent) : SameSent l (l.onStream change) := by
  unfold SameSent SiLink.onStream
  split
  · rfl
  · rename_i split
    rw [split, List.map_cons, List.map_cons, same]

theorem sameSent_pollReads (id : LinkId) (l : SiLink) (reads : List LinkRead) :
    SameSent l (l.pollReads id reads).2 ∧
      ((l.pollReads id reads).2.isOpen = true → l.isOpen = true) := by
  have opens : ∀ (l : SiLink) change, (l.onStream change).isOpen = l.isOpen := by
    intro l change
    unfold SiLink.onStream
    split <;> rfl
  -- The induction is on the reads, each of which adds to what came in.
  induction reads generalizing l with
  | nil => exact ⟨rfl, fun opened => opened⟩
  | cons read rest ih =>
    cases read with
    | again => exact ⟨rfl, fun opened => opened⟩
    | intr => exact ih l
    | eof => exact ⟨rfl, fun opened => by cases opened⟩
    | error => exact ⟨rfl, fun opened => by cases opened⟩
    | data first more =>
      unfold SiLink.pollReads
      dsimp only
      generalize (first :: more).take (msgSize - l.rx.length) = bytes
      have grown : SameSent l ({ l with rx := l.rx ++ bytes }.onStream fun stream =>
          { stream with received := stream.received ++ bytes }) :=
        sameSent_onStream { l with rx := l.rx ++ bytes } _ fun _ => rfl
      have still := opens { l with rx := l.rx ++ bytes } fun stream =>
        { stream with received := stream.received ++ bytes }
      generalize { l with rx := l.rx ++ bytes }.onStream (fun stream =>
        { stream with received := stream.received ++ bytes }) = now at grown still
      rw [← still]
      have rejects : SameSent l ({ now with rx := [] }.reject) ∧
          ({ now with rx := [] }.reject.isOpen = true → now.isOpen = true) :=
        ⟨(sameSent_onStream { now with rx := [] }
            (fun stream => { stream with rejected := true }) fun _ => rfl).trans grown,
          fun opened => by cases opened⟩
      split
      · obtain ⟨same, opened⟩ := ih now
        exact ⟨same.trans grown, opened⟩
      split
      · split
        · obtain ⟨same, opened⟩ := ih { now with rx := [], helloReceived := true }
          exact ⟨same.trans grown, opened⟩
        · exact rejects
      · split
        · exact ⟨(sameSent_onStream { now with rx := [] }
              (fun stream => { stream with returned := stream.returned ++ [_] })
              fun _ => rfl).trans grown,
            fun opened => (opens { now with rx := [] } _).symm.trans opened⟩
        · exact rejects

theorem Current.read (framed : w.Framed) (current : w.Current remembered) {l : SiLink}
    (same : SameSent w.link l) (opens : l.isOpen = true → w.link.isOpen = true) :
    Framed { w with link := l } ∧ Current remembered { w with link := l } := by
  refine ⟨⟨?_, framed.unopened⟩, fun opened => ?_⟩
  · -- What a connection carries depends only on the records sent on it.
    have carried := framed.carried
    unfold SameSent at same
    have lifted : ∀ streams streams' : List LinkStream, ∀ wires : List Wire,
        streams'.map LinkStream.sent = streams.map LinkStream.sent →
        List.Forall₂ Carries streams wires → List.Forall₂ Carries streams' wires := by
      intro streams streams' wires same carried
      induction carried generalizing streams' with
      | nil =>
        rw [List.map_nil, List.map_eq_nil_iff] at same
        rw [same]
        exact .nil
      | cons here _ ih =>
        cases streams' with
        | nil => cases same
        | cons stream' rest =>
          rw [List.map_cons, List.map_cons, List.cons.injEq] at same
          refine .cons ?_ (ih rest same.2)
          unfold Carries at here ⊢
          rwa [same.1]
    exact lifted _ _ _ same carried
  · obtain ⟨sent, ⟨stream, earlier, rest, streams, wires, rfl⟩, last⟩ := current (opens opened)
    unfold SameSent at same
    rw [streams, List.map_cons, List.map_eq_cons_iff] at same
    obtain ⟨stream', earlier', streams', sent, -⟩ := same
    exact ⟨stream.sent, ⟨stream', earlier', rest, streams', wires, sent⟩, last⟩

theorem Current.pollMsg (framed : w.Framed) (current : w.Current remembered) (id : LinkId)
    (attempt : WireAttempt) (plans : List (List WriteResult)) (reads : List LinkRead) :
    (w.pollMsg id attempt remembered plans reads).2.Framed ∧
      (w.pollMsg id attempt remembered plans reads).2.Current remembered := by
  obtain ⟨kept, current⟩ := current.ensure framed attempt plans
  unfold WireLink.pollMsg
  dsimp only
  split
  · exact ⟨kept, current⟩
  split
  · exact current.read kept rfl fun opened => by cases opened
  · obtain ⟨same, opens⟩ := sameSent_pollReads id (w.ensure attempt remembered plans).2.1.link reads
    exact current.read kept same opens

end WireLink

namespace WireHandle

def Event.outcome : Event → SysIntHandle.Event
  | .send request first second plans =>
    .send request first.outcome second.outcome (plans.map whole)
  | .ensure id attempt plans => .ensure id attempt.outcome (plans.map whole)
  | .poll id attempt plans reads => .poll id attempt.outcome (plans.map whole) reads

theorem handle_setLink (h : WireHandle) (id : LinkId) (w : WireLink) :
    (h.setLink id w).handle = h.handle.setLink id w.link := by
  unfold setLink handle SysIntHandle.setLink
  congr 1
  funext other
  by_cases same : other = id
  · subst same
    simp
  · simp [Function.update_of_ne same]

theorem handle_remember (h : WireHandle) (request : SendRequest) :
    (h.remember request).handle = h.handle.remember request := by
  cases request <;> rfl

theorem handle_next (h : WireHandle) (event : Event) :
    (h.next event).handle = h.handle.next event.outcome := by
  cases event with
  | send request first second plans =>
    simp only [next, handle_setLink, SysIntHandle.next, Event.outcome, ← handle_remember]
    rw [← WireLink.send_link]
    rfl
  | ensure id attempt plans =>
    simp only [next, handle_setLink, SysIntHandle.next, Event.outcome]
    have simulated := WireLink.ensure_link (h.link id) attempt (h.handle.remembered id) plans
    show _ = h.handle.setLink id ((h.link id).link.ensure _ _ _).2.1
    rw [simulated]
  | poll id attempt plans reads =>
    simp only [next, handle_setLink, SysIntHandle.next, Event.outcome]
    rw [← WireLink.pollMsg_link]
    rfl

variable {h : WireHandle}

/-- Forgetting the bytes on the wire leaves a run of the handle. -/
theorem run_handle {trace : List Event} (run : machine.Run trace h) :
    SysIntHandle.machine.Run (trace.map Event.outcome) h.handle := by
  induction run with
  | start begun =>
    obtain ⟨configured, rfl⟩ := begun
    exact .start ⟨configured, rfl⟩
  | @step trace h event _ _ ih =>
    have stepped := ih.step event.outcome trivial
    rw [show SysIntHandle.machine.next h.handle event.outcome = (h.next event).handle from
      (handle_next h event).symm] at stepped
    exact stepped

def fresh : WireHandle :=
  { link := fun _ => { link := { configured := true } } }

/-- A volume record is torn after ten bytes and sent again on a second connection. -/
def tornScript : List Event :=
  [.send (.volume 5#32) ⟨1, true, atOnce⟩ ⟨1, true, atOnce⟩ [[.took 10, .error]]]

theorem run_torn : machine.Run tornScript (tornScript.foldl next fresh) :=
  Machine.Run.of_script (m := machine) (s := fresh) ⟨fun _ => true, rfl⟩ tornScript
    ⟨trivial, trivial⟩

theorem run_handle_torn :
    SysIntHandle.machine.Run (tornScript.map Event.outcome)
        (tornScript.foldl next fresh).handle ∧
      ((tornScript.foldl next fresh).handle.link .sysint).streams.map (·.sent.length) = [2, 0] ∧
      ((tornScript.foldl next fresh).link .sysint).wires.map (·.bytes.length) = [96, 42] :=
  ⟨run_handle run_torn, by decide, by decide⟩

/-- What is stored of each kind is of that kind. -/
structure Typed (h : WireHandle) : Prop where
  -- Orientation and size.
  output : ∀ m ∈ h.lastOutput, m.type = inOutput
  volume : ∀ m ∈ h.lastVolume, m.type = inVolume
  appearance : ∀ m ∈ h.lastAppearance, m.type = inAppearance

variable {type : BitVec 32} {stored : Option XiosMsg}

theorem lastOf_toList (typed : ∀ m ∈ stored, m.type = type) :
    lastOf type stored.toList = stored := by
  cases stored with
  | none => rfl
  | some m => simp [lastOf, typed m rfl]

theorem lastOf_append_other {other : BitVec 32} (records : List XiosMsg)
    (typed : ∀ m ∈ stored, m.type = other) (differ : other ≠ type) :
    lastOf type (records ++ stored.toList) = lastOf type records := by
  cases stored with
  | none => simp
  | some m =>
    rw [Option.toList_some, lastOf_concat, if_neg]
    rw [typed m rfl]
    exact differ

theorem lastOf_append_same (records : List XiosMsg) (typed : ∀ m ∈ stored, m.type = type)
    (none : lastOf type records = none) : lastOf type (records ++ stored.toList) = stored := by
  cases stored with
  | none => simpa using none
  | some m => rw [Option.toList_some, lastOf_concat, if_pos (typed m rfl)]

theorem Typed.remembered (typed : h.Typed) (type : BitVec 32) :
    lastOf type (h.handle.remembered .iosc) =
        (if type = inOutput then h.lastOutput else none) ∧
      lastOf type (h.handle.remembered .sysint) =
        if type = inVolume then h.lastVolume
        else if type = inAppearance then h.lastAppearance else none := by
  show lastOf type h.lastOutput.toList = _ ∧
    lastOf type (h.lastAppearance.toList ++ h.lastVolume.toList) = _
  have alone : ∀ {kind : BitVec 32} {stored : Option XiosMsg}, (∀ m ∈ stored, m.type = kind) →
      lastOf type stored.toList = if type = kind then stored else none := by
    intro kind stored typed
    split
    · rename_i same
      subst same
      exact lastOf_toList typed
    · rename_i other
      exact lastOf_append_other [] typed fun same => other same.symm
  refine ⟨alone typed.output, ?_⟩
  split
  · rename_i same
    subst same
    refine lastOf_append_same _ typed.volume ?_
    rw [alone typed.appearance, if_neg (by decide)]
  · rename_i other
    rw [lastOf_append_other _ typed.volume fun same => other same.symm]
    exact alone typed.appearance

theorem Typed.remember (typed : h.Typed) (request : SendRequest) :
    (h.remember request).Typed ∧
      lastOf request.msg.type ((h.remember request).handle.remembered request.id) =
        some request.msg ∧
      (∀ type, type ≠ request.msg.type → lastOf type (h.handle.remembered request.id) =
        lastOf type ((h.remember request).handle.remembered request.id)) ∧
      ∀ id, id ≠ request.id →
        (h.remember request).handle.remembered id = h.handle.remembered id := by
  cases request with
  | volume v16 =>
    have stays : (h.remember (.volume v16)).Typed :=
      ⟨typed.output, fun m here => by cases here; rfl, typed.appearance⟩
    refine ⟨stays, ?_, fun type other => ?_, fun id other => ?_⟩
    · exact (stays.remembered inVolume).2
    · have other : type ≠ inVolume := other
      show lastOf type (h.handle.remembered .sysint) =
        lastOf type ((h.remember (.volume v16)).handle.remembered .sysint)
      rw [(typed.remembered type).2, (stays.remembered type).2, if_neg other, if_neg other]
      rfl
    · cases id with
      | iosc => rfl
      | sysint => exact absurd rfl other
  | appearance dark =>
    have stays : (h.remember (.appearance dark)).Typed :=
      ⟨typed.output, typed.volume, fun m here => by cases here; rfl⟩
    refine ⟨stays, ?_, fun type other => ?_, fun id other => ?_⟩
    · exact (stays.remembered inAppearance).2
    · have other : type ≠ inAppearance := other
      show lastOf type (h.handle.remembered .sysint) =
        lastOf type ((h.remember (.appearance dark)).handle.remembered .sysint)
      rw [(typed.remembered type).2, (stays.remembered type).2, if_neg other, if_neg other]
      rfl
    · cases id with
      | iosc => rfl
      | sysint => exact absurd rfl other
  | output transform logicalW logicalH =>
    have stays : (h.remember (.output transform logicalW logicalH)).Typed :=
      ⟨fun m here => by cases here; rfl, typed.volume, typed.appearance⟩
    refine ⟨stays, ?_, fun type other => ?_, fun id other => ?_⟩
    · exact (stays.remembered inOutput).1
    · have other : type ≠ inOutput := other
      show lastOf type (h.handle.remembered .iosc) =
        lastOf type ((h.remember (.output transform logicalW logicalH)).handle.remembered .iosc)
      rw [(typed.remembered type).1, (stays.remembered type).1, if_neg other, if_neg other]
    · cases id with
      | iosc => exact absurd rfl other
      | sysint => rfl

/-- Both links carry whole records and are up to date when connected. -/
structure Sound (h : WireHandle) : Prop where
  -- What is stored is of the right kinds.
  typed : h.Typed
  -- Connections carry whole records.
  framed : ∀ id, (h.link id).Framed
  -- A connected link is up to date.
  current : ∀ id, (h.link id).Current (h.handle.remembered id)

theorem Sound.setLink (typed : h.Typed) {id : LinkId} {w : WireLink}
    (framed : w.Framed) (current : w.Current (h.handle.remembered id))
    (others : ∀ other, other ≠ id →
      (h.link other).Framed ∧ (h.link other).Current (h.handle.remembered other)) :
    (h.setLink id w).Sound := by
  have both : ∀ other, ((h.setLink id w).link other).Framed ∧
      ((h.setLink id w).link other).Current (h.handle.remembered other) := by
    intro other
    by_cases same : other = id
    · subst same
      simpa [WireHandle.setLink] using ⟨framed, current⟩
    · simpa [WireHandle.setLink, Function.update_of_ne same] using others other same
  refine ⟨⟨typed.output, typed.volume, typed.appearance⟩, fun other => (both other).1,
    fun other => ?_⟩
  have stored : (h.setLink id w).handle.remembered other = h.handle.remembered other := by
    cases other <;> rfl
  rw [stored]
  exact (both other).2

/-- Every event leaves connected links up to date. -/
theorem Sound.next (sound : h.Sound) (event : Event) : (h.next event).Sound := by
  cases event with
  | send request first second plans =>
    obtain ⟨typed, last, others, unrelated⟩ := sound.typed.remember request
    have links : (h.remember request).link = h.link := by cases request <;> rfl
    obtain ⟨framed, current⟩ := (sound.current request.id).send (sound.framed request.id) last others
      first second plans
    refine Sound.setLink typed ?_ ?_ ?_
    · rw [links]
      exact framed
    · rw [links]
      exact current
    · intro other differs
      rw [links, unrelated other differs]
      exact ⟨sound.framed other, sound.current other⟩
  | ensure id attempt plans =>
    obtain ⟨framed, current⟩ := (sound.current id).ensure (sound.framed id) attempt plans
    exact Sound.setLink sound.typed framed current fun other _ =>
      ⟨sound.framed other, sound.current other⟩
  | poll id attempt plans reads =>
    obtain ⟨framed, current⟩ := (sound.current id).pollMsg (sound.framed id) id attempt plans reads
    exact Sound.setLink sound.typed framed current fun other _ =>
      ⟨sound.framed other, sound.current other⟩

theorem sound_of_run {trace : List Event} (run : machine.Run trace h) : h.Sound := by
  refine run.invariant (fun _ h => h.Sound) ?_ ?_
  · rintro h ⟨configured, rfl⟩
    refine ⟨⟨?_, ?_, ?_⟩, fun id => ⟨.nil, ?_⟩, fun id => ?_⟩
    · intro m none
      cases none
    · intro m none
      cases none
    · intro m none
      cases none
    · intro wire none
      cases none
    · exact WireLink.current_of_closed rfl _
  · intro _ h event sound _
    exact sound.next event

/--
A connected link has said last what was stored last, in whole records.

The bytes of its connection are an opening record and whole records, the last of which of each
kind is the one stored for that kind.
Connections that were given up carried the same up to the record, or the opening record, at which
a write failed.
-/
theorem last_value_converges {trace : List Event} {h : WireHandle} (run : machine.Run trace h)
    (id : LinkId) :
    ((h.link id).link.isOpen = true → ∃ sent, (h.link id).Speaks sent ∧
        match id with
        | .iosc => lastOf inOutput sent = h.lastOutput
        | .sysint =>
          lastOf inVolume sent = h.lastVolume ∧ lastOf inAppearance sent = h.lastAppearance) ∧
      List.Forall₂ WireLink.Carries (h.link id).link.streams (h.link id).wires ∧
      ∀ wire ∈ (h.link id).unopened, wire <+: XiosMsg.hello.encode := by
  obtain ⟨typed, framed, current⟩ := sound_of_run run
  refine ⟨fun opened => ?_, (framed id).carried, fun wire here => ((framed id).unopened wire here).1⟩
  obtain ⟨sent, spoken, last⟩ := current id opened
  refine ⟨sent, spoken, ?_⟩
  cases id with
  | iosc => exact (last inOutput).trans (typed.remembered inOutput).1
  | sysint =>
    exact ⟨(last inVolume).trans (typed.remembered inVolume).2,
      (last inAppearance).trans (typed.remembered inAppearance).2⟩

theorem last_value_converges_torn :
    ((tornScript.foldl next fresh).link .sysint).link.isOpen = true ∧
      ((tornScript.foldl next fresh).link .sysint).wires.map (·.bytes.length) = [96, 42] ∧
      ∃ sent, ((tornScript.foldl next fresh).link .sysint).Speaks sent ∧
        lastOf inVolume sent = some (SendRequest.volume 5#32).msg := by
  have opened : ((tornScript.foldl next fresh).link .sysint).link.isOpen = true := by decide
  obtain ⟨sent, spoken, volume, -⟩ := (last_value_converges run_torn .sysint).1 opened
  exact ⟨opened, by decide, sent, spoken, volume.trans rfl⟩

/-- A connection that was given up within a record did not carry whole records only. -/
theorem not_whole_records :
    ¬∀ trace h, machine.Run trace h → ∀ id, ∀ wire ∈ (h.link id).wires,
      ∃ records, wire.bytes = wireOf records := by
  intro claimed
  have torn : ∃ wire ∈ ((tornScript.foldl next fresh).link .sysint).wires, wire.bytes.length = 42 := by
    decide
  obtain ⟨wire, member, length⟩ := torn
  obtain ⟨records, same⟩ := claimed _ _ run_torn .sysint wire member
  -- Whole records fill a multiple of their size.
  rw [same, length_wireOf, msgSize] at length
  omega

end WireHandle

end Xios
