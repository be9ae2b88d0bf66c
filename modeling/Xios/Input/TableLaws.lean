import Xios.Input.Table
import Xios.Input.SocketLaws

/-! The clients of the input socket keep their identity, their queues and their announcements. -/

namespace Xios

namespace InputSocket

/-- What one event can do to the client in a place that stays there. -/
inductive PeerStep (s : InputSocket) (i : Fin maxInputClients) (p : InputPeer) :
    Event → InputPeer → Prop where
  | same (event : Event) : PeerStep s i p event p
  -- A broadcast reaches it.
  | heard {event : Event} (bound : BitVec 32) (record : List UInt8) (answer : SendAnswer)
      (chosen : hears p bound = true) :
      PeerStep s i p event { p with queue := p.queue.sendOrShut record answer }
  -- A record for the proxies reaches it.
  | proxied {event : Event} (record : List UInt8) (answer : SendAnswer)
      (chosen : isProxy p = true) : PeerStep s i p event (proxySend p record answer)
  -- Its queue moves on.
  | flushed {id : BitVec 32} (plan : List WriteResult) (found : s.clientById id = some i) :
      PeerStep s i p (.writeEvent id plan) { p with queue := p.queue.clientFlush plan }
  -- It is read from.
  | read {result : ReadResult} {eof : Bool} {client : InClient} {record : Option InputRecord}
      (here : s.phase = .reading i eof) (kept : p.client.clientRead result = .keep client record) :
      PeerStep s i p (.read result) { p with client }

variable {s : InputSocket} {i : Fin maxInputClients} {p : InputPeer}

theorem clientDrop_eq (present : s.clients i = some p) (announce : Bool) :
    s.clientDrop i announce =
      { s with
        clients := Function.update s.clients i none
        drops := s.drops ++
          if announce && p.client.helloReceived && s.dropCb then [p.id] else [] } := by
  unfold clientDrop
  rw [present]
  cases told : announce && p.client.helloReceived && s.dropCb <;> simp [setClient, told]

variable {j : Fin maxInputClients}

theorem eq_some_of_update {clients : Fin maxInputClients → Option InputPeer}
    {put : Option InputPeer} (here : Function.update clients i put j = some p) :
    j = i ∧ put = some p ∨ j ≠ i ∧ clients j = some p := by
  by_cases same : j = i
  · subst same
    rw [Function.update_self] at here
    exact .inl ⟨rfl, here⟩
  · rw [Function.update_of_ne same] at here
    exact .inr ⟨same, here⟩

theorem clients_clientDrop {announce : Bool} (here : (s.clientDrop i announce).clients j = some p) :
    s.clients j = some p := by
  cases present : s.clients i with
  | none =>
    unfold clientDrop at here
    rwa [present] at here
  | some q =>
    rw [clientDrop_eq present] at here
    rcases eq_some_of_update here with ⟨-, gone⟩ | ⟨-, stayed⟩
    · cases gone
    · exact stayed

theorem acceptClient_cases (s : InputSocket) (answer : AcceptAnswer) :
    s.acceptClient answer = { s with acceptedCount := s.acceptedCount + 1 } ∨
      s.acceptClient answer =
        { s with acceptedCount := s.acceptedCount + 1, nextId := bumpId s.nextId } ∨
      ∃ i, s.clients i = none ∧ s.acceptClient answer =
        { s with
          acceptedCount := s.acceptedCount + 1
          nextId := bumpId s.nextId
          clients := Function.update s.clients i
            (some
              { id := bumpId s.nextId
                order := s.acceptedCount
                client := { peerUid := answer.peerUid } }) } := by
  unfold acceptClient
  dsimp only
  split
  · exact .inl rfl
  · split
    · exact .inl rfl
    · rename_i i found
      have empty : s.clients i = none := by simpa using List.find?_some found
      split
      · exact .inl rfl
      · split
        · exact .inr (.inl rfl)
        · exact .inr (.inr ⟨i, empty, rfl⟩)

theorem acceptClients_induction (holds : InputSocket → Prop)
    (one : ∀ s answer, holds s → holds (s.acceptClient answer)) (answers : List AcceptAnswer)
    (here : holds s) : holds (s.acceptClients answers) := by
  induction answers generalizing s with
  | nil => exact here
  | cons answer rest ih => exact ih (one s answer here)

variable {p' : InputPeer}

theorem clients_broadcastToClients {bound : BitVec 32} {record : List UInt8}
    {answers : Fin maxInputClients → SendAnswer}
    (here : (s.broadcastToClients bound record answers).2.clients j = some p') (event : Event) :
    ∃ p, s.clients j = some p ∧ PeerStep s j p event p' := by
  unfold broadcastToClients at here
  split at here
  · exact ⟨p', here, .same _⟩
  · obtain ⟨p, present, sent⟩ := Option.map_eq_some_iff.1 here
    refine ⟨p, present, ?_⟩
    split at sent
    · rename_i chosen
      subst sent
      exact .heard bound record (answers j) chosen
    · subst sent
      exact .same _

variable {event : Event}

/-- A client in the table after a step was there before, and took one step itself. -/
theorem clients_next (old : ∀ answers, event ≠ .accept answers)
    (here : (s.next event).clients j = some p') :
    ∃ p, s.clients j = some p ∧ PeerStep s j p event p' := by
  cases event with
  | accept answers => exact absurd rfl (old answers)
  | readEvent id eof =>
    simp only [next, readEvent] at here
    split at here <;> exact ⟨p', here, .same _⟩
  | writeEvent id plan =>
    simp only [next, writeEvent] at here
    split at here
    · exact ⟨p', here, .same _⟩
    · rename_i i found
      rcases eq_some_of_update here with ⟨rfl, flushed⟩ | ⟨-, stayed⟩
      · obtain ⟨p, present, rfl⟩ := Option.map_eq_some_iff.1 flushed
        exact ⟨p, present, .flushed plan found⟩
      · exact ⟨p', stayed, .same _⟩
  | read result =>
    simp only [next] at here
    split at here
    · rename_i i eof phase
      simp only [clientRead] at here
      split at here
      · exact ⟨p', here, .same _⟩
      · rename_i q present
        split at here
        · exact ⟨p', clients_clientDrop (s := { s with phase := .idle }) here, .same _⟩
        · rename_i client record kept
          have stepped : Function.update s.clients i (some { q with client }) j = some p' := by
            split at here
            · exact here
            · split at here
              · simp only [leaveLoop] at here
                split at here
                · exact clients_clientDrop here
                · exact here
              · exact here
          rcases eq_some_of_update stepped with ⟨rfl, put⟩ | ⟨-, stayed⟩
          · cases put
            exact ⟨q, present, .read phase kept⟩
          · exact ⟨p', stayed, .same _⟩
    · exact ⟨p', here, .same _⟩
  | callbackReturn =>
    simp only [next, callbackReturn] at here
    split at here <;> exact ⟨p', here, .same _⟩
  | broadcast record answers => exact clients_broadcastToClients here _
  | broadcastBound bound record answers =>
    simp only [next, broadcastBound] at here
    split at here
    · exact ⟨p', here, .same _⟩
    · exact clients_broadcastToClients here _
  | sendImproxy record answers =>
    simp only [next, sendImproxy] at here
    split at here
    · exact ⟨p', here, .same _⟩
    · obtain ⟨p, present, sent⟩ := Option.map_eq_some_iff.1 here
      refine ⟨p, present, ?_⟩
      split at sent
      · rename_i chosen
        subst sent
        exact .proxied record (answers j) chosen
      · subst sent
        exact .same _
  | free => cases here

def registers (c : InClient) : ReadResult → Bool
  | .data bytes _ =>
    c.helloReceived && c.hdr.length < msgSize && msgSize ≤ (c.hdr ++ bytes).length &&
      (XiosMsg.decode (c.hdr ++ bytes)).type == inImproxy &&
      (XiosMsg.decode (c.hdr ++ bytes)).inputCode != 0#32
  | _ => false

variable {c : InClient}

theorem acceptHeader_keeps {client : InClient} {allocated : Bool} {record : Option InputRecord}
    (kept : c.acceptHeader allocated = .keep client record) :
    (c.helloReceived = true → client.helloReceived = true) ∧
      (client.improxy = true → c.improxy = true ∨ c.helloReceived = true ∧
        c.msg.type = inImproxy ∧ c.msg.inputCode ≠ 0#32) := by
  unfold InClient.acceptHeader at kept
  -- One case for every way a header can be acceptable.
  split_ifs at kept with opening hello magic size bind proxy root traits text good memory <;>
    cases kept
  · exact ⟨fun _ => rfl, .inl⟩
  · exact ⟨id, .inl⟩
  · refine ⟨id, fun registered => .inr ⟨by simpa using opening, by simpa using proxy, ?_⟩⟩
    simpa [InClient.reset] using registered
  · exact ⟨id, .inl⟩
  · exact ⟨id, .inl⟩

theorem clientRead_keeps {client : InClient} {result : ReadResult} {record : Option InputRecord}
    (kept : c.clientRead result = .keep client record) :
    (c.helloReceived = true → client.helloReceived = true) ∧
      (client.improxy = true → c.improxy = true ∨ registers c result = true) := by
  unfold InClient.clientRead at kept
  split at kept
  · cases kept
  · cases kept
  · cases kept
    exact ⟨id, .inl⟩
  · cases kept
    exact ⟨id, .inl⟩
  · rename_i bytes allocated
    dsimp only at kept
    split at kept
    · rename_i partly
      split at kept
      · cases kept
        exact ⟨id, .inl⟩
      · rename_i full
        obtain ⟨opened, improxy⟩ := acceptHeader_keeps kept
        refine ⟨opened, fun registered => ?_⟩
        rcases improxy registered with before | ⟨hello, type, code⟩
        · exact .inl before
        · right
          have type : (XiosMsg.decode (c.hdr ++ bytes)).type = inImproxy := type
          have code : (XiosMsg.decode (c.hdr ++ bytes)).inputCode ≠ 0#32 := code
          have hello : c.helloReceived = true := hello
          simp only [registers, Bool.and_eq_true, decide_eq_true_eq, beq_iff_eq, bne_iff_ne]
          exact ⟨⟨⟨⟨hello, partly⟩, Nat.le_of_not_lt full⟩, type⟩, code⟩
    · split at kept <;> cases kept <;> exact ⟨id, .inl⟩

theorem opened_of_registers {result : ReadResult} (now : registers c result = true) :
    c.helloReceived = true := by
  cases result with
  | data bytes allocated =>
    simp only [registers, Bool.and_eq_true] at now
    exact now.1.1.1.1
  | _ => cases now

theorem queue_proxySend (p : InputPeer) (record : List UInt8) (answer : SendAnswer) :
    (proxySend p record answer).queue = p.queue.sendOrShut record answer := by
  unfold proxySend OutQueue.sendOrShut
  dsimp only
  split <;> rfl

theorem PeerStep.identity (step : PeerStep s i p event p') : p'.id = p.id ∧ p'.order = p.order := by
  cases step with
  | proxied record answer chosen =>
    unfold proxySend
    dsimp only
    split <;> exact ⟨rfl, rfl⟩
  | _ => exact ⟨rfl, rfl⟩

theorem PeerStep.queue (step : PeerStep s i p event p') (sound : p.queue.Sound) :
    p'.queue.Sound := by
  cases step with
  | same => exact sound
  | heard bound record answer chosen =>
    simp only [hears, Bool.and_eq_true, Bool.not_eq_true'] at chosen
    exact sound.sendOrShut chosen.1.1.1 record answer
  | proxied record answer chosen =>
    simp only [isProxy, Bool.and_eq_true, Bool.not_eq_true'] at chosen
    rw [queue_proxySend]
    exact sound.sendOrShut chosen.1.1 record answer
  | flushed plan found => exact sound.clientFlush plan
  | read here kept => exact sound

theorem PeerStep.queue_dead (step : PeerStep s i p event p') (sound : p.queue.Sound)
    (dead : p.queue.dead = true) : p'.queue = p.queue := by
  cases step with
  | same => rfl
  | heard bound record answer chosen => simp [hears, dead] at chosen
  | proxied record answer chosen => simp [isProxy, dead] at chosen
  | flushed plan found => exact sound.clientFlush_dead dead plan
  | read here kept => rfl

theorem PeerStep.opened (step : PeerStep s i p event p') (opened : p.client.helloReceived = true) :
    p'.client.helloReceived = true := by
  cases step with
  | proxied record answer chosen =>
    unfold proxySend
    dsimp only
    split <;> exact opened
  | read here kept => exact (clientRead_keeps kept).1 opened
  | _ => exact opened

theorem PeerStep.proxy (step : PeerStep s i p event p')
    (proxy : p.client.improxy = true → p.client.helloReceived = true)
    (improxy : p'.client.improxy = true) : p'.client.helloReceived = true := by
  apply step.opened
  cases step with
  | proxied record answer chosen =>
    simp only [isProxy, Bool.and_eq_true] at chosen
    exact chosen.1.2
  | read here kept =>
    rcases (clientRead_keeps kept).2 improxy with before | now
    · exact proxy before
    · exact opened_of_registers now
  | _ => exact proxy improxy

theorem counters_next (old : ∀ answers, event ≠ .accept answers) :
    (s.next event).acceptedCount = s.acceptedCount ∧ (s.next event).nextId = s.nextId ∧
      (s.next event).dropCb = s.dropCb := by
  have drop : ∀ (s : InputSocket) i announce, (s.clientDrop i announce).acceptedCount =
      s.acceptedCount ∧ (s.clientDrop i announce).nextId = s.nextId ∧
      (s.clientDrop i announce).dropCb = s.dropCb := by
    intro s i announce
    cases present : s.clients i with
    | none => simp [clientDrop, present]
    | some p => simp [clientDrop_eq present]
  cases event with
  | accept answers => exact absurd rfl (old answers)
  | readEvent id eof =>
    simp only [next, readEvent]
    split <;> exact ⟨rfl, rfl, rfl⟩
  | writeEvent id plan =>
    simp only [next, writeEvent]
    split <;> exact ⟨rfl, rfl, rfl⟩
  | read result =>
    simp only [next]
    split
    · simp only [clientRead]
      split
      · exact ⟨rfl, rfl, rfl⟩
      · split
        · exact drop _ _ _
        · split
          · exact ⟨rfl, rfl, rfl⟩
          · split
            · simp only [leaveLoop]
              split
              · exact drop _ _ _
              · exact ⟨rfl, rfl, rfl⟩
            · exact ⟨rfl, rfl, rfl⟩
    · exact ⟨rfl, rfl, rfl⟩
  | callbackReturn =>
    simp only [next, callbackReturn]
    split <;> exact ⟨rfl, rfl, rfl⟩
  | broadcast record answers =>
    simp only [next, broadcast, broadcastToClients]
    split <;> exact ⟨rfl, rfl, rfl⟩
  | broadcastBound bound record answers =>
    simp only [next, broadcastBound, broadcastToClients]
    split
    · exact ⟨rfl, rfl, rfl⟩
    · split <;> exact ⟨rfl, rfl, rfl⟩
  | sendImproxy record answers =>
    simp only [next, sendImproxy]
    split <;> exact ⟨rfl, rfl, rfl⟩
  | free => exact ⟨rfl, rfl, rfl⟩

/-- The clients of a socket are told apart, and their queues are sound. -/
structure Sound (s : InputSocket) : Prop where
  queues : ∀ i p, s.clients i = some p → p.queue.Sound
  orders : ∀ i p, s.clients i = some p → p.order < s.acceptedCount
  places : ∀ i j p q, s.clients i = some p → s.clients j = some q → p.order = q.order → i = j
  -- No client is called like the listener.
  nonzero : ∀ i p, s.clients i = some p → p.id ≠ 0#32
  -- Only clients that have completed their opening record are proxies.
  proxies : ∀ i p, s.clients i = some p → p.client.improxy = true → p.client.helloReceived = true

theorem bumpId_ne_zero (id : BitVec 32) : bumpId id ≠ 0#32 := by
  unfold bumpId
  split
  · decide
  · assumption

theorem Sound.acceptClient (sound : s.Sound) (answer : AcceptAnswer) :
    (s.acceptClient answer).Sound := by
  have grown : ∀ i p, s.clients i = some p → p.order < s.acceptedCount + 1 :=
    fun i p here => Nat.lt_succ_of_lt (sound.orders i p here)
  rcases s.acceptClient_cases answer with first | first | ⟨k, -, first⟩
  · rw [first]
    exact ⟨sound.queues, grown, sound.places, sound.nonzero, sound.proxies⟩
  · rw [first]
    exact ⟨sound.queues, grown, sound.places, sound.nonzero, sound.proxies⟩
  · rw [first]
    -- The new client has a new number, and nothing has happened to it yet.
    refine ⟨?_, ?_, ?_, ?_, ?_⟩
    · intro i p here
      rcases eq_some_of_update here with ⟨-, ⟨⟩⟩ | ⟨-, stayed⟩
      · exact OutQueue.sound_new
      · exact sound.queues i p stayed
    · intro i p here
      rcases eq_some_of_update here with ⟨-, ⟨⟩⟩ | ⟨-, stayed⟩
      · exact Nat.lt_succ_self _
      · exact grown i p stayed
    · intro i j p q here there same
      rcases eq_some_of_update here with ⟨rfl, ⟨⟩⟩ | ⟨-, stayed⟩ <;>
        rcases eq_some_of_update there with ⟨rfl, ⟨⟩⟩ | ⟨-, stayed'⟩
      · rfl
      · exact absurd same (Nat.ne_of_gt (sound.orders j q stayed'))
      · exact absurd same (Nat.ne_of_lt (sound.orders i p stayed))
      · exact sound.places i j p q stayed stayed' same
    · intro i p here
      rcases eq_some_of_update here with ⟨-, ⟨⟩⟩ | ⟨-, stayed⟩
      · exact bumpId_ne_zero _
      · exact sound.nonzero i p stayed
    · intro i p here
      rcases eq_some_of_update here with ⟨-, ⟨⟩⟩ | ⟨-, stayed⟩
      · exact id
      · exact sound.proxies i p stayed

/-- Every event keeps clients told apart. -/
theorem Sound.next (sound : s.Sound) (event : Event) : (s.next event).Sound := by
  by_cases fresh : ∃ answers, event = .accept answers
  · obtain ⟨answers, rfl⟩ := fresh
    exact acceptClients_induction Sound (fun _ answer here => here.acceptClient answer) answers
      sound
  · have old : ∀ answers, event ≠ .accept answers := fun answers here => fresh ⟨answers, here⟩
    obtain ⟨count, -, -⟩ := counters_next (s := s) old
    refine ⟨?_, ?_, ?_, ?_, ?_⟩
    · intro i p' here
      obtain ⟨p, present, step⟩ := clients_next old here
      exact step.queue (sound.queues i p present)
    · intro i p' here
      obtain ⟨p, present, step⟩ := clients_next old here
      rw [step.identity.2, count]
      exact sound.orders i p present
    · intro i j p' q' here there same
      obtain ⟨p, present, step⟩ := clients_next old here
      obtain ⟨q, present', step'⟩ := clients_next old there
      rw [step.identity.2, step'.identity.2] at same
      exact sound.places i j p q present present' same
    · intro i p' here
      obtain ⟨p, present, step⟩ := clients_next old here
      rw [step.identity.1]
      exact sound.nonzero i p present
    · intro i p' here
      obtain ⟨p, present, step⟩ := clients_next old here
      exact step.proxy (sound.proxies i p present)

theorem sound_of_run {trace : List Event} (run : machine.Run trace s) : s.Sound := by
  refine run.invariant (fun _ s => s.Sound) ?_ ?_
  · rintro s ⟨dropCb, rfl⟩
    refine ⟨?_, ?_, ?_, ?_, ?_⟩ <;> intro i <;> intros <;> contradiction
  · intro _ s event sound _
    exact sound.next event

/-- Whoever has a number among those given out has the queue. -/
def Holds (order : Nat) (queue : OutQueue) (s : InputSocket) : Prop :=
  order < s.acceptedCount ∧
    ∀ j p, s.clients j = some p → p.order = order → p.queue = queue

/-- The queue of a client that was given up is never touched again. -/
theorem Holds.next {order : Nat} {queue : OutQueue} (held : Holds order queue s) (sound : s.Sound)
    (dead : queue.dead = true) (event : Event) : Holds order queue (s.next event) := by
  by_cases fresh : ∃ answers, event = .accept answers
  · obtain ⟨answers, rfl⟩ := fresh
    refine acceptClients_induction (Holds order queue) ?_ answers held
    intro s answer held
    -- A new client has a number that was not given out before.
    rcases s.acceptClient_cases answer with first | first | ⟨k, -, first⟩ <;> rw [first]
    · exact ⟨Nat.lt_succ_of_lt held.1, held.2⟩
    · exact ⟨Nat.lt_succ_of_lt held.1, held.2⟩
    · refine ⟨Nat.lt_succ_of_lt held.1, ?_⟩
      intro j p here same
      rcases eq_some_of_update here with ⟨-, ⟨⟩⟩ | ⟨-, stayed⟩
      · exact absurd same (Nat.ne_of_gt held.1)
      · exact held.2 j p stayed same
  · have old : ∀ answers, event ≠ .accept answers := fun answers here => fresh ⟨answers, here⟩
    obtain ⟨count, -, -⟩ := counters_next (s := s) old
    refine ⟨count ▸ held.1, ?_⟩
    intro j p' here same
    obtain ⟨p, present, step⟩ := clients_next old here
    have queue := held.2 j p present (step.identity.2 ▸ same)
    rw [step.queue_dead (sound.queues j p present) (queue ▸ dead), queue]

/--
What goes out to a client is in order, complete and bounded.

The bytes put on its socket begin the records that were to be sent to it, one after the other.
As long as it was not given up, they and the bytes that wait are the records taken on, no more
bytes wait than are kept for one client, and the event queue reports exactly while any wait.
Once it was given up nothing waits, and whatever happens later, its queue stays as it is.
-/
theorem outbound_in_order {trace : List Event} {s : InputSocket} (run : machine.Run trace s)
    {i : Fin maxInputClients} {p : InputPeer} (present : s.clients i = some p) :
    p.queue.written <+: p.queue.attempted.flatten ∧
      (p.queue.dead = false → p.queue.written ++ p.queue.queued = p.queue.accepted.flatten) ∧
      p.queue.queued.length ≤ outQueueMax ∧
      (p.queue.writeArmed = true ↔ p.queue.queued ≠ []) ∧
      (p.queue.dead = true → p.queue.queued = [] ∧
        ∀ script, machine.Admits s script → ∀ j p', (script.foldl next s).clients j = some p' →
          p'.order = p.order → p'.queue = p.queue) := by
  have sound := (sound_of_run run).queues i p present
  refine ⟨sound.inOrder, sound.exact, ?_, ?_, ?_⟩
  · rw [OutQueue.length_queued]
    exact sound.bounded
  · rw [sound.armed, ← OutQueue.length_queued, List.length_pos_iff]
  · intro dead
    refine ⟨?_, ?_⟩
    · exact List.eq_nil_of_length_eq_zero ((OutQueue.length_queued _).trans (sound.shut dead))
    · intro script admitted
      have here : Holds p.order p.queue s := by
        refine ⟨(sound_of_run run).orders i p present, ?_⟩
        intro j p' here same
        have one := (sound_of_run run).places i j p p' present here same.symm
        subst one
        rw [present] at here
        cases here
        rfl
      have later := run.invariant_after (Holds p.order p.queue)
        (fun _ _ event run held _ => held.next (sound_of_run run) dead event) here script admitted
      exact later.2

def slowScript : List Event :=
  [.accept [{ peerUid := 501#32 }], .readEvent 1#32 false,
    .read (.data XiosMsg.hello.encode true), .read .again,
    .broadcast [1, 2, 3, 4] fun _ => { plan := [.took 2, .again] },
    .writeEvent 1#32 [.intr, .took 1, .again]]

theorem outbound_in_order_slow :
    ∃ s p, machine.Run slowScript.reverse s ∧ s.clients ⟨0, by decide⟩ = some p ∧
      p.queue.dead = false ∧ p.queue.written = [1, 2, 3] ∧ p.queue.queued = [4] ∧
      p.queue.written <+: p.queue.attempted.flatten ∧
      p.queue.written ++ p.queue.queued = p.queue.accepted.flatten := by
  have run := Machine.Run.of_script (m := machine) ⟨true, rfl⟩ slowScript (by decide +kernel)
  have state : ((slowScript.foldl next { dropCb := true }).clients ⟨0, by decide⟩).map
      (fun p => (p.queue.dead, p.queue.written, p.queue.queued)) =
      some (false, [1, 2, 3], [4]) := by decide +kernel
  obtain ⟨p, present, same⟩ := Option.map_eq_some_iff.1 state
  simp only [Prod.mk.injEq] at same
  obtain ⟨inOrder, exact, -⟩ := outbound_in_order run present
  exact ⟨_, p, run, present, same.1, same.2.1, same.2.2, inOrder, exact same.1⟩

end InputSocket

end Xios
