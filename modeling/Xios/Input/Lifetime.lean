import Xios.Input.TableLaws

/-! Ids of input clients, the report of those that go away, and the proxy text is sent to. -/

namespace Xios

namespace InputSocket

/-- As long as ids have not wrapped around, they tell all clients there ever were apart. -/
structure Numbered (s : InputSocket) : Prop where
  -- An id is given out for an accepted connection only.
  small : s.nextId.toNat ≤ s.acceptedCount
  -- Ids are given out in order.
  below : ∀ i p, s.clients i = some p → p.id.toNat ≤ s.nextId.toNat
  -- No two clients have the same id.
  distinct : ∀ i j p q, s.clients i = some p → s.clients j = some q → p.id = q.id → i = j
  -- Clients that completed their opening record were given their ids.
  opened : ∀ id ∈ s.opened, id.toNat ≤ s.nextId.toNat
  -- Every client completes its opening record once.
  once : s.opened.Nodup
  -- A client that has not completed it is not among those that have.
  unopened : ∀ i p, s.clients i = some p → p.client.helloReceived = false → p.id ∉ s.opened

theorem toNat_bumpId {id : BitVec 32} (room : id.toNat + 1 < 2 ^ 32) :
    (bumpId id).toNat = id.toNat + 1 := by
  have sum : (id + 1#32).toNat = id.toNat + 1 := by
    rw [BitVec.toNat_add]
    simpa using Nat.mod_eq_of_lt room
  unfold bumpId
  rw [if_neg]
  · exact sum
  · intro zero
    rw [zero] at sum
    simp at sum

variable {s : InputSocket}

/-- A connection that is accepted gets a number of its own. -/
theorem Numbered.acceptClient (numbered : s.Numbered) (answer : AcceptAnswer)
    (room : (s.acceptClient answer).acceptedCount < 2 ^ 32) : (s.acceptClient answer).Numbered := by
  have counted : (s.acceptClient answer).acceptedCount = s.acceptedCount + 1 := by
    rcases s.acceptClient_cases answer with first | first | ⟨k, -, first⟩ <;> rw [first]
  rw [counted] at room
  have small := numbered.small
  have bump : (bumpId s.nextId).toNat = s.nextId.toNat + 1 := toNat_bumpId (by omega)
  have below : ∀ i p, s.clients i = some p → p.id.toNat ≤ (bumpId s.nextId).toNat := by
    intro i p here
    have := numbered.below i p here
    omega
  have opened : ∀ id ∈ s.opened, id.toNat ≤ (bumpId s.nextId).toNat := by
    intro id done
    have := numbered.opened id done
    omega
  rcases s.acceptClient_cases answer with first | first | ⟨k, -, first⟩ <;> rw [first]
  · exact ⟨Nat.le_succ_of_le small, numbered.below, numbered.distinct, numbered.opened,
      numbered.once, numbered.unopened⟩
  · exact ⟨bump ▸ Nat.succ_le_succ small, below, numbered.distinct, opened,
      numbered.once, numbered.unopened⟩
  · -- The new id is larger than all before it.
    refine ⟨bump ▸ Nat.succ_le_succ small, ?_, ?_, opened, numbered.once, ?_⟩
    · intro i p here
      rcases eq_some_of_update here with ⟨-, ⟨⟩⟩ | ⟨-, stayed⟩
      · exact Nat.le_refl _
      · exact below i p stayed
    · intro i j p q here there same
      rcases eq_some_of_update here with ⟨rfl, ⟨⟩⟩ | ⟨-, stayed⟩ <;>
        rcases eq_some_of_update there with ⟨rfl, ⟨⟩⟩ | ⟨-, stayed'⟩
      · rfl
      · have := numbered.below j q stayed'
        rw [← same] at this
        dsimp only at this
        omega
      · have := numbered.below i p stayed
        rw [same] at this
        dsimp only at this
        omega
      · exact numbered.distinct i j p q stayed stayed' same
    · intro i p here unopened
      rcases eq_some_of_update here with ⟨-, ⟨⟩⟩ | ⟨-, stayed⟩
      · intro done
        have := numbered.opened _ done
        dsimp only at this
        omega
      · exact numbered.unopened i p stayed unopened

/-- What one event other than new connections can do to who is open, and who is told. -/
inductive Books (s s' : InputSocket) : Prop where
  | quiet (clients : ∀ j, (s'.clients j).bind openId = (s.clients j).bind openId)
      (opened : s'.opened = s.opened) (drops : s'.drops = s.drops)
      (freed : s'.freedIds = s.freedIds)
  -- A client completes its opening record.
  | opens {i : Fin maxInputClients} {p : InputPeer} {client : InClient}
      (present : s.clients i = some p) (before : p.client.helloReceived = false)
      (after : client.helloReceived = true)
      (clients : s'.clients = Function.update s.clients i (some { p with client }))
      (opened : s'.opened = s.opened ++ [p.id]) (drops : s'.drops = s.drops)
      (freed : s'.freedIds = s.freedIds)
  -- A client is dropped.
  | gone {i : Fin maxInputClients} {p : InputPeer} (present : s.clients i = some p)
      (clients : s'.clients = Function.update s.clients i none)
      (opened : s'.opened = s.opened)
      (drops : s'.drops =
        s.drops ++ if p.client.helloReceived && s.dropCb then [p.id] else [])
      (freed : s'.freedIds = s.freedIds)
  -- The socket is torn down.
  | ended (clients : s'.clients = fun _ => none) (opened : s'.opened = s.opened)
      (drops : s'.drops = s.drops) (freed : s'.freedIds = openIds s.clients)
      (phase : s'.phase = .freed)

theorem bind_openId_map {client : Option InputPeer} {change : InputPeer → InputPeer}
    (id : ∀ p, (change p).id = p.id)
    (hello : ∀ p, (change p).client.helloReceived = p.client.helloReceived) :
    (client.map change).bind openId = client.bind openId := by
  cases client with
  | none => rfl
  | some p => simp [openId, id, hello]

theorem Books.broadcastToClients (s : InputSocket) (bound : BitVec 32) (record : List UInt8)
    (answers : Fin maxInputClients → SendAnswer) :
    Books s (s.broadcastToClients bound record answers).2 := by
  unfold InputSocket.broadcastToClients
  split
  · exact .quiet (fun _ => rfl) rfl rfl rfl
  · refine .quiet (fun j => bind_openId_map ?_ ?_) rfl rfl rfl
    · intro p
      split <;> rfl
    · intro p
      split <;> rfl

variable {i : Fin maxInputClients} {p : InputPeer}

theorem Books.clientDrop (present : s.clients i = some p) (phase : DispatchPhase) :
    Books s (InputSocket.clientDrop { s with phase } i true) := by
  rw [clientDrop_eq (s := { s with phase }) present]
  exact .gone present rfl rfl (by simp) rfl

theorem Books.keep {s' : InputSocket}
    {client : InClient} {result : ReadResult} {record : Option InputRecord}
    (present : s.clients i = some p) (kept : p.client.clientRead result = .keep client record)
    (clients : s'.clients = Function.update s.clients i (some { p with client }))
    (opened : s'.opened =
      if !p.client.helloReceived && client.helloReceived then s.opened ++ [p.id] else s.opened)
    (drops : s'.drops = s.drops) (freed : s'.freedIds = s.freedIds) : Books s s' := by
  have monotone := (clientRead_keeps kept).1
  by_cases opens : (!p.client.helloReceived && client.helloReceived) = true
  · rw [if_pos opens] at opened
    simp only [Bool.and_eq_true, Bool.not_eq_true'] at opens
    exact .opens present opens.1 opens.2 clients opened drops freed
  · rw [if_neg opens] at opened
    refine .quiet (fun j => ?_) opened drops freed
    rw [clients]
    by_cases same : j = i
    · subst same
      rw [Function.update_self, present]
      have hello : client.helloReceived = p.client.helloReceived := by
        cases before : p.client.helloReceived with
        | true => exact monotone before
        | false => simpa [before] using opens
      simp [openId, hello]
    · rw [Function.update_of_ne same]

theorem Books.clientRead (s : InputSocket) (i : Fin maxInputClients) (eof : Bool)
    (result : ReadResult) : Books s (s.clientRead i eof result) := by
  unfold InputSocket.clientRead
  split
  · exact .quiet (fun _ => rfl) rfl rfl rfl
  · rename_i p present
    split
    · exact .clientDrop present .idle
    · rename_i client record kept
      split
      · exact .keep present kept rfl rfl rfl rfl
      · split
        · -- Nothing was read, so the client is the one it was.
          rename_i nothing
          subst nothing
          simp only [InClient.clientRead, ReadStep.keep.injEq] at kept
          obtain ⟨rfl, -⟩ := kept
          have same : Function.update s.clients i (some p) = s.clients := by
            rw [← present]
            exact Function.update_eq_self i s.clients
          simp only [setClient, same, Bool.not_and_self, leaveLoop]
          split
          · exact .clientDrop present .idle
          · exact .quiet (fun _ => rfl) rfl rfl rfl
        · exact .keep present kept rfl rfl rfl rfl

variable {event : Event}

theorem books_next (old : ∀ answers, event ≠ .accept answers) : Books s (s.next event) := by
  cases event with
  | accept answers => exact absurd rfl (old answers)
  | readEvent id eof =>
    simp only [next, readEvent]
    split <;> exact .quiet (fun _ => rfl) rfl rfl rfl
  | writeEvent id plan =>
    simp only [next, writeEvent]
    split
    · exact .quiet (fun _ => rfl) rfl rfl rfl
    · rename_i i found
      refine .quiet (fun j => ?_) rfl rfl rfl
      by_cases same : j = i
      · subst same
        simp only [Function.update_self]
        exact bind_openId_map (fun _ => rfl) (fun _ => rfl)
      · simp only [Function.update_of_ne same]
  | read result =>
    simp only [next]
    split
    · exact .clientRead s _ _ result
    · exact .quiet (fun _ => rfl) rfl rfl rfl
  | callbackReturn =>
    simp only [next, callbackReturn]
    split <;> exact .quiet (fun _ => rfl) rfl rfl rfl
  | broadcast record answers => exact .broadcastToClients s _ record answers
  | broadcastBound bound record answers =>
    simp only [next, broadcastBound]
    split
    · exact .quiet (fun _ => rfl) rfl rfl rfl
    · exact .broadcastToClients s bound record answers
  | sendImproxy record answers =>
    simp only [next, sendImproxy]
    split
    · exact .quiet (fun _ => rfl) rfl rfl rfl
    · refine .quiet (fun j => bind_openId_map ?_ ?_) rfl rfl rfl
      · intro p
        unfold proxySend
        dsimp only
        split
        · split <;> rfl
        · rfl
      · intro p
        unfold proxySend
        dsimp only
        split
        · split <;> rfl
        · rfl
  | free => exact .ended rfl rfl rfl rfl rfl

/-- Every event keeps all clients told apart by their ids. -/
theorem Numbered.next (numbered : s.Numbered) (old : ∀ answers, event ≠ .accept answers) :
    (s.next event).Numbered := by
  obtain ⟨count, last, -⟩ := counters_next (s := s) old
  have below : ∀ i p, (s.next event).clients i = some p → p.id.toNat ≤ s.nextId.toNat := by
    intro i p' here
    obtain ⟨p, present, step⟩ := clients_next old here
    rw [step.identity.1]
    exact numbered.below i p present
  have unopened : ∀ i p, (s.next event).clients i = some p → p.client.helloReceived = false →
      p.id ∉ s.opened := by
    intro i p' here closed
    obtain ⟨p, present, step⟩ := clients_next old here
    rw [step.identity.1]
    refine numbered.unopened i p present ?_
    cases before : p.client.helloReceived with
    | false => rfl
    | true => rw [step.opened before] at closed; cases closed
  have distinct : ∀ i j p q, (s.next event).clients i = some p →
      (s.next event).clients j = some q → p.id = q.id → i = j := by
    intro i j p' q' here there same
    obtain ⟨p, present, step⟩ := clients_next old here
    obtain ⟨q, present', step'⟩ := clients_next old there
    rw [step.identity.1, step'.identity.1] at same
    exact numbered.distinct i j p q present present' same
  have books := books_next (s := s) old
  cases books with
  | quiet _ opened _ _ | gone _ _ opened _ _ | ended _ opened _ _ _ =>
    refine ⟨?_, ?_, distinct, ?_, ?_, ?_⟩
    · rw [last, count]
      exact numbered.small
    · rwa [last]
    · rw [opened, last]
      exact numbered.opened
    · rw [opened]
      exact numbered.once
    · rwa [opened]
  | @opens i p client present before after clients opened _ _ =>
    refine ⟨?_, ?_, distinct, ?_, ?_, ?_⟩
    · rw [last, count]
      exact numbered.small
    · rwa [last]
    · rw [opened, last]
      intro id done
      rcases List.mem_append.1 done with earlier | now
      · exact numbered.opened id earlier
      · rw [List.mem_singleton.1 now]
        exact numbered.below i p present
    · rw [opened]
      refine List.nodup_append.2 ⟨numbered.once, by simp, ?_⟩
      intro a earlier b now same
      rw [List.mem_singleton.1 now] at same
      exact numbered.unopened i p present before (same ▸ earlier)
    · rw [opened]
      intro j q here closed done
      rcases List.mem_append.1 done with earlier | now
      · exact unopened j q here closed earlier
      · -- The client that completed its opening record just now is the only one with its id.
        have place : (s.next event).clients i = some { p with client } := by
          rw [clients, Function.update_self]
        have one : j = i := distinct j i q _ here place (List.mem_singleton.1 now)
        subst one
        rw [place] at here
        cases here
        rw [after] at closed
        cases closed

theorem numbered_of_run {trace : List Event} (run : machine.Run trace s)
    (room : s.acceptedCount < 2 ^ 32) : s.Numbered := by
  refine run.invariant (fun _ s => s.acceptedCount < 2 ^ 32 → s.Numbered) ?_ ?_ room
  · rintro s ⟨dropCb, rfl⟩ -
    refine ⟨Nat.le_refl _, ?_, ?_, ?_, List.nodup_nil, ?_⟩ <;> intro i <;> intros <;> contradiction
  · intro _ s event numbered _
    by_cases fresh : ∃ answers, event = .accept answers
    · obtain ⟨answers, rfl⟩ := fresh
      refine acceptClients_induction (fun s => s.acceptedCount < 2 ^ 32 → s.Numbered) ?_ answers
        numbered
      intro s answer numbered room
      have counted : s.acceptedCount ≤ (s.acceptClient answer).acceptedCount := by
        rcases s.acceptClient_cases answer with first | first | ⟨k, -, first⟩ <;> rw [first] <;>
          exact Nat.le_succ _
      exact (numbered (by omega)).acceptClient answer room
    · have old : ∀ answers, event ≠ .accept answers := fun answers here => fresh ⟨answers, here⟩
      intro room
      rw [show machine.next s event = s.next event from rfl, (counters_next old).1] at room
      exact (numbered room).next old

theorem openIds_perm (clients : Fin maxInputClients → Option InputPeer)
    (i : Fin maxInputClients) :
    (openIds clients).Perm
      (((clients i).bind openId).toList ++ openIds (Function.update clients i none)) := by
  have split := (List.perm_cons_erase (List.mem_finRange i)).filterMap
    fun j => (clients j).bind openId
  have others : ∀ put : Option InputPeer, ((List.finRange maxInputClients).erase i).filterMap
      (fun j => (clients j).bind openId) = ((List.finRange maxInputClients).erase i).filterMap
      fun j => (Function.update clients i put j).bind openId := by
    intro put
    refine List.filterMap_congr fun j other => ?_
    have : j ≠ i := ((List.nodup_finRange _).mem_erase_iff.1 other).1
    rw [Function.update_of_ne this]
  have rest := (List.perm_cons_erase (List.mem_finRange i)).filterMap
    fun j => (Function.update clients i none j).bind openId
  simp only [List.filterMap_cons, Function.update_self, Option.bind_none] at rest
  unfold openIds
  refine split.trans ?_
  rw [List.filterMap_cons]
  cases here : (clients i).bind openId with
  | none =>
    simp only [Option.toList_none, List.nil_append]
    rw [others none]
    exact rest.symm
  | some id =>
    simp only [Option.toList_some, List.singleton_append]
    rw [others none]
    exact rest.symm.cons id

theorem openIds_update (clients : Fin maxInputClients → Option InputPeer)
    (i : Fin maxInputClients) (put : Option InputPeer) :
    (openIds (Function.update clients i put)).Perm
      ((put.bind openId).toList ++ openIds (Function.update clients i none)) := by
  have split := openIds_perm (Function.update clients i put) i
  rwa [Function.update_self, Function.update_idem] at split

/-- Everyone who was ever open was told of, was there when the socket was torn down, or is here. -/
structure Accounted (s : InputSocket) : Prop where
  -- Nobody is missing or counted twice.
  all : s.dropCb = true → (s.drops ++ (s.freedIds ++ openIds s.clients)).Perm s.opened
  -- The socket is torn down once.
  running : s.phase ≠ .freed → s.freedIds = []

theorem Accounted.acceptClient (accounted : s.Accounted) (answer : AcceptAnswer) :
    (s.acceptClient answer).Accounted := by
  rcases s.acceptClient_cases answer with first | first | ⟨k, empty, first⟩ <;> rw [first]
  · exact ⟨accounted.all, accounted.running⟩
  · exact ⟨accounted.all, accounted.running⟩
  · refine ⟨fun told => ?_, accounted.running⟩
    have added := openIds_update s.clients k
      (some
        { id := bumpId s.nextId
          order := s.acceptedCount
          client := { peerUid := answer.peerUid } })
    rw [show Function.update s.clients k none = s.clients by
      rw [← empty, Function.update_eq_self]] at added
    exact ((added.append_left _).append_left _).trans (accounted.all told)

/-- Nobody is lost from the books by any event. -/
theorem Accounted.next (accounted : s.Accounted) (old : ∀ answers, event ≠ .accept answers)
    (allowed : s.Allowed event) : (s.next event).Accounted := by
  obtain ⟨-, -, callback⟩ := counters_next (s := s) old
  have running : s.freedIds = [] := by
    refine accounted.running fun freed => ?_
    cases event <;> simp [Allowed, freed] at allowed
  have books := books_next (s := s) old
  cases books with
  | quiet clients opened drops freed =>
    refine ⟨fun told => ?_, fun _ => freed.trans running⟩
    have same : openIds (s.next event).clients = openIds s.clients :=
      List.filterMap_congr fun j _ => clients j
    rw [opened, drops, freed, same]
    exact accounted.all (callback ▸ told)
  | @opens i p client present before after clients opened drops freed =>
    refine ⟨fun told => ?_, fun _ => freed.trans running⟩
    rw [opened, drops, freed, clients, List.perm_iff_count]
    intro id
    have all := (accounted.all (callback ▸ told)).count_eq id
    have here := (openIds_perm s.clients i).count_eq id
    have put := (openIds_update s.clients i (some { p with client })).count_eq id
    simp only [present, Option.bind_some, openId, before, after, if_true, Bool.false_eq_true,
      if_false, Option.toList_some, Option.toList_none, List.count_append,
      List.count_nil] at all here put ⊢
    omega
  | @gone i p present clients opened drops freed =>
    refine ⟨fun told => ?_, fun _ => freed.trans running⟩
    have on : s.dropCb = true := callback ▸ told
    rw [opened, drops, freed, clients, List.perm_iff_count]
    intro id
    have all := (accounted.all on).count_eq id
    have here := (openIds_perm s.clients i).count_eq id
    cases hello : p.client.helloReceived <;>
      simp only [present, Option.bind_some, openId, hello, on, Bool.and_self, Bool.false_and,
        if_true, Bool.false_eq_true, if_false, Option.toList_some, Option.toList_none,
        List.count_append, List.count_nil] at all here ⊢ <;> omega
  | ended clients opened drops freed phase =>
    refine ⟨fun told => ?_, fun alive => absurd phase alive⟩
    have none : openIds (fun _ => none) = [] := List.filterMap_eq_nil_iff.2 fun _ _ => rfl
    have all := accounted.all (callback ▸ told)
    rw [running, List.nil_append] at all
    rw [opened, drops, freed, clients, none, List.append_nil]
    exact all

theorem accounted_of_run {trace : List Event} (run : machine.Run trace s) : s.Accounted := by
  refine run.invariant (fun _ s => s.Accounted) ?_ ?_
  · rintro s ⟨dropCb, rfl⟩
    exact ⟨fun _ => List.Perm.refl _, fun _ => rfl⟩
  · intro _ s event accounted allowed
    by_cases fresh : ∃ answers, event = .accept answers
    · obtain ⟨answers, rfl⟩ := fresh
      exact acceptClients_induction Accounted (fun _ answer here => here.acceptClient answer)
        answers accounted
    · exact accounted.next (fun answers here => fresh ⟨answers, here⟩) allowed

/-- No proxy is given up behind the back of those who look for one. -/
def Noticed (s : InputSocket) : Event → Prop
  -- What waits for a proxy can be written, as far as the socket takes it.
  | .writeEvent id plan =>
    ∀ i ∈ s.clientById id, ∀ p ∈ s.clients i, p.client.improxy = true →
      (writeLoop p.queue.queued plan).ended ≠ .failed
  -- A client that was given up does not register any more.
  | .read result =>
    match s.phase with
    | .reading i _ => ∀ p ∈ s.clients i, p.queue.dead = true → registers p.client result = false
    | _ => True
  | _ => True

instance (s : InputSocket) (event : Event) : Decidable (s.Noticed event) :=
  match event with
  | .writeEvent _ _ => by unfold Noticed; infer_instance
  | .read _ => by
    unfold Noticed
    match s.phase with
    | .reading _ _ => infer_instance
    | .idle | .callback _ _ | .freed => exact .isTrue trivial
  | .accept _ | .readEvent _ _ | .callbackReturn | .broadcast _ _ | .broadcastBound _ _ _ |
    .sendImproxy _ _ | .free => .isTrue trivial

/-- Every registered proxy can be sent to. -/
def ProxiesAlive (s : InputSocket) : Prop :=
  ∀ i p, s.clients i = some p → p.client.improxy = true → p.queue.dead = false

/-- A step that gives no proxy up unnoticed leaves those that are registered alive. -/
theorem ProxiesAlive.next (alive : s.ProxiesAlive) (noticed : s.Noticed event) :
    (s.next event).ProxiesAlive := by
  by_cases fresh : ∃ answers, event = .accept answers
  · obtain ⟨answers, rfl⟩ := fresh
    refine acceptClients_induction ProxiesAlive ?_ answers alive
    intro s answer alive
    rcases s.acceptClient_cases answer with first | first | ⟨k, -, first⟩ <;> rw [first]
    · exact alive
    · exact alive
    · intro i p here improxy
      rcases eq_some_of_update here with ⟨-, ⟨⟩⟩ | ⟨-, stayed⟩
      · rfl
      · exact alive i p stayed improxy
  · intro i p' here improxy
    obtain ⟨p, present, step⟩ := clients_next (fun answers here => fresh ⟨answers, here⟩) here
    cases step with
    | same => exact alive i p' present improxy
    | heard bound record answer chosen =>
      -- Broadcasts pass proxies by.
      simp [hears, show p.client.improxy = true from improxy] at chosen
    | proxied record answer chosen =>
      simp only [isProxy, Bool.and_eq_true, Bool.not_eq_true'] at chosen
      unfold proxySend at improxy ⊢
      dsimp only at improxy ⊢
      split at improxy
      · rename_i taken
        rw [if_pos taken]
        exact (OutQueue.clientSend_dead chosen.1.1 record answer)
      · cases improxy
    | flushed plan found =>
      exact (OutQueue.clientFlush_dead (noticed i found p present improxy)).trans
        (alive i p present improxy)
    | read phase kept =>
      rcases (clientRead_keeps kept).2 improxy with before | now
      · exact alive i p present before
      · cases dead : p.queue.dead with
        | false => rfl
        | true =>
          simp only [Noticed, phase] at noticed
          rw [noticed p present dead] at now
          cases now

theorem attempted_sendImproxy (present : s.clients i = some p) (chosen : isProxy p = true)
    {record : List UInt8} (some : record ≠ []) (answers : Fin maxInputClients → SendAnswer) :
    ∃ p', (s.sendImproxy record answers).2.clients i = .some p' ∧
      p'.queue.attempted = p.queue.attempted ++ [record] := by
  have alive : p.queue.dead = false := by
    simp only [isProxy, Bool.and_eq_true, Bool.not_eq_true'] at chosen
    exact chosen.1.1
  refine ⟨proxySend p record (answers i), ?_, ?_⟩
  · simp [sendImproxy, some, present, chosen]
  · have attempted := (OutQueue.clientSend_attempted alive record (answers i)).1
    rw [queue_proxySend]
    unfold OutQueue.sendOrShut
    dsimp only
    split <;> exact attempted

/--
Input clients keep their ids, are told of once when they go, and proxies take the text.

No client is called like the listener, and no two are called the same before ids wrap around.
Everyone who completed the opening record is told of once when dropped, unless the socket is torn
down first, and nobody else is ever told of.
As long as no proxy is given up unnoticed, one that is found to be there is sent the text.
-/
theorem client_lifetime {trace : List Event} {s : InputSocket} (run : machine.Run trace s) :
    (∀ i p, s.clients i = some p → p.id ≠ 0#32) ∧
      (s.acceptedCount < 2 ^ 32 → ∀ i j p q, s.clients i = some p → s.clients j = some q →
        p.id = q.id → i = j) ∧
      (s.dropCb = true → (s.drops ++ (s.freedIds ++ openIds s.clients)).Perm s.opened) ∧
      (s.dropCb = true → s.acceptedCount < 2 ^ 32 → ∀ id, s.drops.count id =
        if id ∈ s.opened ∧ id ∉ s.freedIds ∧ id ∉ openIds s.clients then 1 else 0) ∧
      ((machine.restrict Noticed).Run trace s → s.hasImproxy = true →
        ∃ i p, s.clients i = some p ∧ p.client.improxy = true ∧ p.queue.dead = false ∧
          ∀ record answers, record ≠ [] → ∃ p', (s.sendImproxy record answers).2.clients i =
            some p' ∧ p'.queue.attempted = p.queue.attempted ++ [record]) := by
  have sound := sound_of_run run
  refine ⟨sound.nonzero, fun room => (numbered_of_run run room).distinct,
    (accounted_of_run run).all, ?_, ?_⟩
  · intro told room id
    have once := List.nodup_iff_count.1 (numbered_of_run run room).once id
    have all := ((accounted_of_run run).all told).count_eq id
    rw [List.count_append, List.count_append] at all
    simp only [← List.count_pos_iff]
    split <;> omega
  · intro safe proxy
    have alive : s.ProxiesAlive := by
      refine safe.invariant (fun _ s => s.ProxiesAlive) ?_ ?_
      · rintro s ⟨dropCb, rfl⟩ i p here
        cases here
      · intro _ s event alive allowed
        exact alive.next allowed.2
    obtain ⟨i, -, here⟩ := List.any_eq_true.1 proxy
    obtain ⟨p, present, improxy⟩ := (Option.any_eq_true _ _).1 here
    have dead := alive i p present improxy
    have chosen : isProxy p = true := by
      simp [isProxy, dead, improxy, sound.proxies i p present improxy]
    exact ⟨i, p, present, improxy, dead, fun record answers some =>
      attempted_sendImproxy present chosen some answers⟩

def proxyText : List UInt8 :=
  { XiosMsg.input inText 0#32 0#32 1#32 0#32 0#32 with length := 1#32 }.encode ++ [0x61]

def busyProxy : List Event :=
  [.accept [{ peerUid := 0#32 }], .readEvent 1#32 false,
    .read (.data XiosMsg.hello.encode true),
    .read (.data (XiosMsg.input inImproxy 0#32 0#32 1#32 0#32 0#32).encode true), .read .again,
    .sendImproxy proxyText fun _ => { plan := [.again] }]

theorem client_lifetime_busyProxy :
    ∃ s, machine.Run busyProxy.reverse s ∧ s.dropCb = true ∧ s.acceptedCount < 2 ^ 32 ∧
      s.opened = [1#32] ∧ s.drops.count 1#32 = 0 ∧ s.hasImproxy = true ∧
      ∃ i p, s.clients i = some p ∧ p.client.improxy = true ∧ p.queue.dead = false := by
  have run := Machine.Run.of_script (m := machine.restrict Noticed) ⟨true, rfl⟩ busyProxy
    (by decide)
  obtain ⟨-, -, -, told, proxy⟩ := client_lifetime run.of_restrict
  obtain ⟨i, p, present, improxy, dead, -⟩ := proxy run (by decide)
  refine ⟨_, run.of_restrict, by decide, by decide, by decide, ?_, by decide, i, p, present,
    improxy, dead⟩
  rw [told (by decide) (by decide)]
  decide

/-- A proxy whose waiting text cannot be written is given up, and is still found. -/
theorem not_client_lifetime :
    ¬∀ trace s, machine.Run trace s → s.hasImproxy = true →
      ∃ i p, s.clients i = some p ∧ p.client.improxy = true ∧ p.queue.dead = false := by
  intro claimed
  have run := Machine.Run.of_script (m := machine) ⟨true, rfl⟩
    (busyProxy ++ [.writeEvent 1#32 [.error]]) (by decide)
  obtain ⟨i, p, present, -, alive⟩ := claimed _ _ run (by decide)
  -- The only client there is was given up.
  have dead : ∀ i, ((List.foldl machine.next { dropCb := true }
      (busyProxy ++ [.writeEvent 1#32 [.error]])).clients i).all (·.queue.dead) = true := by
    decide
  have := dead i
  rw [present, Option.all_some, alive] at this
  cases this

end InputSocket

end Xios
