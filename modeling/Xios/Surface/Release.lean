import Xios.Surface.ServerLaws

/-! Frames of client surfaces that are not released yet can still be released. -/

namespace Xios

namespace SurfaceServer

/-- A client that is still connected was sent the last frame of a surface. -/
def Told (s : SurfaceServer) (e : StreamSurface) : Prop :=
  ∃ i c, s.clients i = some c ∧ Mask.has e.sentClients i = true ∧
    ∃ eventValue token, .record (dirtyMsg e.id e.lastSeq eventValue) token ∈ s.log c.conn

/-- The record by which a client gives up a frame. -/
def releasedMsg (id : BitVec 32) (seq : BitVec 64) : XiosMsg :=
  { magic := msgMagic, type := msgReleased, windowId := id, a := seq.extractLsb' 0 32
    b := seq.extractLsb' 32 32 }

/-- A connected client was sent the last frame of a surface, and may give it up. -/
def Releasable (s : SurfaceServer) (k : Fin maxStreamSurfaces) (e : StreamSurface) : Prop :=
  ∃ i c, s.clients i = some c ∧
    (∃ eventValue token, .record (dirtyMsg e.id e.lastSeq eventValue) token ∈ s.log c.conn) ∧
      -- Two surfaces share an id only after all ids have been used.
      (s.findStreamSurface e.id = some k →
        (s.handleClientMsg i c.serial (releasedMsg e.id e.lastSeq)).streams k =
          some { e with releasedSeq := e.lastSeq })

/-- The last frame of a surface counts as released after the next handshake. -/
def Recovers (s : SurfaceServer) (k : Fin maxStreamSurfaces) (e : StreamSurface) : Prop :=
  s.noClients = true ∧ ∀ fd caps s', s.addClient fd caps s.generation = some s' →
    ∃ e', s'.streams k = some e' ∧ e'.releasedSeq = e.lastSeq

/--
A frame of a client surface reaches whoever is connected.

Either nobody is, or somebody is who understands such frames and for whom the announcement does not
block, unless introducing the surface fails before.
-/
def Reaches (s : SurfaceServer) (k : Fin maxStreamSurfaces) (plan : Fin maxClients → SendPlan) :
    Prop :=
  s.noClients = true ∨ ∃ i c, s.clients i = some c ∧ c.streamV2 = true ∧
    ((plan i).record ≠ .wouldBlock ∨
      (∀ e, s.streams k = some e → Mask.has e.sentClients i = false) ∧
        ((plan i).port = false ∨ (plan i).surface ≠ .sent))

/-- Frames of client surfaces reach whoever is connected, and resizes come at the right time. -/
def Reaching (s : SurfaceServer) : Event → Prop
  | .resize => s.Unshared .resize
  | .dirty id token eventValue plan =>
    token.length = gpuFenceTokenSize → eventValue ≠ 0#64 →
      ∀ k, s.findTarget id = some (.stream k) → s.Reaches k plan
  | _ => True

/-- A client that understands frames of client surfaces is the only one. -/
def Exclusive (s : SurfaceServer) : Prop :=
  ∀ i j c, s.clients i = some c → c.streamV2 = true → (s.clients j).isSome = true → j = i

/-- What the server maintains about frames that are not released. -/
structure Accounted (s : SurfaceServer) : Prop where
  -- Surfaces are introduced before their frames.
  sound : s.Sound
  -- A client that understands frames of client surfaces is the only one.
  single : s.Exclusive
  -- Whoever is connected was sent every frame that is not released.
  owed : ∀ k e, s.streams k = some e → e.releasedSeq < e.lastSeq → s.Told e ∨ s.noClients = true

variable {s : SurfaceServer}

theorem noClients_iff : s.noClients = true ↔ ∀ i, s.clients i = none := by
  simp [noClients, List.all_eq_true]

theorem streamV2ClientMask_eq_zero (none : s.streamV2ClientMask = 0#32) (i : Fin maxClients) :
    (s.clients i).any AppClient.streamV2 = false := by
  -- The loop only ever adds places, and it visits every place.
  have grows : ∀ (l : List (Fin maxClients)) (mask : BitVec 32) (j : Nat),
      (Mask.has mask j = true ∨ ∃ i ∈ l, (i : Nat) = j ∧
        (s.clients i).any AppClient.streamV2 = true) →
      Mask.has (l.foldl (fun mask i =>
        if (s.clients i).any AppClient.streamV2 then mask ||| Mask.bit 32 i else mask) mask) j
          = true := by
    intro l
    induction l with
    | nil =>
      intro mask j marked
      cases marked with
      | inl marked => exact marked
      | inr found =>
        obtain ⟨i, member, -⟩ := found
        cases member
    | cons i rest ih =>
      intro mask j marked
      refine ih _ j ?_
      rcases marked with marked | ⟨i', member, place, understands⟩
      · left
        simp only
        split <;> simp [marked]
      · rcases List.mem_cons.mp member with same | later
        · subst same
          left
          have inside : (i' : Nat) < 32 := i'.isLt.trans (by decide)
          simp [understands, ← place, inside]
        · exact .inr ⟨i', later, place, understands⟩
  by_contra understands
  have marked := grows (List.finRange maxClients) 0#32 i
    (.inr ⟨i, List.mem_finRange i, rfl, by simpa using understands⟩)
  unfold streamV2ClientMask at none
  rw [none, Mask.has_zero] at marked
  cases marked

variable {i j : Fin maxClients} {c : AppClient}

theorem Exclusive.alone (exclusive : s.Exclusive) (client : s.clients i = some c)
    (streamV2 : c.streamV2 = true) (other : j ≠ i) : s.clients j = none := by
  by_contra present
  exact other (exclusive i j c client streamV2 (Option.isSome_iff_ne_none.mpr present))

variable {s' : SurfaceServer}

theorem Exclusive.of_fewer (exclusive : s.Exclusive)
    (fewer : ∀ j c, s'.clients j = some c → s.clients j = some c) : s'.Exclusive := by
  intro i j c client streamV2 other
  obtain ⟨c', client'⟩ := Option.isSome_iff_exists.mp other
  exact exclusive i j c (fewer i c client) streamV2 (by simp [fewer j c' client'])

variable {e : StreamSurface}

theorem Told.mono {e' : StreamSurface} (told : s.Told e) (clients : s'.clients = s.clients)
    (id : e'.id = e.id) (seq : e'.lastSeq = e.lastSeq)
    (marks : ∀ j, Mask.has e.sentClients j = true → Mask.has e'.sentClients j = true)
    (log : ∀ conn x, x ∈ s.log conn → x ∈ s'.log conn) : s'.Told e' := by
  obtain ⟨i, c, client, marked, eventValue, token, logged⟩ := told
  refine ⟨i, c, by rw [clients]; exact client, marks i marked, eventValue, token, ?_⟩
  rw [id, seq]
  exact log c.conn _ logged

theorem Accounted.of_grown (accounted : s.Accounted) (sound : s'.Sound)
    (clients : s'.clients = s.clients)
    (streams : ∀ k e', s'.streams k = some e' → e'.releasedSeq < e'.lastSeq →
      ∃ e, s.streams k = some e ∧ e.releasedSeq < e.lastSeq ∧ e'.id = e.id ∧
        e'.lastSeq = e.lastSeq ∧
        ∀ j, Mask.has e.sentClients j = true → Mask.has e'.sentClients j = true)
    (log : ∀ conn x, x ∈ s.log conn → x ∈ s'.log conn) : s'.Accounted := by
  refine ⟨sound, ?_, ?_⟩
  · exact accounted.single.of_fewer fun j c client => by rwa [← clients]
  · intro k e' entry behind
    obtain ⟨e, entry, behind, id, seq, marks⟩ := streams k e' entry behind
    cases accounted.owed k e entry behind with
    | inl told => exact .inl (told.mono clients id seq marks log)
    | inr nobody =>
      right
      rw [noClients_iff] at nobody ⊢
      rwa [clients]

theorem Accounted.of_eq (accounted : s.Accounted) (clients : s'.clients = s.clients)
    (streams : s'.streams = s.streams) (conns : s'.conns = s.conns) (log : s'.log = s.log)
    (ids : s'.nextStreamSurfaceId = s.nextStreamSurfaceId) : s'.Accounted := by
  refine accounted.of_grown (accounted.sound.of_eq clients streams conns log ids) clients ?_ ?_
  · intro k e' entry behind
    rw [streams] at entry
    exact ⟨e', entry, behind, rfl, rfl, fun _ => id⟩
  · intro conn x member
    rw [log]
    exact member

variable {k : Fin maxStreamSurfaces}

theorem Accounted.told_streamV2 (accounted : s.Accounted) (entry : s.streams k = some e)
    (client : s.clients i = some c) (marked : Mask.has e.sentClients i = true) :
    c.streamV2 = true := by
  obtain ⟨i', place, c', client', streamV2, -⟩ := accounted.sound.introduced k e entry i marked
  have same : i' = i := Fin.ext place
  rw [same, client] at client'
  cases client'
  exact streamV2

theorem Accounted.dropClient (accounted : s.Accounted) (i : Fin maxClients) :
    (s.dropClient i).Accounted := by
  cases absent : s.clients i with
  | none =>
    have same : s.dropClient i = s := by simp [SurfaceServer.dropClient, absent]
    rwa [same]
  | some c =>
    refine ⟨accounted.sound.dropClient i, ?_, ?_⟩
    · exact accounted.single.of_fewer fun j c' client => (dropClient_clients.mp client).2
    · intro k e' entry behind
      have before : ∃ e, s.streams k = some e ∧ e.releasedSeq < e.lastSeq := by
        simp only [SurfaceServer.dropClient, absent, Option.isNone_some, Bool.false_eq_true,
          if_false, clearClientPending] at entry
        obtain ⟨e, older, same⟩ := Option.map_eq_some_iff.mp entry
        subst same
        exact ⟨e, older, behind⟩
      obtain ⟨e, entry, behind⟩ := before
      right
      rw [noClients_iff]
      cases accounted.owed k e entry behind with
      | inl told =>
        -- The client that was told is the only one, hence the one that goes.
        obtain ⟨i', c', client', marked, -⟩ := told
        have streamV2 := accounted.told_streamV2 entry client' marked
        intro j
        by_contra left
        obtain ⟨c'', client''⟩ := Option.ne_none_iff_exists'.mp left
        obtain ⟨other, client''⟩ := dropClient_clients.mp client''
        have first := accounted.single i' j c' client' streamV2 (by simp [client''])
        have second := accounted.single i' i c' client' streamV2 (by simp [absent])
        exact other (first.trans second.symm)
      | inr nobody =>
        rw [noClients_iff] at nobody
        rw [nobody i] at absent
        cases absent

variable {m : XiosMsg}

theorem Accounted.write (accounted : s.Accounted) (client : s.clients i = some c)
    (payload : List UInt8) (result : SendResult)
    (told : m.type = msgDirty → m.Dynamic → ∃ x ∈ s.log c.conn, x.Introduces m.windowId) :
    (s.write c.conn m payload result).Accounted := by
  refine accounted.of_grown (accounted.sound.write client payload result told) (by simp) ?_ ?_
  · intro k e' entry behind
    rw [write_streams] at entry
    exact ⟨e', entry, behind, rfl, rfl, fun _ => id⟩
  · intro conn x member
    exact mem_log_write result member

theorem Accounted.sendRecord (accounted : s.Accounted) (client : s.clients i = some c)
    (payload : List UInt8) (result : SendResult)
    (told : m.type = msgDirty → m.Dynamic → ∃ x ∈ s.log c.conn, x.Introduces m.windowId) :
    (s.sendRecord i c m payload result).Accounted := by
  have written := accounted.write client payload result told
  unfold SurfaceServer.sendRecord
  cases result with
  | sent | wouldBlock => exact written
  | failed n => exact written.dropClient i

/-- Introducing a surface forgets no client that had it. -/
theorem sendStreamSurface_grows (s : SurfaceServer) (i : Fin maxClients)
    (k : Fin maxStreamSurfaces) (plan : SendPlan) :
    (∀ k' e', (s.sendStreamSurface i k plan).2.streams k' = some e' →
      ∃ e, s.streams k' = some e ∧ e'.releasedSeq = e.releasedSeq ∧ e'.id = e.id ∧
        e'.lastSeq = e.lastSeq ∧
        ∀ j, Mask.has e.sentClients j = true → Mask.has e'.sentClients j = true) ∧
      ∀ conn x, x ∈ s.log conn → x ∈ (s.sendStreamSurface i k plan).2.log conn := by
  have same : (∀ k' e', s.streams k' = some e' →
      ∃ e, s.streams k' = some e ∧ e'.releasedSeq = e.releasedSeq ∧ e'.id = e.id ∧
        e'.lastSeq = e.lastSeq ∧
        ∀ j, Mask.has e.sentClients j = true → Mask.has e'.sentClients j = true) :=
    fun k' e' entry => ⟨e', entry, rfl, rfl, rfl, fun _ => id⟩
  unfold SurfaceServer.sendStreamSurface
  split
  · rename_i c e client entry
    split
    · exact ⟨same, fun _ _ => id⟩
    · split
      · exact ⟨same, fun _ _ => id⟩
      · split
        · exact ⟨same, fun _ _ => id⟩
        · -- Only here something is written.
          have kept : ∀ conn x, x ∈ s.log conn →
              x ∈ ((s.deliverPort c.conn e.surface).write c.conn (surfaceMsg e) []
                plan.surface).log conn :=
            fun conn x member => mem_log_write (s := s.deliverPort c.conn e.surface) _ member
          simp only
          split
          · refine ⟨?_, kept⟩
            intro k' e' entry'
            by_cases here : k' = k
            · subst here
              simp only [setStream, Function.update_self, Option.some.injEq] at entry'
              subst entry'
              exact ⟨e, entry, rfl, rfl, rfl, fun j marked => by simp [marked]⟩
            · simp only [setStream, Function.update_of_ne here, write_streams] at entry'
              exact same k' e' entry'
          · refine ⟨?_, kept⟩
            rw [write_streams]
            exact same
  · exact ⟨same, fun _ _ => id⟩

variable {id : BitVec 32} {stream : Option (Fin maxStreamSurfaces)}

theorem Accounted.introduce (accounted : s.Accounted) (client : s.clients i = some c)
    (known : s.Knows id stream) (plan : SendPlan) : (s.introduce i stream plan).2.Accounted := by
  obtain ⟨sound, clients, -, -⟩ := accounted.sound.introduce client known plan
  cases stream with
  | none => exact accounted
  | some k =>
    obtain ⟨streams, log⟩ := sendStreamSurface_grows s i k plan
    refine accounted.of_grown sound clients ?_ log
    intro k' e' entry behind
    obtain ⟨e, entry, released, id, seq, marks⟩ := streams k' e' entry
    exact ⟨e, entry, by rwa [← released, ← seq], id, seq, marks⟩

variable {told : BitVec 32 × SurfaceServer}

theorem Accounted.notifyClient (token : List UInt8) (plan : Fin maxClients → SendPlan)
    (accounted : told.2.Accounted) (named : m.windowId = id) (known : told.2.Knows id stream)
    (i : Fin maxClients) : (notifyClient id stream m token plan told i).2.Accounted := by
  obtain ⟨delivered, s⟩ := told
  unfold SurfaceServer.notifyClient
  simp only at accounted known ⊢
  cases client : s.clients i with
  | none => exact accounted
  | some c =>
    simp only
    split
    · exact accounted
    · obtain ⟨-, clients, -, before⟩ := accounted.sound.introduce client known (plan i)
      have after := accounted.introduce client known (plan i)
      split
      · exact after.dropClient i
      · rename_i worked
        have client' : (s.introduce i stream (plan i)).2.clients i = some c := by
          rw [clients]
          exact client
        refine after.sendRecord client' token (plan i).record ?_
        intro _ dynamic
        unfold XiosMsg.Dynamic at dynamic
        rw [named] at dynamic ⊢
        exact before (by simpa using worked) dynamic

theorem Accounted.announce (accounted : s.Accounted) {target : FrameTarget}
    (known : s.Knows id target.stream?) (seq : BitVec 64) (token : List UInt8)
    (eventValue : BitVec 64) (plan : Fin maxClients → SendPlan) :
    (s.announce id target seq token eventValue plan).2.Accounted := by
  have begun : Accounted { s with dirtySeq := seq } ∧
      Knows { s with dirtySeq := seq } id target.stream? :=
    ⟨accounted.of_eq rfl rfl rfl rfl rfl, known⟩
  unfold SurfaceServer.announce
  refine (foldl_clients (fun told : BitVec 32 × SurfaceServer =>
    told.2.Accounted ∧ told.2.Knows id target.stream?) begun ?_ _).1
  intro told i holds
  have named : (dirtyMsg id seq eventValue).windowId = id := rfl
  exact ⟨holds.1.notifyClient token plan named holds.2 i,
    (holds.1.sound.notifyClient token plan named holds.2 i).2⟩

theorem findTarget_stream (found : s.findTarget id = some (.stream k)) :
    s.findStreamSurface id = some k := by
  unfold findTarget at found
  split at found
  · cases found
  · obtain ⟨k', stream, same⟩ := Option.map_eq_some_iff.mp found
    cases same
    exact stream

theorem foldl_clients_single {β : Type*} {step : β → Fin maxClients → β} (holds : β → Prop)
    {b : β} (begun : holds b) (round : ∀ b, holds b → holds (step b i))
    (inert : ∀ b j, holds b → j ≠ i → step b j = b) :
    (List.finRange maxClients).foldl step b = step b i := by
  have skipped : ∀ (l : List (Fin maxClients)) (b : β), holds b → i ∉ l → l.foldl step b = b := by
    intro l
    induction l with
    | nil => exact fun _ _ _ => rfl
    | cons j rest ih =>
      intro b held absent
      rw [List.foldl_cons, inert b j held fun same => absent (by simp [same])]
      exact ih b held fun member => absent (List.mem_cons_of_mem j member)
  -- The place occurs exactly once, with nothing happening before and after it.
  obtain ⟨before, after, split⟩ := List.append_of_mem (List.mem_finRange i)
  have once := List.nodup_finRange maxClients
  rw [split, List.nodup_append] at once
  obtain ⟨-, tail, apart⟩ := once
  rw [split, List.foldl_append, List.foldl_cons,
    skipped before b begun fun member => apart i member i (by simp) rfl]
  exact skipped after _ (round b begun) (List.nodup_cons.mp tail).1

variable {token : List UInt8} {plan : Fin maxClients → SendPlan}

theorem notifyClient_absent (absent : told.2.clients i = none) :
    notifyClient id stream m token plan told i = told := by
  simp [notifyClient, absent]

theorem sendStreamSurface_clients (s : SurfaceServer) (i : Fin maxClients)
    (k : Fin maxStreamSurfaces) (plan : SendPlan) :
    (s.sendStreamSurface i k plan).2.clients = s.clients := by
  unfold SurfaceServer.sendStreamSurface
  split
  · simp only
    split_ifs <;> simp [setStream, deliverPort]
  · rfl

theorem sendRecord_clients {c' : AppClient} {payload : List UInt8} {result : SendResult}
    (client : (s.sendRecord i c m payload result).clients j = some c') : s.clients j = some c' := by
  unfold SurfaceServer.sendRecord at client
  cases result with
  | sent | wouldBlock => simpa using client
  | failed n => simpa using (dropClient_clients.mp client).2

theorem notifyClient_clients
    (client : (notifyClient id stream m token plan told i).2.clients j = some c) :
    told.2.clients j = some c := by
  obtain ⟨delivered, s⟩ := told
  have introduced : (s.introduce i stream (plan i)).2.clients = s.clients := by
    cases stream with
    | none => rfl
    | some k => exact sendStreamSurface_clients s i k (plan i)
  unfold SurfaceServer.notifyClient at client
  cases present : s.clients i with
  | none => simpa [present] using client
  | some c' =>
    simp only [present] at client
    split_ifs at client
    · exact client
    · simpa [introduced] using (dropClient_clients.mp client).2
    · simpa [introduced] using sendRecord_clients client
    · simpa [introduced] using sendRecord_clients client

theorem noClients_dropClient (alone : ∀ j, j ≠ i → s.clients j = none) :
    (s.dropClient i).noClients = true := by
  rw [noClients_iff]
  intro j
  by_contra left
  obtain ⟨c, client⟩ := Option.ne_none_iff_exists'.mp left
  obtain ⟨other, client⟩ := dropClient_clients.mp client
  rw [alone j other] at client
  cases client

theorem sendStreamSurface_marked {plan : SendPlan}
    (worked : (s.sendStreamSurface i k plan).1 = true) :
    ∃ e, (s.sendStreamSurface i k plan).2.streams k = some e ∧
      Mask.has e.sentClients i = true := by
  unfold SurfaceServer.sendStreamSurface at worked ⊢
  have inside : (i : Nat) < 32 := i.isLt.trans (by decide)
  split at worked
  · rename_i c e client entry
    split_ifs at worked ⊢ with legacy marked port sent
    · exact ⟨e, entry, marked⟩
    · exact ⟨_, by simp only [setStream, Function.update_self]; rfl, by simp [inside]⟩
  · cases worked

theorem sendStreamSurface_fails {plan : SendPlan}
    (unmarked : ∀ e, s.streams k = some e → Mask.has e.sentClients i = false)
    (fails : plan.port = false ∨ plan.surface ≠ .sent) :
    (s.sendStreamSurface i k plan).1 = false := by
  unfold SurfaceServer.sendStreamSurface
  split
  · rename_i c e client entry
    have fresh := unmarked e entry
    rcases fails with port | surface
    · simp [fresh, port]
    · simp only [fresh, Bool.false_eq_true, if_false, if_neg surface]
      split_ifs <;> rfl
  · rfl

theorem notifyClient_reaches (client : s.clients i = some c) (streamV2 : c.streamV2 = true)
    (alone : ∀ j, j ≠ i → s.clients j = none) {delivered : BitVec 32}
    (reaches : (plan i).record ≠ .wouldBlock ∨
      (∀ e, s.streams k = some e → Mask.has e.sentClients i = false) ∧
        ((plan i).port = false ∨ (plan i).surface ≠ .sent)) :
    let s' := (notifyClient id (some k) m token plan (delivered, s) i).2
    s'.noClients = true ∨ s'.clients i = some c ∧ .record m token ∈ s'.log c.conn ∧
      ∃ e, s'.streams k = some e ∧ Mask.has e.sentClients i = true := by
  intro s'
  have clients := sendStreamSurface_clients s i k (plan i)
  have alone' : ∀ j, j ≠ i → (s.sendStreamSurface i k (plan i)).2.clients j = none := by
    rw [clients]
    exact alone
  have equal : s' = if (s.sendStreamSurface i k (plan i)).1 = false then
      (s.sendStreamSurface i k (plan i)).2.dropClient i
    else (s.sendStreamSurface i k (plan i)).2.sendRecord i c m token (plan i).record := by
    simp only [s', SurfaceServer.notifyClient, SurfaceServer.introduce, client, streamV2,
      Bool.true_eq_false, false_and, if_false]
    exact apply_ite Prod.snd _ _ _
  rw [equal]
  split
  · exact .inl (noClients_dropClient alone')
  · rename_i worked
    have marked := sendStreamSurface_marked (by simpa using worked)
    unfold SurfaceServer.sendRecord
    cases outcome : (plan i).record with
    | sent =>
      refine .inr ⟨?_, ?_, ?_⟩
      · simpa [clients] using client
      · simp [SurfaceServer.write]
      · simpa using marked
    | wouldBlock =>
      -- The record can only block if it comes to writing it at all.
      rcases reaches with goes | ⟨unmarked, fails⟩
      · exact absurd outcome goes
      · exact absurd (sendStreamSurface_fails unmarked fails) worked
    | failed n =>
      refine .inl (noClients_dropClient ?_)
      simpa using alone'

theorem announce_single (alone : ∀ j, j ≠ i → s.clients j = none) (id : BitVec 32)
    (target : FrameTarget) (seq : BitVec 64) (token : List UInt8) (eventValue : BitVec 64)
    (plan : Fin maxClients → SendPlan) :
    s.announce id target seq token eventValue plan =
      notifyClient id target.stream? (dirtyMsg id seq eventValue) token plan
        (0#32, { s with dirtySeq := seq }) i := by
  refine foldl_clients_single
    (fun told : BitVec 32 × SurfaceServer => ∀ j, j ≠ i → told.2.clients j = none) alone ?_ ?_
  · intro told absent j other
    by_contra present
    obtain ⟨c', client'⟩ := Option.ne_none_iff_exists'.mp present
    have older := notifyClient_clients client'
    rw [absent j other] at older
    cases older
  · intro told j absent other
    exact notifyClient_absent (absent j other)

theorem Accounted.announce_reaches (accounted : s.Accounted) (reaches : s.Reaches k plan)
    (seq : BitVec 64) (token : List UInt8) (eventValue : BitVec 64) :
    let s' := (s.announce id (.stream k) seq token eventValue plan).2
    s'.noClients = true ∨ ∃ i c e, s'.clients i = some c ∧
      .record (dirtyMsg id seq eventValue) token ∈ s'.log c.conn ∧ s'.streams k = some e ∧
        Mask.has e.sentClients i = true := by
  intro s'
  rcases reaches with nobody | ⟨i, c, client, streamV2, goes⟩
  · rw [noClients_iff] at nobody
    left
    have kept : ∀ j, s'.clients j = none := by
      refine foldl_clients (fun told : BitVec 32 × SurfaceServer => ∀ j, told.2.clients j = none)
        nobody ?_ _
      intro told j absent
      rw [notifyClient_absent (absent j)]
      exact absent
    rwa [noClients_iff]
  · have alone : ∀ j, j ≠ i → s.clients j = none :=
      fun j other => accounted.single.alone client streamV2 other
    have single : s' = (SurfaceServer.notifyClient id (some k) (dirtyMsg id seq eventValue) token
        plan (0#32, { s with dirtySeq := seq }) i).2 :=
      congrArg Prod.snd (announce_single alone id (.stream k) seq token eventValue plan)
    rw [single]
    rcases notifyClient_reaches (s := { s with dirtySeq := seq }) client streamV2 alone goes with
      nobody | ⟨client, logged, e, entry, marked⟩
    · exact .inl nobody
    · exact .inr ⟨i, c, e, client, logged, entry, marked⟩

theorem Accounted.mapStream (accounted : s.Accounted)
    (k : Fin maxStreamSurfaces) {f : StreamSurface → StreamSurface}
    (message : ∀ e, surfaceMsg (f e) = surfaceMsg e)
    (marks : ∀ e, (f e).sentClients = e.sentClients)
    (owed : ∀ e, s.streams k = some e → (f e).releasedSeq < (f e).lastSeq →
      s.Told (f e) ∨ s.noClients = true) :
    (s.setStream k ((s.streams k).map f)).Accounted := by
  refine ⟨accounted.sound.mapStream k message marks, accounted.single, ?_⟩
  intro k' e' entry behind
  by_cases here : k' = k
  · subst here
    simp only [setStream, Function.update_self] at entry
    obtain ⟨e, older, same⟩ := Option.map_eq_some_iff.mp entry
    subst same
    exact owed e older behind
  · simp only [setStream, Function.update_of_ne here] at entry
    exact accounted.owed k' e' entry behind

theorem Accounted.notifyDirty (accounted : s.Accounted) {eventValue : BitVec 64}
    (reaching : s.Reaching (.dirty id token eventValue plan)) :
    (s.notifyDirty id token eventValue plan).Accounted := by
  unfold SurfaceServer.notifyDirty
  split
  · exact accounted
  · rename_i accepted
    simp only [not_or, not_not] at accepted
    split
    · exact accounted
    · rename_i target found
      have known := knows_findTarget found
      have told := accounted.announce known (s.dirtySeq + 1#64) token eventValue plan
      cases target with
      | output index => exact told.of_eq rfl rfl rfl rfl rfl
      | stream k =>
        have reaches := reaching accepted.1 accepted.2 k found
        refine told.mapStream k (fun _ => rfl) (fun _ => rfl) ?_
        intro e entry _
        rcases accounted.announce_reaches reaches (s.dirtySeq + 1#64) token eventValue with
          nobody | ⟨i, c, e', client, logged, entry', marked⟩
        · exact .inr nobody
        · rw [entry'] at entry
          cases entry
          refine .inl ⟨i, c, client, marked, eventValue, token, ?_⟩
          -- The frame was announced under the id of the surface.
          obtain ⟨e₀, entry₀, named⟩ := findStreamSurface_some (findTarget_stream found)
          have dynamic : dynamicSurfaceIdBase ≤ id := by
            rw [← named]
            exact accounted.sound.dynamic k e₀ entry₀
          obtain ⟨k', same, after⟩ :=
            (accounted.sound.announce known (s.dirtySeq + 1#64) token eventValue plan).2 dynamic
          cases same
          have equal : e.id = id := by simpa [entry'] using after
          simpa [equal] using logged

theorem Accounted.notifyCursor (accounted : s.Accounted) (x y shape : BitVec 32) (visible : Bool)
    (plan : Fin maxClients → SendPlan) : (s.notifyCursor x y shape visible plan).Accounted := by
  refine foldl_clients Accounted accounted ?_ _
  intro s i accounted
  split
  · exact accounted
  · rename_i c client
    refine accounted.sendRecord client [] (plan i).record fun dirty => ?_
    simp [msgCursor, msgDirty] at dirty

theorem Accounted.notifyCursorImage (accounted : s.Accounted) (bgra : Option (List UInt8))
    (width height hotX hotY : BitVec 32) (plan : Fin maxClients → SendPlan) :
    (s.notifyCursorImage bgra width height hotX hotY plan).Accounted := by
  unfold SurfaceServer.notifyCursorImage
  simp only
  split
  · exact accounted
  · refine foldl_clients Accounted accounted ?_ _
    intro s i accounted
    split
    · exact accounted
    · rename_i c client
      refine accounted.sendRecord client _ _ fun dirty => ?_
      split at dirty <;> simp [cursorImageMsg, msgCursorImage, msgDirty] at dirty

theorem Accounted.takeBack (accounted : s.Accounted) (id : BitVec 32) (k : Fin maxStreamSurfaces)
    (plan : Fin maxClients → SendPlan) (i : Fin maxClients) :
    (takeBack id k plan s i).Accounted := by
  unfold SurfaceServer.takeBack
  split
  · exact accounted
  · rename_i c client
    split
    · have written : (s.write c.conn (dropMsg id) [] (plan i).record).Accounted := by
        refine accounted.write client [] (plan i).record fun dirty => ?_
        simp [dropMsg, msgSurfaceDrop, msgDirty] at dirty
      simp only
      split
      · exact written
      · exact written.dropClient i
    · exact accounted

theorem Accounted.streamUnregisterSurface (accounted : s.Accounted) (id : BitVec 32)
    (plan : Fin maxClients → SendPlan) : (s.streamUnregisterSurface id plan).Accounted := by
  unfold SurfaceServer.streamUnregisterSurface
  split
  · exact accounted
  · rename_i k _
    have taken : ((List.finRange maxClients).foldl (SurfaceServer.takeBack id k plan) s).Accounted :=
      foldl_clients Accounted accounted (fun s i accounted => accounted.takeBack id k plan i) _
    refine ⟨taken.sound.removeStream k, taken.single, ?_⟩
    intro k' e entry behind
    by_cases here : k' = k
    · simp [setStream, here] at entry
    · simp only [setStream, Function.update_of_ne here] at entry
      exact taken.owed k' e entry behind

theorem Accounted.streamRegisterSurface (accounted : s.Accounted)
    (geometry : Nat → SurfaceGeometry) (surface : Nat) (flags : BitVec 32) :
    (streamRegisterSurface geometry s surface flags).Accounted := by
  have sound := accounted.sound.streamRegisterSurface geometry surface flags
  unfold SurfaceServer.streamRegisterSurface at sound ⊢
  split_ifs at sound ⊢
  · exact accounted
  · exact accounted
  · split at sound
    · exact accounted
    · rename_i k _
      refine ⟨sound, accounted.single, ?_⟩
      intro k' e entry behind
      by_cases here : k' = k
      · subst here
        simp only [setStream, Function.update_self, Option.some.injEq] at entry
        subst entry
        exact absurd behind (BitVec.lt_irrefl _)
      · simp only [setStream, Function.update_of_ne here] at entry
        exact accounted.owed k' e entry behind

theorem Accounted.handleClientMsg (accounted : s.Accounted) (i : Fin maxClients)
    (serial : BitVec 64) (m : XiosMsg) : (s.handleClientMsg i serial m).Accounted := by
  unfold SurfaceServer.handleClientMsg
  split
  · exact accounted
  · split
    · exact accounted
    · split
      · unfold SurfaceServer.handleReleased
        simp only
        split
        · exact accounted
        · split
          · exact accounted.of_eq rfl rfl rfl rfl rfl
          · split
            · exact accounted.of_eq rfl rfl rfl rfl rfl
            · rename_i k _
              have released : Accounted
                  { s with queue := (s.releaseOutput i m.windowId (m.b ++ m.a)).2 } :=
                accounted.of_eq rfl rfl rfl rfl rfl
              refine released.mapStream k (fun e => ?_) (fun e => ?_) ?_
              · split <;> rfl
              · split <;> rfl
              · intro e entry behind
                split_ifs at behind ⊢ with accepted
                · -- A frame that was just released is not behind.
                  rw [← accepted.2.1] at behind
                  exact absurd behind (BitVec.lt_irrefl _)
                · exact released.owed k e entry behind
      · exact accounted

theorem Sound.unmarked (sound : s.Sound) (nobody : s.noClients = true)
    (entry : s.streams k = some e) : e.sentClients = 0#32 := by
  rw [noClients_iff] at nobody
  rw [Mask.eq_zero_iff]
  intro j _
  by_contra marked
  obtain ⟨i, -, c, client, -⟩ := sound.introduced k e entry j (by simpa using marked)
  rw [nobody i] at client
  cases client

variable {fd : Nat} {caps generation : BitVec 32}

theorem addClient_some (added : s.addClient fd caps generation = some s') :
    (caps &&& helloCapStreamV2 ≠ 0#32 → s.noClients = true) ∧
      (caps &&& helloCapStreamV2 = 0#32 → s.streamV2ClientMask = 0#32) ∧
      (∃ i serial, s.clients i = none ∧ s'.clients =
        Function.update s.clients i (some { fd, conn := s.conns, caps, serial })) ∧
      s'.streams = (if s.noClients then s.recoverConsumerAfterHandshake else s).streams ∧
      s'.log = s.log ∧ s'.ports = s.ports ∧ s'.conns = s.conns + 1 ∧
      s'.queue.count = s.queue.count := by
  unfold SurfaceServer.addClient at added
  split at added
  · cases added
  · split at added
    · cases added
    · rename_i welcome
      split at added
      · cases added
      · rename_i i found
        have free : s.clients i = none := by simpa using List.find?_some found
        cases added
        push Not at welcome
        refine ⟨fun new => by simpa using welcome.1 new, welcome.2,
          ⟨i, nextSerial s.nextClientSerial, free, ?_⟩, rfl, ?_, ?_, ?_, ?_⟩ <;> split <;> rfl

theorem recovers_of_noClients (sound : s.Sound) (nobody : s.noClients = true)
    (entry : s.streams k = some e) (behind : e.releasedSeq < e.lastSeq) : s.Recovers k e := by
  refine ⟨nobody, ?_⟩
  intro fd caps s' added
  obtain ⟨-, -, -, streams, -, -, -, -⟩ := addClient_some added
  refine ⟨{ e with releasedSeq := e.lastSeq }, ?_, rfl⟩
  rw [streams]
  simp [nobody, recoverConsumerAfterHandshake, entry, sound.unmarked nobody entry, behind]

theorem exclusive_addClient (added : s.addClient fd caps generation = some s') : s'.Exclusive := by
  obtain ⟨new, legacy, ⟨i, serial, free, clients⟩, -⟩ := addClient_some added
  intro j j' c client streamV2 other
  rw [clients] at client other
  by_cases old : caps &&& helloCapStreamV2 = 0#32
  · -- An old client joins old clients only.
    have before := streamV2ClientMask_eq_zero (legacy old) j
    by_cases here : j = i
    · subst here
      simp only [Function.update_self, Option.some.injEq] at client
      rw [← client] at streamV2
      simp [AppClient.streamV2, old] at streamV2
    · rw [Function.update_of_ne here] at client
      simp [client, streamV2] at before
  · -- A new client is alone.
    have nobody := noClients_iff.mp (new old)
    have place : ∀ j, (Function.update s.clients i (some { fd, conn := s.conns, caps, serial })
        j).isSome = true → j = i := by
      intro j present
      by_contra other
      rw [Function.update_of_ne other, nobody j] at present
      cases present
    rw [place j (by simp [client]), place j' other]

theorem Accounted.addClient (accounted : s.Accounted)
    (added : s.addClient fd caps generation = some s') : s'.Accounted := by
  obtain ⟨new, legacy, -, streams, -⟩ := addClient_some added
  refine ⟨accounted.sound.addClient added, exclusive_addClient added, ?_⟩
  · intro k e' entry behind
    rw [streams] at entry
    cases nobody : s.noClients with
    | true =>
      -- Everything counts as released now.
      simp only [nobody, if_true, recoverConsumerAfterHandshake] at entry
      obtain ⟨e, older, same⟩ := Option.map_eq_some_iff.mp entry
      have unmarked := accounted.sound.unmarked nobody older
      simp only [unmarked, true_and] at same
      split_ifs at same with late
      · subst same
        exact absurd behind (BitVec.lt_irrefl _)
      · subst same
        exact absurd behind late
    | false =>
      simp only [nobody, Bool.false_eq_true, if_false] at entry
      cases accounted.owed k e' entry behind with
      | inl told =>
        -- Nobody can join a client that was told of a surface.
        obtain ⟨j, c, client, marked, -⟩ := told
        have streamV2 := accounted.told_streamV2 entry client marked
        have exclusive : caps &&& helloCapStreamV2 = 0#32 := by
          by_contra exclusive
          rw [new exclusive] at nobody
          cases nobody
        have before := streamV2ClientMask_eq_zero (legacy exclusive) j
        simp [client, streamV2] at before
      | inr nobody' =>
        rw [nobody'] at nobody
        cases nobody

theorem Accounted.resize (accounted : s.Accounted) (unshared : s.Unshared .resize) :
    s.resize.Accounted := by
  have sound := accounted.sound.resize unshared
  unfold SurfaceServer.resize at sound ⊢
  split at sound
  · exact accounted
  · refine ⟨sound, ?_, ?_⟩
    · intro i j c client
      cases client
    · intro k e entry behind
      exact .inr (noClients_iff.mpr fun _ => rfl)

/-- Each event is harmless if frames reach whoever is connected. -/
theorem Accounted.next (accounted : s.Accounted) (geometry : Nat → SurfaceGeometry)
    (event : Event) (reaching : s.Reaching event) : (next geometry s event).Accounted := by
  cases event with
  | handshake fd caps generation =>
    simp only [SurfaceServer.next, handleClient]
    split_ifs
    · exact accounted
    · exact accounted
    · cases added : s.addClient fd caps generation with
      | none => exact accounted
      | some s' => exact accounted.addClient added
  | readerGone i fd serial =>
    simp only [SurfaceServer.next, dropClientIdentity]
    split
    · exact accounted
    · split
      · exact accounted
      · exact accounted.dropClient i
  | message i serial m => exact accounted.handleClientMsg i serial m
  | resize => exact accounted.resize reaching
  | register surface flags => exact accounted.streamRegisterSurface geometry surface flags
  | unregister id plan => exact accounted.streamUnregisterSurface id plan
  | dirty id token eventValue plan => exact accounted.notifyDirty reaching
  | cursor x y shape visible plan => exact accounted.notifyCursor x y shape visible plan
  | cursorImage bgra width height hotX hotY plan =>
    exact accounted.notifyCursorImage bgra width height hotX hotY plan
  | acquire =>
    simp only [SurfaceServer.next, outputAcquire]
    split
    · exact accounted.of_eq rfl rfl rfl rfl rfl
    · exact accounted
  | cancel id =>
    simp only [SurfaceServer.next, outputCancel]
    split
    · exact accounted.of_eq rfl rfl rfl rfl rfl
    · exact accounted

theorem accounted_start (queue : OutputQueue) (releaseToken : Bool) :
    Accounted { queue, releaseToken } := by
  refine ⟨sound_start queue releaseToken, ?_, ?_⟩
  · intro i j c client
    cases client
  · intro k e entry
    cases entry

theorem Accounted.releasable (accounted : s.Accounted) (entry : s.streams k = some e)
    (behind : e.releasedSeq < e.lastSeq) (told : s.Told e) : s.Releasable k e := by
  obtain ⟨i, c, client, marked, sent⟩ := told
  refine ⟨i, c, client, sent, fun found => ?_⟩
  have seq : (e.lastSeq.extractLsb' 32 32 ++ e.lastSeq.extractLsb' 0 32 : BitVec 64) = e.lastSeq :=
    BitVec.extractLsb'_append_extractLsb'_eq_extractLsb' (by rfl) |>.trans BitVec.extractLsb'_eq_self
  have positive : e.lastSeq ≠ 0#64 := by
    intro zero
    rw [zero] at behind
    exact absurd behind (BitVec.not_lt_zero)
  -- The id is not the one of an output.
  have static : s.findOutputIndex e.id = none := by
    by_contra output
    obtain ⟨index, output⟩ := Option.ne_none_iff_exists'.mp output
    exact findOutputIndex_static output (accounted.sound.dynamic k e entry)
  have found' : findStreamSurface { s with queue := s.queue } e.id = some k := found
  simp [SurfaceServer.handleClientMsg, client, handleReleased, releasedMsg, seq, positive,
    releaseOutput, static, found', setStream, entry, marked, behind]

theorem accounted_of_run {geometry : Nat → SurfaceGeometry} {trace : List Event}
    (run : ((machine geometry).restrict Reaching).Run trace s) : s.Accounted := by
  refine run.invariant (fun _ s => s.Accounted) ?_ ?_
  · intro s begun
    obtain ⟨_, queue, releaseToken, -, same⟩ := begun
    rw [same]
    exact accounted_start queue releaseToken
  · intro _ s event accounted allowed
    exact accounted.next geometry event allowed.2

/--
Frames that are not released yet can be.

In every history in which the frames of client surfaces reach whoever is connected, and in which the
outputs are replaced only while no client was told of any surface, a connected client was told of
every frame that is not released, or nobody is connected and the next handshake releases it.
-/
theorem unreleased_frame_accounted {geometry : Nat → SurfaceGeometry} {trace : List Event}
    {s : SurfaceServer} (run : ((machine geometry).restrict Reaching).Run trace s)
    {k : Fin maxStreamSurfaces} {e : StreamSurface} (entry : s.streams k = some e)
    (behind : e.releasedSeq < e.lastSeq) : s.Releasable k e ∨ s.Recovers k e := by
  have accounted := accounted_of_run run
  cases accounted.owed k e entry behind with
  | inl told => exact .inl (accounted.releasable entry behind told)
  | inr nobody => exact .inr (recovers_of_noClients accounted.sound nobody entry behind)

theorem unreleased_frame_accounted_oneFrame :
    (((oneFrame.foldl (next squares) oneOutput).streams 0).map fun e => (e.releasedSeq, e.lastSeq))
        = some (0#64, 1#64) ∧
      ∃ e, (oneFrame.foldl (next squares) oneOutput).streams 0 = some e ∧
        ((oneFrame.foldl (next squares) oneOutput).Releasable 0 e ∨
          (oneFrame.foldl (next squares) oneOutput).Recovers 0 e) := by
  have run : ((machine squares).restrict Reaching).Run oneFrame.reverse
      (oneFrame.foldl (next squares) oneOutput) := by
    refine .of_script (m := (machine squares).restrict Reaching) (s := oneOutput) start_oneOutput
      oneFrame ⟨⟨trivial, trivial⟩, ⟨trivial, trivial⟩, ⟨trivial, ?_⟩, trivial⟩
    -- The app understands frames of client surfaces, and nothing blocks.
    intro _ _ k _
    exact .inr ⟨0, { fd := 3, conn := 0, caps := 1#32, serial := 1#64 }, by decide +kernel,
      by decide, .inl (by decide)⟩
  have shown : ((oneFrame.foldl (next squares) oneOutput).streams 0).map
      (fun e => (e.releasedSeq, e.lastSeq)) = some (0#64, 1#64) := by decide +kernel
  refine ⟨shown, ?_⟩
  obtain ⟨e, entry, numbers⟩ := Option.map_eq_some_iff.mp shown
  obtain ⟨released, last⟩ := Prod.mk.inj numbers
  exact ⟨e, entry, unreleased_frame_accounted run entry (by rw [released, last]; decide)⟩

def stalledFrame : List Event :=
  oneFrame ++ [.dirty 0x100#32 blankToken 6#64 fun _ => { record := .wouldBlock }]

/-- The second frame counts as shown, although the app that is still connected never heard of it. -/
theorem not_unreleased_frame_accounted :
    ¬∀ (geometry : Nat → SurfaceGeometry) (trace : List Event) (s : SurfaceServer),
      (machine geometry).Run trace s →
        ∀ k e, s.streams k = some e → e.releasedSeq < e.lastSeq →
          (∃ i c, s.clients i = some c ∧ ∃ eventValue token,
            .record (dirtyMsg e.id e.lastSeq eventValue) token ∈ s.log c.conn) ∨
          s.noClients = true := by
  intro accounted
  have run : (machine squares).Run stalledFrame.reverse
      (stalledFrame.foldl (next squares) oneOutput) :=
    .of_script (m := machine squares) (s := oneOutput) start_oneOutput stalledFrame
      ⟨trivial, trivial, trivial, trivial, trivial⟩
  have shown : ((stalledFrame.foldl (next squares) oneOutput).streams 0).map
      (fun e => (e.releasedSeq, e.lastSeq)) = some (0#64, 2#64) := by decide +kernel
  obtain ⟨e, entry, numbers⟩ := Option.map_eq_some_iff.mp shown
  obtain ⟨released, last⟩ := Prod.mk.inj numbers
  rcases accounted squares _ _ run 0 e entry (by rw [released, last]; decide) with
    ⟨i, c, client, eventValue, token, logged⟩ | nobody
  · have first : ∀ i, ((stalledFrame.foldl (next squares) oneOutput).clients i).all
        (fun c => c.conn = 0) = true := by decide +kernel
    have conn : c.conn = 0 := by simpa [client] using first i
    have log : (stalledFrame.foldl (next squares) oneOutput).log 0 =
        [.record (dirtyMsg 0x100#32 1#64 5#64) blankToken,
          .record { magic := msgMagic, type := msgSurface, windowId := 0x100#32, a := 8#32
                    b := 8#32, c := 32#32 } []] := by decide +kernel
    rw [conn, log, last] at logged
    simp [dirtyMsg, msgDirty, msgSurface] at logged
  · exact absurd nobody (by decide +kernel)

end SurfaceServer

end Xios
