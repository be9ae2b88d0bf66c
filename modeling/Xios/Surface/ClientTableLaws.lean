import Xios.Surface.ClientTable
import Xios.Surface.Release

/-! The client table has one consumer, counts its clients, and tells them apart by their serials. -/

namespace Xios

namespace SurfaceServer

theorem toNat_nextSerial {serial : BitVec 64} (room : serial.toNat + 1 < 2 ^ 64) :
    (nextSerial serial).toNat = serial.toNat + 1 := by
  have sum : (serial + 1#64).toNat = serial.toNat + 1 := by
    rw [BitVec.toNat_add]
    exact Nat.mod_eq_of_lt room
  have positive : serial + 1#64 ≠ 0#64 := by
    intro zero
    rw [zero] at sum
    simp at sum
  rw [nextSerial, if_neg positive]
  exact sum

theorem addClient_serial {s s' : SurfaceServer} {fd : Nat} {caps generation : BitVec 32}
    (added : s.addClient fd caps generation = some s') :
    s'.nextClientSerial = nextSerial s.nextClientSerial ∧
      ∃ i, s.clients i = none ∧ s'.clients = Function.update s.clients i
        (some { fd, conn := s.conns, caps, serial := nextSerial s.nextClientSerial }) := by
  unfold addClient at added
  split at added
  · cases added
  · split at added
    · cases added
    · split at added
      · cases added
      · rename_i i found
        have free : s.clients i = none := by simpa using List.find?_some found
        cases added
        refine ⟨?_, i, free, ?_⟩ <;> split <;> rfl

theorem resize_spec (s : SurfaceServer) :
    (∀ i, s.resize.clients i = none) ∧ s.resize.nextClientSerial = s.nextClientSerial := by
  unfold resize OutputQueue.reset
  rw [dif_pos s.queue.bounded]
  exact ⟨fun _ => rfl, rfl⟩

@[simp]
theorem dropClient_nextClientSerial (s : SurfaceServer) (i : Fin maxClients) :
    (s.dropClient i).nextClientSerial = s.nextClientSerial := by
  unfold dropClient
  split <;> rfl

theorem handleReleased_spec (s : SurfaceServer) (i : Fin maxClients) (m : XiosMsg) :
    (s.handleReleased i m).clients = s.clients ∧
      (s.handleReleased i m).nextClientSerial = s.nextClientSerial ∧
      (s.handleReleased i m).generation = s.generation := by
  unfold handleReleased
  simp only
  split
  · exact ⟨rfl, rfl, rfl⟩
  · split
    · exact ⟨rfl, rfl, rfl⟩
    · split <;> exact ⟨rfl, rfl, rfl⟩

end SurfaceServer

namespace ClientTable

/-- What the table maintains. -/
structure Sound (t : ClientTable) : Prop where
  -- The counter is the number of occupied places.
  counted : t.nclients = t.active.card
  -- A client that understands records that name a surface is the only one.
  single : t.server.Exclusive
  -- Serials are handed out one after the other until the counter wraps around.
  numbered : t.serials.length < 2 ^ 64 → t.server.nextClientSerial.toNat = t.serials.length
  -- Until then no serial is used twice.
  distinct : t.serials.length < 2 ^ 64 → t.serials.Nodup
  -- Serials are not larger than their number.
  bounded : t.serials.length < 2 ^ 64 → ∀ serial ∈ t.serials, serial.toNat ≤ t.serials.length
  -- A client that is connected was accepted.
  known : ∀ i c, t.server.clients i = some c → c.serial ∈ t.serials
  -- Until the counter wraps around no two clients have the same serial.
  apart : t.serials.length < 2 ^ 64 → ∀ i j c c', t.server.clients i = some c →
    t.server.clients j = some c' → c.serial = c'.serial → i = j

variable {t : ClientTable}

@[simp]
theorem mem_active {i : Fin maxClients} : i ∈ t.active ↔ (t.server.clients i).isSome = true := by
  simp [active]

variable {t' : ClientTable}

theorem Sound.of_eq (sound : t.Sound) (clients : t'.server.clients = t.server.clients)
    (serial : t'.server.nextClientSerial = t.server.nextClientSerial)
    (count : t'.nclients = t.nclients) (serials : t'.serials = t.serials) : t'.Sound := by
  obtain ⟨counted, single, numbered, distinct, bounded, known, apart⟩ := sound
  have active : t'.active = t.active := by
    unfold ClientTable.active
    rw [clients]
  refine ⟨?_, ?_, ?_, ?_, ?_, ?_, ?_⟩
  · rw [count, active]
    exact counted
  · unfold SurfaceServer.Exclusive
    rwa [clients]
  · rwa [serials, serial]
  · rwa [serials]
  · rwa [serials]
  · rwa [clients, serials]
  · rwa [clients, serials]

theorem Sound.of_fewer (sound : t.Sound)
    (fewer : ∀ i c, t'.server.clients i = some c → t.server.clients i = some c)
    (serial : t'.server.nextClientSerial = t.server.nextClientSerial)
    (counted : t'.nclients = t'.active.card) (serials : t'.serials = t.serials) : t'.Sound := by
  refine ⟨counted, ?_, ?_, ?_, ?_, ?_, ?_⟩
  · exact sound.single.of_fewer fewer
  · rw [serials, serial]
    exact sound.numbered
  · rw [serials]
    exact sound.distinct
  · rw [serials]
    exact sound.bounded
  · intro i c client
    rw [serials]
    exact sound.known i c (fewer i c client)
  · intro few i j c c' client client'
    rw [serials] at few
    exact sound.apart few i j c c' (fewer i c client) (fewer j c' client')

theorem Sound.noClients (sound : t.Sound) : t.server.noClients = true ↔ t.nclients = 0 := by
  rw [sound.counted, SurfaceServer.noClients_iff, Int.natCast_eq_zero, Finset.card_eq_zero,
    Finset.eq_empty_iff_forall_notMem]
  simp

theorem Sound.addClient_eq (sound : t.Sound) (fd : Nat) (caps generation : BitVec 32) :
    t.addClient fd caps generation = (t.server.addClient fd caps generation).map fun server =>
      { t with
        server, nclients := t.nclients + 1, serials := server.nextClientSerial :: t.serials } := by
  have some' : t.server.noClients = false ↔ t.nclients ≠ 0 := by
    rw [← not_iff_not, not_not, ← sound.noClients, Bool.not_eq_false]
  unfold addClient SurfaceServer.addClient
  simp only [some', sound.noClients]
  split
  · rfl
  · split
    · rfl
    · cases (List.finRange maxClients).find? fun i => (t.server.clients i).isNone <;> rfl

/-- A new client takes a slot of its own and a serial that nobody has had. -/
theorem Sound.addClient (sound : t.Sound) {fd : Nat} {caps generation : BitVec 32}
    (added : t.addClient fd caps generation = some t') : t'.Sound := by
  rw [sound.addClient_eq, Option.map_eq_some_iff] at added
  obtain ⟨server, accepted, same⟩ := added
  obtain ⟨serial, i, free, clients⟩ := SurfaceServer.addClient_serial accepted
  subst same
  -- Before the counter wraps around, the new serial is larger than all others.
  have fresh : t.serials.length + 1 < 2 ^ 64 →
      (SurfaceServer.nextSerial t.server.nextClientSerial).toNat = t.serials.length + 1 := by
    intro few
    have numbered := sound.numbered (Nat.lt_of_succ_lt few)
    rw [SurfaceServer.toNat_nextSerial (by omega), numbered]
  have unused : t.serials.length + 1 < 2 ^ 64 →
      SurfaceServer.nextSerial t.server.nextClientSerial ∉ t.serials := by
    intro few member
    have small := sound.bounded (Nat.lt_of_succ_lt few) _ member
    rw [fresh few] at small
    omega
  have old : ∀ {j c}, j ≠ i → server.clients j = some c → t.server.clients j = some c := by
    intro j c other client
    rwa [clients, Function.update_of_ne other] at client
  have new : ∀ {c}, server.clients i = some c →
      c.serial = SurfaceServer.nextSerial t.server.nextClientSerial := by
    intro c client
    rw [clients, Function.update_self, Option.some.injEq] at client
    rw [← client]
  refine ⟨?_, SurfaceServer.exclusive_addClient accepted, ?_, ?_, ?_, ?_, ?_⟩
  · -- The new place is counted once.
    have places : ClientTable.active { t with
        server, nclients := t.nclients + 1, serials := server.nextClientSerial :: t.serials } =
          insert i t.active := by
      ext j
      by_cases same : j = i
      · subst same
        simp [clients]
      · simp [clients, same]
    have absent : i ∉ t.active := by simp [free]
    rw [places, Finset.card_insert_of_notMem absent]
    simp [sound.counted]
  · intro few
    simp only [List.length_cons] at few ⊢
    rw [serial]
    exact fresh few
  · intro few
    simp only [List.length_cons] at few
    rw [List.nodup_cons, serial]
    exact ⟨unused few, sound.distinct (Nat.lt_of_succ_lt few)⟩
  · intro few other member
    simp only [List.length_cons] at few ⊢
    rcases List.mem_cons.mp member with same | member
    · rw [same, serial, fresh few]
    · exact (sound.bounded (Nat.lt_of_succ_lt few) other member).trans (Nat.le_succ _)
  · intro j c client
    by_cases here : j = i
    · subst here
      rw [new client]
      simp [serial]
    · exact List.mem_cons_of_mem _ (sound.known j c (old here client))
  · intro few j j' c c' client client' same
    simp only [List.length_cons] at few
    by_cases here : j = i
    · by_cases there : j' = i
      · rw [here, there]
      · subst here
        have member := sound.known j' c' (old there client')
        rw [← same, new client] at member
        exact absurd member (unused few)
    · by_cases there : j' = i
      · subst there
        have member := sound.known j c (old here client)
        rw [same, new client'] at member
        exact absurd member (unused few)
      · exact sound.apart (Nat.lt_of_succ_lt few) j j' c c' (old here client) (old there client')
          same

theorem Sound.dropClient (sound : t.Sound) (i : Fin maxClients) : (t.dropClient i).Sound := by
  unfold ClientTable.dropClient
  split
  · exact sound
  · rename_i present
    refine sound.of_fewer (fun j c client => (SurfaceServer.dropClient_clients.mp client).2)
      (SurfaceServer.dropClient_nextClientSerial _ _) ?_ rfl
    -- The place was counted, and is not any more.
    have occupied : i ∈ t.active := by
      rw [mem_active, Option.isSome_iff_ne_none]
      simpa using present
    have places : ClientTable.active { t with
        server := t.server.dropClient i
        nclients := t.nclients - 1
        clock := if t.nclients - 1 = 0 then t.clock.stop else t.clock } = t.active.erase i := by
      ext j
      simp only [mem_active, Finset.mem_erase, Option.isSome_iff_exists,
        SurfaceServer.dropClient_clients]
      simp
    rw [places, Finset.card_erase_of_mem occupied]
    have positive := Finset.card_pos.mpr ⟨i, occupied⟩
    have counted := sound.counted
    simp only
    omega

theorem Sound.dropClientIdentity (sound : t.Sound) (i : Fin maxClients) (fd : Nat)
    (serial : BitVec 64) : (t.dropClientIdentity i fd serial).Sound := by
  unfold ClientTable.dropClientIdentity
  split
  · exact sound
  · split
    · exact sound
    · exact sound.dropClient i

theorem Sound.resize (sound : t.Sound) : t.resize.Sound := by
  obtain ⟨nobody, serial⟩ := t.server.resize_spec
  refine sound.of_fewer (fun i c client => ?_) serial ?_ rfl
  · rw [ClientTable.resize, nobody i] at client
    cases client
  · have places : t.resize.active = ∅ := by
      ext i
      simp [ClientTable.resize, nobody i]
    rw [places]
    rfl

theorem Sound.handleClientMsg (sound : t.Sound) (record : Inbound) (now : Nat) :
    (t.handleClientMsg record now).Sound := by
  unfold ClientTable.handleClientMsg
  split
  · exact sound.of_eq rfl rfl rfl rfl
  · split
    · split
      · obtain ⟨clients, serial, -⟩ := t.server.handleReleased_spec record.slot record.msg
        exact sound.of_eq clients serial rfl rfl
      · exact sound
    · split
      · exact sound.of_eq rfl rfl rfl rfl
      · exact sound

/-- Each event keeps the table in order. -/
theorem Sound.next (sound : t.Sound) {event : Event} (allowed : t.Allowed event) :
    (t.next event).Sound := by
  cases event with
  | add fd caps generation =>
    simp only [ClientTable.next]
    cases added : t.addClient fd caps generation with
    | none => exact sound
    | some t' => exact sound.addClient added
  | readerGone i fd serial => exact sound.dropClientIdentity i fd serial
  | drop i => exact sound.dropClient i
  | resize => exact sound.resize
  | check record =>
    simp only [ClientTable.next, checkClientMsg]
    split
    · exact sound.of_eq rfl rfl rfl rfl
    · exact sound
  | handle n now =>
    simp only [ClientTable.next]
    split
    · exact sound
    · have shorter : Sound { t with inbound := t.inbound.eraseIdx n } :=
        sound.of_eq rfl rfl rfl rfl
      exact shorter.handleClientMsg _ now
  | serve server => exact sound.of_eq allowed.1 allowed.2.1 rfl rfl

theorem sound_start (server : SurfaceServer) (nobody : server.clients = fun _ => none)
    (serial : server.nextClientSerial = 0#64) : Sound { server } := by
  have places : active { server } = ∅ := by
    ext i
    simp [nobody]
  refine ⟨?_, ?_, ?_, ?_, ?_, ?_, ?_⟩
  · rw [places]
    rfl
  · intro i j c client
    rw [nobody] at client
    cases client
  · intro _
    rw [serial]
    rfl
  · exact fun _ => List.nodup_nil
  · exact fun _ _ member => absurd member List.not_mem_nil
  · intro i c client
    rw [nobody] at client
    cases client
  · intro _ i j c c' client
    rw [nobody] at client
    cases client

theorem sound_of_run {trace : List Event} (run : machine.Run trace t) : t.Sound := by
  refine run.invariant (fun _ t => t.Sound) ?_ ?_
  · rintro t ⟨_, queue, releaseToken, -, rfl⟩
    exact sound_start _ rfl rfl
  · intro _ t event sound allowed
    exact sound.next allowed

/-- Two states of the server have the same client table. -/
structure SameTable (s s' : SurfaceServer) : Prop where
  clients : s'.clients = s.clients
  serial : s'.nextClientSerial = s.nextClientSerial
  generation : s'.generation = s.generation

/-- Whatever the table was before, one state of the server leads to another. -/
def Covers (s s' : SurfaceServer) : Prop :=
  ∀ trace t, machine.Run trace t → t.server = s →
    ∃ trace' t', machine.Run trace' t' ∧ t'.server = s'

section

variable {s s' s'' : SurfaceServer}

theorem Covers.refl (s : SurfaceServer) : Covers s s :=
  fun trace t run here => ⟨trace, t, run, here⟩

theorem Covers.trans (first : Covers s s') (second : Covers s' s'') : Covers s s'' := by
  intro trace t run here
  obtain ⟨trace', t', run', here'⟩ := first trace t run here
  exact second trace' t' run' here'

theorem SameTable.covers (same : SameTable s s') : Covers s s' := by
  intro trace t run here
  subst here
  exact ⟨_, _, run.step (Event.serve s') ⟨same.clients, same.serial, same.generation⟩, rfl⟩

theorem covers_dropClient (s : SurfaceServer) (i : Fin maxClients) : Covers s (s.dropClient i) := by
  intro trace t run here
  subst here
  refine ⟨_, _, run.step (Event.drop i) trivial, ?_⟩
  change (t.dropClient i).server = _
  unfold dropClient
  split
  · rename_i absent
    rw [SurfaceServer.dropClient, if_pos absent]
  · rfl

theorem covers_foldl {β ι : Type*} (server : β → SurfaceServer) {step : β → ι → β}
    (round : ∀ b i, Covers (server b) (server (step b i))) (l : List ι) (b : β) :
    Covers (server b) (server (l.foldl step b)) := by
  induction l generalizing b with
  | nil => exact .refl _
  | cons i rest ih => exact (round b i).trans (ih (step b i))

theorem sameTable_write (s : SurfaceServer) (conn : Nat) (m : XiosMsg) (payload : List UInt8)
    (result : SendResult) : SameTable s (s.write conn m payload result) := by
  unfold SurfaceServer.write
  cases result <;> exact ⟨rfl, rfl, rfl⟩

theorem covers_sendRecord (s : SurfaceServer) (i : Fin maxClients) (c : AppClient) (m : XiosMsg)
    (payload : List UInt8) (result : SendResult) :
    Covers s (s.sendRecord i c m payload result) := by
  have written := (sameTable_write s c.conn m payload result).covers
  unfold SurfaceServer.sendRecord
  cases result with
  | sent | wouldBlock => exact written
  | failed n => exact written.trans (covers_dropClient _ i)

theorem sameTable_introduce (s : SurfaceServer) (i : Fin maxClients)
    (stream : Option (Fin maxStreamSurfaces)) (plan : SendPlan) :
    SameTable s (s.introduce i stream plan).2 := by
  unfold SurfaceServer.introduce
  cases stream with
  | none => exact ⟨rfl, rfl, rfl⟩
  | some k =>
    simp only [SurfaceServer.sendStreamSurface]
    split
    · rename_i c e _ _
      obtain ⟨clients, serial, generation⟩ :=
        sameTable_write (s.deliverPort c.conn e.surface) c.conn (SurfaceServer.surfaceMsg e) []
          plan.surface
      split
      · exact ⟨rfl, rfl, rfl⟩
      · split
        · exact ⟨rfl, rfl, rfl⟩
        · split
          · exact ⟨rfl, rfl, rfl⟩
          · split <;> exact ⟨clients, serial, generation⟩
    · exact ⟨rfl, rfl, rfl⟩

theorem covers_notifyClient (id : BitVec 32) (stream : Option (Fin maxStreamSurfaces))
    (m : XiosMsg) (token : List UInt8) (plan : Fin maxClients → SendPlan)
    (told : BitVec 32 × SurfaceServer) (i : Fin maxClients) :
    Covers told.2 (SurfaceServer.notifyClient id stream m token plan told i).2 := by
  obtain ⟨delivered, s⟩ := told
  simp only [SurfaceServer.notifyClient]
  split
  · exact .refl _
  · split
    · exact .refl _
    · have introduced := (sameTable_introduce s i stream (plan i)).covers
      split
      · exact introduced.trans (covers_dropClient _ i)
      · exact introduced.trans (covers_sendRecord _ i _ m token _)

theorem covers_takeBack (id : BitVec 32) (k : Fin maxStreamSurfaces)
    (plan : Fin maxClients → SendPlan) (s : SurfaceServer) (i : Fin maxClients) :
    Covers s (SurfaceServer.takeBack id k plan s i) := by
  unfold SurfaceServer.takeBack
  split
  · exact .refl _
  · rename_i c _
    have written := (sameTable_write s c.conn (SurfaceServer.dropMsg id) [] (plan i).record).covers
    split
    · simp only
      split
      · exact written
      · exact written.trans (covers_dropClient _ i)
    · exact .refl _

theorem covers_handleClient (s : SurfaceServer) (fd : Nat) (caps generation : BitVec 32) :
    Covers s (s.handleClient fd caps generation) := by
  unfold SurfaceServer.handleClient
  split
  · exact .refl _
  · split
    · exact .refl _
    · intro trace t run here
      subst here
      refine ⟨_, _, run.step (Event.add fd caps generation) trivial, ?_⟩
      change ((t.addClient fd caps generation).getD t).server = _
      rw [(sound_of_run run).addClient_eq]
      cases t.server.addClient fd caps generation <;> rfl

/-- Each step of the server is a run of the client table. -/
theorem covers_next (geometry : Nat → SurfaceGeometry) (s : SurfaceServer)
    (event : SurfaceServer.Event) : Covers s (SurfaceServer.next geometry s event) := by
  cases event with
  | handshake fd caps generation => exact covers_handleClient s fd caps generation
  | readerGone i fd serial =>
    simp only [SurfaceServer.next, SurfaceServer.dropClientIdentity]
    split
    · exact .refl _
    · split
      · exact .refl _
      · exact covers_dropClient s i
  | message i serial m =>
    simp only [SurfaceServer.next, SurfaceServer.handleClientMsg]
    split
    · exact .refl _
    · split
      · exact .refl _
      · split
        · obtain ⟨clients, serial, generation⟩ := s.handleReleased_spec i m
          exact SameTable.covers ⟨clients, serial, generation⟩
        · exact .refl _
  | resize =>
    intro trace t run here
    subst here
    exact ⟨_, _, run.step Event.resize trivial, rfl⟩
  | register surface flags =>
    have same : SameTable s (SurfaceServer.streamRegisterSurface geometry s surface flags) := by
      unfold SurfaceServer.streamRegisterSurface
      split
      · exact ⟨rfl, rfl, rfl⟩
      · split
        · exact ⟨rfl, rfl, rfl⟩
        · split <;> exact ⟨rfl, rfl, rfl⟩
    exact same.covers
  | unregister id plan =>
    simp only [SurfaceServer.next, SurfaceServer.streamUnregisterSurface]
    split
    · exact .refl _
    · rename_i k _
      refine (covers_foldl (fun s => s) (covers_takeBack id k plan)
        (List.finRange maxClients) s).trans ?_
      exact SameTable.covers ⟨rfl, rfl, rfl⟩
  | dirty id token eventValue plan =>
    simp only [SurfaceServer.next, SurfaceServer.notifyDirty]
    split
    · exact .refl _
    · split
      · exact .refl _
      · rename_i target _
        have numbered : Covers s { s with dirtySeq := s.dirtySeq + 1#64 } :=
          SameTable.covers ⟨rfl, rfl, rfl⟩
        have told := numbered.trans
          (covers_foldl (fun told : BitVec 32 × SurfaceServer => told.2)
            (covers_notifyClient id target.stream?
              (SurfaceServer.dirtyMsg id (s.dirtySeq + 1#64) eventValue) token plan)
            (List.finRange maxClients) (0#32, { s with dirtySeq := s.dirtySeq + 1#64 }))
        cases target <;> exact told.trans (SameTable.covers ⟨rfl, rfl, rfl⟩)
  | cursor x y shape visible plan =>
    refine covers_foldl (fun s => s) (fun s i => ?_) _ s
    split
    · exact .refl _
    · exact covers_sendRecord s i _ _ _ _
  | cursorImage bgra width height hotX hotY plan =>
    simp only [SurfaceServer.next, SurfaceServer.notifyCursorImage]
    split
    · exact .refl _
    · refine covers_foldl (fun s => s) (fun s i => ?_) _ s
      split
      · exact .refl _
      · exact covers_sendRecord s i _ _ _ _
  | acquire =>
    simp only [SurfaceServer.next, SurfaceServer.outputAcquire]
    split
    · exact SameTable.covers ⟨rfl, rfl, rfl⟩
    · exact .refl _
  | cancel id =>
    simp only [SurfaceServer.next, SurfaceServer.outputCancel]
    split
    · exact SameTable.covers ⟨rfl, rfl, rfl⟩
    · exact .refl _

end

theorem exists_run_of_server {geometry : Nat → SurfaceGeometry}
    {events : List SurfaceServer.Event} {s : SurfaceServer}
    (run : (SurfaceServer.machine geometry).Run events s) :
    ∃ trace t, machine.Run trace t ∧ t.server = s := by
  induction run with
  | start begun =>
    obtain ⟨count, queue, releaseToken, created, rfl⟩ := begun
    exact ⟨[], _, .start ⟨count, queue, releaseToken, created, rfl⟩, rfl⟩
  | step event _ _ ih =>
    obtain ⟨trace, t, run, here⟩ := ih
    exact covers_next geometry _ event trace t run here

/--
The whole surface server does nothing to its client table that the table does not allow.

Each of its runs is matched by a run of the table, and so in every state that the server reaches
a client that understands records which name a surface has no other client beside it.
-/
theorem server_keeps_table {geometry : Nat → SurfaceGeometry}
    {events : List SurfaceServer.Event} {s : SurfaceServer}
    (run : (SurfaceServer.machine geometry).Run events s) :
    (∃ trace t, machine.Run trace t ∧ t.server = s) ∧
      ∀ i c, s.clients i = some c → c.streamV2 = true →
        ∀ j c', s.clients j = some c' → j = i := by
  obtain ⟨trace, t, matched, rfl⟩ := exists_run_of_server run
  refine ⟨⟨trace, t, matched, rfl⟩, fun i c client streamV2 j c' other => ?_⟩
  exact (sound_of_run matched).single i j c client streamV2 (by rw [other]; rfl)

theorem server_keeps_table_oneFrame :
    (∃ trace t, machine.Run trace t ∧
      t.server = SurfaceServer.oneFrame.foldl (SurfaceServer.next SurfaceServer.squares)
        SurfaceServer.oneOutput) ∧
      ((SurfaceServer.oneFrame.foldl (SurfaceServer.next SurfaceServer.squares)
        SurfaceServer.oneOutput).clients 0).any AppClient.streamV2 = true := by
  have run : (SurfaceServer.machine SurfaceServer.squares).Run _ _ :=
    .of_script SurfaceServer.start_oneOutput SurfaceServer.oneFrame
      ⟨trivial, trivial, trivial, trivial⟩
  exact ⟨(server_keeps_table run).1, by decide +kernel⟩

theorem stale_unchanged {t : ClientTable} {i : Fin maxClients} {serial : BitVec 64}
    (stale : ¬t.Current i serial) :
    (∀ fd, t.dropClientIdentity i fd serial = t) ∧
      (∀ msg, t.checkClientMsg ⟨i, serial, msg⟩ = t) ∧
      ∀ msg now, (t.handleClientMsg ⟨i, serial, msg⟩ now).server = t.server ∧
        (t.handleClientMsg ⟨i, serial, msg⟩ now).nclients = t.nclients := by
  refine ⟨?_, ?_, ?_⟩
  · intro fd
    unfold ClientTable.dropClientIdentity
    split
    · rfl
    · rename_i c client
      rw [if_pos]
      exact Or.inr fun same => stale ⟨c, client, same⟩
  · intro msg
    exact if_neg stale
  · intro msg now
    unfold ClientTable.handleClientMsg
    simp only [stale, if_false]
    split
    · exact ⟨rfl, rfl⟩
    · split
      · exact ⟨rfl, rfl⟩
      · split <;> exact ⟨rfl, rfl⟩

/--
The table has one consumer, counts its clients and tells them apart.

In every history the counter is the number of occupied places, and a client that understands
records that name a surface is the only one.
As long as fewer than `2 ^ 64` clients were accepted, no two of them were given the same serial,
and no two that are connected have the same one.
Whatever a thread does that reads from a client no longer in its place, the clients, the outputs
and the client surfaces stay as they are, even if the client was there when its record arrived.
-/
theorem single_consumer {trace : List Event} {t : ClientTable} (run : machine.Run trace t) :
    t.nclients = t.active.card ∧
      (∀ i c, t.server.clients i = some c → c.streamV2 = true → t.active = {i}) ∧
      (t.serials.length < 2 ^ 64 → t.serials.Nodup ∧ ∀ i j c c', t.server.clients i = some c →
        t.server.clients j = some c' → c.serial = c'.serial → i = j) ∧
      (∀ i c, t.server.clients i = some c → c.serial ∈ t.serials) ∧
      ∀ i serial, ¬t.Current i serial →
        (∀ fd, t.next (.readerGone i fd serial) = t) ∧
        (∀ msg, t.next (.check ⟨i, serial, msg⟩) = t) ∧
        ∀ n now msg, t.inbound[n]? = some ⟨i, serial, msg⟩ →
          (t.next (.handle n now)).server = t.server ∧
            (t.next (.handle n now)).nclients = t.nclients := by
  have sound := sound_of_run run
  refine ⟨sound.counted, ?_, ?_, sound.known, ?_⟩
  · intro i c client streamV2
    ext j
    rw [mem_active, Finset.mem_singleton]
    refine ⟨sound.single i j c client streamV2, ?_⟩
    rintro rfl
    simp [client]
  · exact fun few => ⟨sound.distinct few, sound.apart few⟩
  · intro i serial stale
    obtain ⟨gone, unchecked, -⟩ := stale_unchanged stale
    refine ⟨gone, unchecked, ?_⟩
    intro n now msg waiting
    have absent : ¬Current { t with inbound := t.inbound.eraseIdx n } i serial := stale
    simp only [ClientTable.next, waiting]
    exact (stale_unchanged absent).2.2 msg now

def oneOutput : ClientTable :=
  { server := SurfaceServer.oneOutput }

theorem start_oneOutput : machine.start oneOutput :=
  ⟨1, SurfaceServer.oneOutput.queue, false, rfl, rfl⟩

def firstRelease : Inbound :=
  ⟨0, 1#64, { magic := msgMagic, type := msgReleased, a := 1#32 }⟩

def lateRelease : List Event :=
  [.add 3 helloCapStreamV2 0#32, .check firstRelease, .resize]

theorem single_consumer_lateRelease :
    (lateRelease.foldl next oneOutput).inbound = [firstRelease] ∧
      ((lateRelease.foldl next oneOutput).next (.handle 0 0)).server =
        (lateRelease.foldl next oneOutput).server := by
  have run : machine.Run lateRelease.reverse (lateRelease.foldl next oneOutput) :=
    .of_script (m := machine) (s := oneOutput) start_oneOutput lateRelease
      ⟨trivial, trivial, trivial, trivial⟩
  have stale : ¬(lateRelease.foldl next oneOutput).Current 0 1#64 := by decide +kernel
  have waiting : (lateRelease.foldl next oneOutput).inbound = [firstRelease] := by decide +kernel
  refine ⟨waiting, ?_⟩
  exact (((single_consumer run).2.2.2.2 0 1#64 stale).2.2 0 0 firstRelease.msg
    (by rw [waiting]; rfl)).1

def firstClient : AppClient :=
  { fd := 3, conn := 0, caps := 0#32, serial := 1#64 }

/-- Only the first client is connected, and the last serial was the given one. -/
structure Worn (n : Nat) (t : ClientTable) : Prop where
  clients : t.server.clients = Function.update (fun _ => none) 0 (some firstClient)
  serial : t.server.nextClientSerial = BitVec.ofNat 64 n
  generation : t.server.generation = 0#32

theorem Worn.add {n : Nat} {t : ClientTable} (worn : t.Worn n) :
    ∃ c, c.serial = SurfaceServer.nextSerial (BitVec.ofNat 64 n) ∧
      (t.next (.add 4 0#32 0#32)).server.clients =
        Function.update t.server.clients 1 (some c) ∧
      (t.next (.add 4 0#32 0#32)).server.nextClientSerial =
        SurfaceServer.nextSerial (BitVec.ofNat 64 n) ∧
      (t.next (.add 4 0#32 0#32)).server.generation = 0#32 := by
  have nobody : t.server.streamV2ClientMask = 0#32 := by
    unfold SurfaceServer.streamV2ClientMask
    rw [worn.clients]
    decide
  have place : (List.finRange maxClients).find? (fun i => (t.server.clients i).isNone) = some 1 := by
    rw [worn.clients]
    decide
  have kept : ∀ server : SurfaceServer,
      server = (if t.nclients = 0 then t.server.recoverConsumerAfterHandshake else t.server) →
        server.clients = t.server.clients ∧ server.nextClientSerial = BitVec.ofNat 64 n ∧
          server.generation = 0#32 := by
    intro server same
    rw [same]
    split <;> exact ⟨rfl, worn.serial, worn.generation⟩
  have legacy : (0#32 &&& helloCapStreamV2) = 0#32 := by decide
  simp only [next, addClient, worn.generation, ne_eq, not_true, if_false, legacy, nobody,
    and_false, false_and, or_false, place, Option.getD_some]
  obtain ⟨clients, serial, generation⟩ := kept _ rfl
  generalize (if t.nclients = 0 then t.server.recoverConsumerAfterHandshake else t.server) = server
    at clients serial generation ⊢
  exact ⟨{
      fd := 4
      conn := server.conns
      caps := 0#32
      serial := SurfaceServer.nextSerial server.nextClientSerial }, by rw [serial], by rw [clients],
    by rw [serial], generation⟩

theorem exists_worn {n : Nat} (begun : 1 ≤ n) (room : n < 2 ^ 64) :
    ∃ trace t, machine.Run trace t ∧ t.Worn n := by
  induction n with
  | zero => exact absurd begun (by omega)
  | succ n ih =>
    by_cases first : n = 0
    · subst first
      refine ⟨_, _, .step (m := machine) (.add 3 0#32 0#32) (.start start_oneOutput) trivial, ?_⟩
      exact ⟨by decide +kernel, by decide +kernel, by decide +kernel⟩
    · obtain ⟨trace, t, run, worn⟩ := ih (by omega) (by omega)
      obtain ⟨c, -, clients, serial, generation⟩ := worn.add
      have added := run.step (Event.add 4 0#32 0#32) trivial
      refine ⟨_, _, added.step (Event.drop 1) trivial, ?_⟩
      change Worn (n + 1) ((t.next (.add 4 0#32 0#32)).dropClient 1)
      have dropped : (t.next (.add 4 0#32 0#32)).dropClient 1 =
          { t.next (.add 4 0#32 0#32) with
            server := (t.next (.add 4 0#32 0#32)).server.dropClient 1
            nclients := (t.next (.add 4 0#32 0#32)).nclients - 1
            clock := if (t.next (.add 4 0#32 0#32)).nclients - 1 = 0
              then (t.next (.add 4 0#32 0#32)).clock.stop
              else (t.next (.add 4 0#32 0#32)).clock } := by
        rw [dropClient, if_neg (by simp [clients])]
      rw [dropped]
      refine ⟨?_, ?_, ?_⟩
      · -- The other client's place is empty again.
        funext j
        apply Option.ext
        intro c'
        rw [SurfaceServer.dropClient_clients, clients, ← worn.clients]
        by_cases here : j = 1
        · subst here
          simp [worn.clients]
        · simp [here]
      · rw [SurfaceServer.dropClient_nextClientSerial, serial]
        apply BitVec.eq_of_toNat_eq
        rw [SurfaceServer.toNat_nextSerial] <;> simp only [BitVec.toNat_ofNat] <;> omega
      · have same : ((t.next (.add 4 0#32 0#32)).server.dropClient 1).generation =
            (t.next (.add 4 0#32 0#32)).server.generation := by
          unfold SurfaceServer.dropClient
          split <;> rfl
        rw [same, generation]

/-- Once the counter has wrapped around, two clients can have the same serial. -/
theorem not_distinct_serials :
    ¬∀ trace t, machine.Run trace t → ∀ i j c c', t.server.clients i = some c →
      t.server.clients j = some c' → c.serial = c'.serial → i = j := by
  intro distinct
  obtain ⟨trace, t, run, worn⟩ := exists_worn (n := 2 ^ 64 - 1) (by decide) (by decide)
  obtain ⟨c, serial, clients, -⟩ := worn.add
  have added := run.step (Event.add 4 0#32 0#32) trivial
  have first : (t.next (.add 4 0#32 0#32)).server.clients 0 = some firstClient := by
    rw [clients, worn.clients]
    rfl
  have second : (t.next (.add 4 0#32 0#32)).server.clients 1 = some c := by
    rw [clients, Function.update_self]
  have same : firstClient.serial = c.serial := by
    rw [serial]
    decide
  exact absurd (distinct _ _ added 0 1 firstClient c first second same) (by decide)

end ClientTable

end Xios
