import Xios.Surface.Wire

/-! What the server wrote to a client agrees with the surfaces that are marked for it. -/

namespace Xios

namespace OutputQueue

@[simp]
theorem publish_count (q : OutputQueue) (index : Nat) (pendingClients : BitVec 32) (seq : Nat) :
    (q.publish index pendingClients seq).count = q.count := by
  unfold publish
  split <;> rfl

@[simp]
theorem cancel_count (q : OutputQueue) (index : Nat) : (q.cancel index).count = q.count := by
  unfold cancel
  split <;> rfl

@[simp]
theorem release_count (q : OutputQueue) (index : Nat) (clientBit : BitVec 32) (seq : Nat) :
    (q.release index clientBit seq).2.count = q.count := by
  unfold release
  simp only
  split_ifs <;> rfl

@[simp]
theorem dropClient_count (q : OutputQueue) (clientBit : BitVec 32) :
    (q.dropClient clientBit).count = q.count := by
  unfold dropClient
  split <;> rfl

theorem acquire_count {q after : OutputQueue} {rotate : Bool} {grant : Grant}
    (acquired : q.acquire rotate = some (grant, after)) : after.count = q.count :=
  congrArg (fun result => result.2.count) (acquire_some acquired).2.2

theorem reset_count {count : Nat} {q : OutputQueue} (created : reset count = some q) :
    q.count = count := by
  unfold reset at created
  split at created
  · cases created
    rfl
  · cases created

end OutputQueue

/-- No size is empty or negative. -/
def SurfaceGeometry.Positive (g : SurfaceGeometry) : Prop :=
  0 < g.width.toInt ∧ 0 < g.height.toInt ∧ 0 < g.stride.toInt

def StreamSurface.core (e : StreamSurface) : StreamSurface :=
  { e with lastSeq := 0#64, releasedSeq := 0#64 }

theorem StreamSurface.of_core {e e' : StreamSurface} (same : e'.core = e.core) :
    e'.surface = e.surface ∧ e'.id = e.id ∧ e'.flags = e.flags ∧ e'.geometry = e.geometry ∧
      e'.sentClients = e.sentClients := by
  simpa [core] using same

namespace SurfaceServer

/-- The app has room for every surface that is introduced to it, and the outputs stay or are not shared. -/
def Fits (s : SurfaceServer) : Event → Prop
  | .resize => s.Unshared .resize
  | .dirty id token eventValue plan =>
    token.length = gpuFenceTokenSize → eventValue ≠ 0#64 →
      ∀ k e i c, s.findTarget id = some (.stream k) → s.streams k = some e →
        s.clients i = some c → c.streamV2 = true → Mask.has e.sentClients i = false →
          (plan i).port = true → (plan i).surface = .sent →
            (s.viewOf i c).Room s.queue.count id
  | _ => True

/-- No two client surfaces with the same id are marked for the same place. -/
def Distinct (s : SurfaceServer) : Prop :=
  ∀ k k' e e' (i : Nat), s.streams k = some e → s.streams k' = some e' →
    Mask.has e.sentClients i = true → Mask.has e'.sentClients i = true → e.id = e'.id → k = k'

/-- What the server maintains about its streams, but for clients that are about to be disconnected. -/
structure Streams (geometry : Nat → SurfaceGeometry) (outputs : Nat) (left : Fin maxClients → Prop)
    (s : SurfaceServer) : Prop where
  -- Surfaces are introduced before their frames.
  sound : s.Sound
  -- A client that understands frames of client surfaces is the only one.
  exclusive : s.Exclusive
  -- The number of outputs does not change.
  count : s.queue.count = outputs
  -- Client surfaces are described as they are.
  registered : ∀ k e, s.streams k = some e →
    e.geometry = geometry e.surface ∧ e.flags &&& ~~~surfaceFlagFlipY = 0#32
  -- Clients can tell surfaces apart.
  distinct : s.Distinct
  -- Nothing was delivered to connections that do not exist yet.
  unsent : ∀ conn, s.conns ≤ conn → s.ports conn = []
  -- Whatever was written to a connection can be read.
  readable : ∀ conn, Readable geometry outputs (s.log conn) (s.ports conn)
  -- A connected client was told of exactly the surfaces that are marked for it.
  tells : ∀ i c, s.clients i = some c → ¬left i →
    Tells geometry outputs (s.log c.conn) (s.ports c.conn) (s.viewOf i c)

section

variable {geometry : Nat → SurfaceGeometry} {outputs : Nat} {left : Fin maxClients → Prop}
  {s s' : SurfaceServer}

/-- Client surfaces went or lost marks, and are the same otherwise. -/
def Shrinks (s s' : SurfaceServer) : Prop :=
  ∀ k e', s'.streams k = some e' → ∃ e, s.streams k = some e ∧ e'.surface = e.surface ∧
    e'.id = e.id ∧ e'.flags = e.flags ∧ e'.geometry = e.geometry ∧
    ∀ j, Mask.has e'.sentClients j = true → Mask.has e.sentClients j = true

variable {left' : Fin maxClients → Prop}

theorem Streams.of_shrinks (streams : s.Streams geometry outputs left) (shrinks : s.Shrinks s') (sound : s'.Sound)
    (exclusive : s'.Exclusive) (count : s'.queue.count = s.queue.count)
    (unsent : ∀ conn, s'.conns ≤ conn → s'.ports conn = [])
    (readable : ∀ conn, Readable geometry outputs (s'.log conn) (s'.ports conn))
    (tells : ∀ i c, s'.clients i = some c → ¬left' i →
      Tells geometry outputs (s'.log c.conn) (s'.ports c.conn) (s'.viewOf i c)) :
    s'.Streams geometry outputs left' := by
  refine ⟨sound, exclusive, count.trans streams.count, ?_, ?_, unsent, readable, tells⟩
  · intro k e' entry
    obtain ⟨e, entry, surface, -, flags, geometry', -⟩ := shrinks k e' entry
    rw [geometry', surface, flags]
    exact streams.registered k e entry
  · intro k k' e₁' e₂' i entry₁ entry₂ marked₁ marked₂ same
    obtain ⟨e₁, entry₁, -, id₁, -, -, marks₁⟩ := shrinks k e₁' entry₁
    obtain ⟨e₂, entry₂, -, id₂, -, -, marks₂⟩ := shrinks k' e₂' entry₂
    exact streams.distinct k k' e₁ e₂ i entry₁ entry₂ (marks₁ i marked₁) (marks₂ i marked₂)
      (by rw [← id₁, ← id₂, same])

variable {k : Fin maxStreamSurfaces}

theorem exists_core
    (cores : (s'.streams k).map StreamSurface.core = (s.streams k).map StreamSurface.core)
    {e' : StreamSurface} (entry : s'.streams k = some e') :
    ∃ e, s.streams k = some e ∧ e'.surface = e.surface ∧ e'.id = e.id ∧ e'.flags = e.flags ∧
      e'.geometry = e.geometry ∧ e'.sentClients = e.sentClients := by
  rw [entry, Option.map_some, eq_comm, Option.map_eq_some_iff] at cores
  obtain ⟨e, entry', core⟩ := cores
  exact ⟨e, entry', StreamSurface.of_core core.symm⟩

theorem heldBy_core
    (cores : ∀ k, (s'.streams k).map StreamSurface.core = (s.streams k).map StreamSurface.core)
    (i : Fin maxClients) : s'.heldBy i = s.heldBy i := by
  refine heldBy_congr fun id => ⟨?_, ?_⟩
  · rintro ⟨k, e', entry, marked, named⟩
    obtain ⟨e, entry, -, ids, -, -, marks⟩ := exists_core (cores k) entry
    exact ⟨k, e, entry, by rw [← marks]; exact marked, by rw [← ids, named]⟩
  · rintro ⟨k, e, entry, marked, named⟩
    obtain ⟨e', entry, -, ids, -, -, marks⟩ := exists_core (cores k).symm entry
    exact ⟨k, e', entry, by rw [← marks]; exact marked, by rw [← ids, named]⟩

theorem Streams.of_frame (streams : s.Streams geometry outputs left) (sound : s'.Sound)
    (clients : s'.clients = s.clients) (count : s'.queue.count = s.queue.count)
    (cores : ∀ k, (s'.streams k).map StreamSurface.core = (s.streams k).map StreamSurface.core)
    (conns : s'.conns = s.conns) (log : s'.log = s.log) (ports : s'.ports = s.ports) :
    s'.Streams geometry outputs left := by
  refine streams.of_shrinks ?_ sound ?_ count ?_ ?_ ?_
  · intro k e' entry
    obtain ⟨e, entry, surface, ids, flags, geometry', marks⟩ := exists_core (cores k) entry
    refine ⟨e, entry, surface, ids, flags, geometry', ?_⟩
    rw [marks]
    exact fun _ => id
  · exact streams.exclusive.of_fewer fun j c client => by rwa [← clients]
  · rw [conns, ports]
    exact streams.unsent
  · rw [log, ports]
    exact streams.readable
  · intro i c client kept
    rw [clients] at client
    have told := streams.tells i c client kept
    unfold viewOf at told ⊢
    rw [heldBy_core cores, log, ports]
    exact told

variable {i : Fin maxClients}

theorem Streams.dropClient (streams : s.Streams geometry outputs left)
    (only : ∀ j, left j → j = i) : (s.dropClient i).Streams geometry outputs fun _ => False := by
  have ports : (s.dropClient i).ports = s.ports := by
    unfold SurfaceServer.dropClient
    split <;> rfl
  have count : (s.dropClient i).queue.count = s.queue.count := by
    unfold SurfaceServer.dropClient
    split
    · rfl
    · simp [clearClientPending]
  have kept : ∀ j, j ≠ i → (s.dropClient i).heldBy j = s.heldBy j := by
    intro j other
    unfold SurfaceServer.dropClient
    split
    · rfl
    · have different : (j : Nat) ≠ i := fun same => other (Fin.ext same)
      refine heldBy_congr fun id => ?_
      simp only [clearClientPending, Option.map_eq_some_iff]
      constructor
      · rintro ⟨k, e', ⟨e, entry, same⟩, marked, named⟩
        subst same
        exact ⟨k, e, entry, by simpa [different] using marked, named⟩
      · rintro ⟨k, e, entry, marked, named⟩
        exact ⟨k, _, ⟨e, entry, rfl⟩, by simpa [different] using marked, named⟩
  refine streams.of_shrinks ?_ (streams.sound.dropClient i) ?_ count ?_ ?_ ?_
  · intro k e' entry
    unfold SurfaceServer.dropClient at entry
    split at entry
    · exact ⟨e', entry, rfl, rfl, rfl, rfl, fun _ => id⟩
    · obtain ⟨e, older, same⟩ := Option.map_eq_some_iff.mp entry
      subst same
      refine ⟨e, older, rfl, rfl, rfl, rfl, ?_⟩
      intro j marked
      simp only [Mask.has_erase, Bool.and_eq_true] at marked
      exact marked.1
  · exact streams.exclusive.of_fewer fun j c client => (dropClient_clients.mp client).2
  · rw [dropClient_conns, ports]
    exact streams.unsent
  · rw [dropClient_log, ports]
    exact streams.readable
  · intro j c client _
    obtain ⟨other, client⟩ := dropClient_clients.mp client
    have told := streams.tells j c client fun gone => other (only j gone)
    unfold viewOf at told ⊢
    rw [kept j other, dropClient_log, ports]
    exact told

@[simp]
theorem write_ports (s : SurfaceServer) (conn : Nat) (m : XiosMsg) (payload : List UInt8)
    (result : SendResult) : (s.write conn m payload result).ports = s.ports := by
  unfold write
  cases result <;> rfl

@[simp]
theorem write_queue (s : SurfaceServer) (conn : Nat) (m : XiosMsg) (payload : List UInt8)
    (result : SendResult) : (s.write conn m payload result).queue = s.queue := by
  unfold write
  cases result <;> rfl

@[simp]
theorem write_heldBy (s : SurfaceServer) (conn : Nat) (m : XiosMsg) (payload : List UInt8)
    (result : SendResult) (i : Fin maxClients) :
    (s.write conn m payload result).heldBy i = s.heldBy i := by
  unfold heldBy
  rw [write_streams]

def viewAfter (s : SurfaceServer) (i : Fin maxClients) (c : AppClient) (m : XiosMsg) : StreamView :=
  { s.viewOf i c with
    current := if m.type = msgDirty then m.windowId else (s.viewOf i c).current }

variable {c : AppClient} {m : XiosMsg} {payload : List UInt8}

theorem Streams.wrote (streams : s.Streams geometry outputs fun _ => False) (client : s.clients i = some c)
    {result : SendResult}
    (told : m.type = msgDirty → m.Dynamic → ∃ x ∈ s.log c.conn, x.Introduces m.windowId)
    (readable : Readable geometry outputs ((s.write c.conn m payload result).log c.conn)
      (s.ports c.conn)) :
    (s.write c.conn m payload result).Streams geometry outputs fun j => j = i := by
  refine streams.of_shrinks ?_ (streams.sound.write client payload result told) ?_ (by simp) ?_ ?_ ?_
  · intro k e' entry
    rw [write_streams] at entry
    exact ⟨e', entry, rfl, rfl, rfl, rfl, fun _ => id⟩
  · exact streams.exclusive.of_fewer fun j c' client' => by rwa [write_clients] at client'
  · rw [write_conns, write_ports]
    exact streams.unsent
  · intro conn
    rw [write_ports]
    by_cases same : conn = c.conn
    · rw [same]
      exact readable
    · rw [log_write_other m payload result same]
      exact streams.readable conn
  · intro j c' client' kept
    rw [write_clients] at client'
    have other : c'.conn ≠ c.conn := fun equal =>
      kept (streams.sound.apart j i c' c client' client equal)
    have told' := streams.tells j c' client' (fun gone => gone)
    unfold viewOf at told' ⊢
    rw [write_heldBy, log_write_other m payload result other, write_ports]
    exact told'

theorem Streams.write (streams : s.Streams geometry outputs fun _ => False)
    (client : s.clients i = some c)
    (accepts : (s.viewOf i c).Accepts outputs m payload [] (s.viewAfter i c m))
    (result : SendResult)
    (told : m.type = msgDirty → m.Dynamic → ∃ x ∈ s.log c.conn, x.Introduces m.windowId) :
    (s.write c.conn m payload result).Streams geometry outputs
      fun j => j = i ∧ ∃ n, result = .failed n := by
  have before := streams.tells i c client (fun gone => gone)
  have readable : Readable geometry outputs ((s.write c.conn m payload result).log c.conn)
      (s.ports c.conn) := by
    cases result with
    | sent => simpa [SurfaceServer.write] using (before.record accepts).readable
    | wouldBlock => exact streams.readable c.conn
    | failed n => simpa [SurfaceServer.write] using before.torn (.inr ⟨_, accepts⟩) n
  have written := streams.wrote client told readable
  refine { written with tells := fun j c' client' kept => ?_ }
  by_cases same : j = i
  · subst same
    rw [write_clients, client] at client'
    cases client'
    cases result with
    | sent =>
      have view : (s.write c.conn m payload .sent).viewOf j c = s.viewAfter j c m := by
        simp [viewAfter, viewOf, SurfaceServer.write, lastShown, heldBy]
      rw [view]
      simpa [SurfaceServer.write] using before.record accepts
    | wouldBlock => exact before
    | failed n => exact absurd ⟨rfl, n, rfl⟩ kept
  · exact written.tells j c' client' same

theorem Streams.sendRecord (streams : s.Streams geometry outputs fun _ => False)
    (client : s.clients i = some c)
    (accepts : (s.viewOf i c).Accepts outputs m payload [] (s.viewAfter i c m))
    (result : SendResult)
    (told : m.type = msgDirty → m.Dynamic → ∃ x ∈ s.log c.conn, x.Introduces m.windowId) :
    (s.sendRecord i c m payload result).Streams geometry outputs fun _ => False := by
  have written := streams.write client accepts result told
  unfold SurfaceServer.sendRecord
  cases result with
  | sent => simpa using written
  | wouldBlock => simpa using written
  | failed n => exact written.dropClient fun j gone => gone.1

theorem Streams.mono (streams : s.Streams geometry outputs left) (more : ∀ j, left j → left' j) :
    s.Streams geometry outputs left' :=
  { streams with tells := fun i c client kept =>
      streams.tells i c client fun gone => kept (more i gone) }

variable {id : BitVec 32}

theorem isOutput_of_findOutputIndex {index : Nat} (found : s.findOutputIndex id = some index) :
    isOutput s.queue.count id = true := by
  have some : (s.findOutputIndex id).isSome = true := by rw [found]; rfl
  unfold findOutputIndex at some
  rwa [List.isSome_find?] at some

theorem eventValue_halves (eventValue : BitVec 64) :
    (eventValue.extractLsb' 32 32 ++ eventValue.extractLsb' 0 32 : BitVec 64) = eventValue :=
  BitVec.extractLsb'_append_extractLsb'_eq_extractLsb' (by rfl) |>.trans
    BitVec.extractLsb'_eq_self

variable {token : List UInt8} {eventValue : BitVec 64}

theorem Streams.announce (streams : s.Streams geometry outputs fun _ => False)
    (client : s.clients i = some c) (few : outputs ≤ outputQueueMaxBuffers)
    (known : isOutput outputs id = true ∨ id ∈ s.heldBy i)
    (size : token.length = gpuFenceTokenSize) (seq : BitVec 64) (value : eventValue ≠ 0#64)
    (result : SendResult) :
    (s.sendRecord i c (dirtyMsg id seq eventValue) token result).Streams geometry outputs
      fun _ => False := by
  have announces : (s.viewOf i c).Announces outputs (dirtyMsg id seq eventValue) := by
    refine ⟨rfl, rfl, known, rfl, ?_⟩
    simp only [dirtyMsg]
    rwa [eventValue_halves]
  refine streams.sendRecord client (announces.accepts size) result ?_
  intro _ dynamic
  rcases known with output | held
  · exact absurd dynamic (static_of_isOutput few output)
  · -- The surface was introduced when it was marked.
    obtain ⟨k, e, entry, marked, named⟩ := mem_heldBy.mp held
    obtain ⟨i', place, c', client', -, written⟩ := streams.sound.introduced k e entry i marked
    have same : i' = i := Fin.ext place
    rw [same, client] at client'
    cases client'
    exact ⟨_, written, rfl, named⟩

theorem viewAfter_pointer (pointer : m.type ≠ msgDirty) : s.viewAfter i c m = s.viewOf i c := by
  simp [viewAfter, pointer]

theorem Streams.notifyCursor (streams : s.Streams geometry outputs fun _ => False)
    (x y shape : BitVec 32) (visible : Bool) (plan : Fin maxClients → SendPlan) :
    (s.notifyCursor x y shape visible plan).Streams geometry outputs fun _ => False := by
  refine foldl_clients (Streams geometry outputs fun _ => False) streams ?_ _
  intro s i streams
  split
  · exact streams
  · rename_i c client
    have pointer : msgCursor ≠ msgDirty := by decide
    refine streams.sendRecord client ?_ _ fun dirty => absurd dirty pointer
    rw [viewAfter_pointer pointer]
    exact StreamView.accepts_of_points ⟨rfl, .inl rfl, rfl⟩ outputs _

theorem draws_cursorImageMsg {width height : BitVec 32} (hotX hotY : BitVec 32)
    (across : 0 < width.toInt) (down : 0 < height.toInt) (narrow : width.toNat ≤ cursorImageMax)
    (low : height.toNat ≤ cursorImageMax) :
    (cursorImageMsg width height hotX hotY (width.toNat * height.toNat * 4)).Draws ∧
      (cursorImageMsg width height hotX hotY (width.toNat * height.toNat * 4)).length.toNat =
        width.toNat * height.toNat * 4 := by
  have bounded : width.toNat * height.toNat ≤ 128 * 128 := Nat.mul_le_mul narrow low
  have limit : cursorImageMax = 128 := rfl
  have across' : width.toInt = width.toNat := BitVec.toInt_eq_toNat_of_lt (by omega)
  have down' : height.toInt = height.toNat := BitVec.toInt_eq_toNat_of_lt (by omega)
  have area : 0 < width.toNat * height.toNat := Nat.mul_pos (by omega) (by omega)
  have length : (BitVec.ofNat 32 (width.toNat * height.toNat * 4)).toNat =
      width.toNat * height.toNat * 4 := by
    rw [BitVec.toNat_ofNat, Nat.mod_eq_of_lt (by omega)]
  refine ⟨⟨rfl, rfl, across, down, ?_, ?_, ?_, ?_⟩, length⟩
  · simp only [cursorImageMsg]
    omega
  · simp only [cursorImageMsg]
    omega
  · apply BitVec.eq_of_toNat_eq
    simp only [cursorImageMsg, length, BitVec.toNat_mul, BitVec.toNat_ofNat]
    rw [Nat.mod_eq_of_lt (show width.toNat * height.toNat < 2 ^ 32 by omega),
      Nat.mod_eq_of_lt (show (4 : Nat) < 2 ^ 32 by omega), Nat.mod_eq_of_lt (by omega)]
  · simp only [cursorImageMsg, length]
    omega

variable {plan : Fin maxClients → SendPlan}

theorem Streams.notifyCursorImage (streams : s.Streams geometry outputs fun _ => False)
    {bgra : Option (List UInt8)} {width height hotX hotY : BitVec 32}
    (allowed : Allowed (.cursorImage bgra width height hotX hotY plan)) :
    (s.notifyCursorImage bgra width height hotX hotY plan).Streams geometry outputs
      fun _ => False := by
  have pointer : msgCursorImage ≠ msgDirty := by decide
  unfold SurfaceServer.notifyCursorImage
  simp only
  split
  · exact streams
  · rename_i accepted
    refine foldl_clients (Streams geometry outputs fun _ => False) streams ?_ _
    intro s i streams
    split
    · exact streams
    · rename_i c client
      by_cases shown : bgra.isSome = true ∧ 0 < width.toInt ∧ 0 < height.toInt
      · obtain ⟨pixels, present⟩ := Option.isSome_iff_exists.mp shown.1
        subst present
        have enough : width.toNat * height.toNat * 4 ≤ pixels.length := allowed
        simp only [shown, and_self, true_and, not_or, Nat.not_lt] at accepted
        obtain ⟨draws, size⟩ :=
          draws_cursorImageMsg hotX hotY shown.2.1 shown.2.2 accepted.1 accepted.2
        simp only [shown, and_self, if_true]
        refine streams.sendRecord client ?_ _ fun dirty => absurd dirty pointer
        rw [viewAfter_pointer pointer]
        refine StreamView.accepts_of_draws draws outputs _ ?_
        rw [size, List.length_take, Option.getD_some]
        omega
      · simp only [shown, if_false, List.take_zero]
        refine streams.sendRecord client ?_ _ fun dirty => absurd dirty pointer
        rw [viewAfter_pointer pointer]
        exact StreamView.accepts_of_points ⟨rfl, .inr rfl, rfl⟩ outputs _

variable {e : StreamSurface}

theorem introduces_surfaceMsg {v : StreamView}
    (registered : e.geometry = geometry e.surface ∧ e.flags &&& ~~~surfaceFlagFlipY = 0#32)
    (positive : (geometry e.surface).Positive) (dynamic : dynamicSurfaceIdBase ≤ e.id)
    (room : v.Room outputs e.id) : v.Introduces outputs (surfaceMsg e) := by
  rw [← registered.1] at positive
  exact ⟨rfl, rfl, dynamic, rfl, positive.1, positive.2.1, positive.2.2, registered.2, room⟩

theorem Streams.lost_port (streams : s.Streams geometry outputs fun _ => False)
    (client : s.clients i = some c) (e : StreamSurface) {result : SendResult}
    (incomplete : result ≠ .sent) :
    ((s.deliverPort c.conn e.surface).write c.conn (surfaceMsg e) [] result).Streams geometry
      outputs fun j => j = i := by
  have before := streams.tells i c client (fun gone => gone)
  have sound := (streams.sound.deliverPort c.conn e.surface).write client [] result
    (m := surfaceMsg e) fun dirty => absurd dirty (surfaceMsg_not_dirty e)
  have numbered := streams.sound.numbered i c client
  refine streams.of_shrinks ?_ sound ?_ (by simp [SurfaceServer.deliverPort]) ?_ ?_ ?_
  · intro k e' entry
    rw [write_streams] at entry
    exact ⟨e', entry, rfl, rfl, rfl, rfl, fun _ => id⟩
  · exact streams.exclusive.of_fewer fun j c' client' => by rwa [write_clients] at client'
  · intro conn unused
    have unused' : s.conns ≤ conn := by simpa [SurfaceServer.deliverPort] using unused
    have other : conn ≠ c.conn := by omega
    simpa [SurfaceServer.deliverPort, other] using streams.unsent conn unused'
  · intro conn
    rw [write_ports]
    by_cases same : conn = c.conn
    · subst same
      cases result with
      | sent => exact absurd rfl incomplete
      | wouldBlock =>
        simpa [SurfaceServer.write, SurfaceServer.deliverPort] using before.readable.port e.surface
      | failed n =>
        have torn := (before.torn (m := surfaceMsg e) (.inl rfl) n).port e.surface
        simpa [SurfaceServer.write, SurfaceServer.deliverPort] using torn
    · rw [log_write_other _ _ _ same]
      simpa [SurfaceServer.deliverPort, same] using streams.readable conn
  · intro j c' client' kept
    rw [write_clients] at client'
    have other : c'.conn ≠ c.conn := fun equal =>
      kept (streams.sound.apart j i c' c client' client equal)
    have told' := streams.tells j c' client' (fun gone => gone)
    unfold viewOf at told' ⊢
    rw [write_heldBy, log_write_other _ _ _ other, write_ports]
    simpa [SurfaceServer.deliverPort, other, heldBy] using told'

def mark (s : SurfaceServer) (i : Fin maxClients) (k : Fin maxStreamSurfaces) (e : StreamSurface) :
    SurfaceServer :=
  s.setStream k (some { e with sentClients := e.sentClients ||| Mask.bit 32 i })

theorem mark_streams (entry : s.streams k = some e) {k' : Fin maxStreamSurfaces}
    {e' : StreamSurface} (entry' : (s.mark i k e).streams k' = some e') :
    ∃ e₀, s.streams k' = some e₀ ∧ e'.surface = e₀.surface ∧ e'.id = e₀.id ∧
      e'.flags = e₀.flags ∧ e'.geometry = e₀.geometry ∧ ∀ j, Mask.has e'.sentClients j = true ↔
        Mask.has e₀.sentClients j = true ∨ k' = k ∧ j = i := by
  have inside : (i : Nat) < 32 := i.isLt.trans (by decide)
  by_cases here : k' = k
  · subst here
    simp only [mark, SurfaceServer.setStream, Function.update_self, Option.some.injEq] at entry'
    subst entry'
    refine ⟨e, entry, rfl, rfl, rfl, rfl, fun j => ?_⟩
    simp only [Mask.has_or, Bool.or_eq_true, Mask.has_bit, Bool.and_eq_true, decide_eq_true_eq,
      true_and]
    constructor
    · rintro (marked | ⟨-, place⟩)
      · exact .inl marked
      · exact .inr place
    · rintro (marked | place)
      · exact .inl marked
      · exact .inr ⟨place ▸ inside, place⟩
  · simp only [mark, SurfaceServer.setStream, Function.update_of_ne here] at entry'
    exact ⟨e', entry', rfl, rfl, rfl, rfl, fun j => by simp [here]⟩

theorem mark_heldBy (entry : s.streams k = some e) (j : Fin maxClients) :
    (s.mark i k e).heldBy j = if j = i then insert e.id (s.heldBy j) else s.heldBy j := by
  have inside : (i : Nat) < 32 := i.isLt.trans (by decide)
  have new : (s.mark i k e).streams k =
      some { e with sentClients := e.sentClients ||| Mask.bit 32 i } := by
    simp [mark, SurfaceServer.setStream]
  have there : ∀ id, id ∈ (s.mark i k e).heldBy j ↔ id ∈ s.heldBy j ∨ j = i ∧ id = e.id := by
    intro id
    rw [mem_heldBy, mem_heldBy]
    constructor
    · rintro ⟨k', e', entry', marked, named⟩
      obtain ⟨e₀, entry₀, -, id₀, -, -, marks⟩ := mark_streams entry entry'
      rcases (marks j).mp marked with marked | ⟨here, place⟩
      · exact .inl ⟨k', e₀, entry₀, marked, by rw [← id₀, named]⟩
      · rw [here, entry] at entry₀
        cases entry₀
        exact .inr ⟨Fin.ext place, by rw [← named, id₀]⟩
    · rintro (⟨k', e₀, entry₀, marked, named⟩ | ⟨place, named⟩)
      · by_cases here : k' = k
        · rw [here, entry] at entry₀
          cases entry₀
          exact ⟨k, _, new, by simp [marked], named⟩
        · exact ⟨k', e₀, by simpa [mark, SurfaceServer.setStream, here] using entry₀, marked, named⟩
      · exact ⟨k, _, new, by simp [place, inside], named.symm⟩
  ext id
  rw [there]
  split
  · rename_i place
    simp only [place, true_and, Finset.mem_insert]
    exact or_comm
  · rename_i place
    simp [place]

theorem Distinct.mark (distinct : s.Distinct) (entry : s.streams k = some e)
    (fresh : e.id ∉ s.heldBy i) : (s.mark i k e).Distinct := by
  intro k₁ k₂ e₁' e₂' j entry₁ entry₂ marked₁ marked₂ equal
  obtain ⟨e₁, entry₁, -, id₁, -, -, marks₁⟩ := mark_streams entry entry₁
  obtain ⟨e₂, entry₂, -, id₂, -, -, marks₂⟩ := mark_streams entry entry₂
  rw [id₁, id₂] at equal
  rcases (marks₁ j).mp marked₁ with marked₁ | ⟨here₁, place₁⟩
  · rcases (marks₂ j).mp marked₂ with marked₂ | ⟨here₂, place₂⟩
    · exact distinct k₁ k₂ e₁ e₂ j entry₁ entry₂ marked₁ marked₂ equal
    · rw [here₂, entry] at entry₂
      cases entry₂
      exact absurd (mem_heldBy.mpr ⟨k₁, e₁, entry₁, place₂ ▸ marked₁, equal⟩) fresh
  · rcases (marks₂ j).mp marked₂ with marked₂ | ⟨here₂, place₂⟩
    · rw [here₁, entry] at entry₁
      cases entry₁
      exact absurd (mem_heldBy.mpr ⟨k₂, e₂, entry₂, place₁ ▸ marked₂, equal.symm⟩) fresh
    · rw [here₁, here₂]

def introducedTo (s : SurfaceServer) (i : Fin maxClients) (c : AppClient)
    (k : Fin maxStreamSurfaces) (e : StreamSurface) : SurfaceServer :=
  ((s.deliverPort c.conn e.surface).write c.conn (surfaceMsg e) [] .sent).mark i k e

/-- A surface that is introduced can be followed by the app from then on. -/
theorem Streams.introducedTo (streams : s.Streams geometry outputs fun _ => False)
    (client : s.clients i = some c) (entry : s.streams k = some e)
    (positive : (geometry e.surface).Positive) (room : (s.viewOf i c).Room outputs e.id)
    (sound : (s.introducedTo i c k e).Sound) :
    (s.introducedTo i c k e).Streams geometry outputs fun _ => False := by
  have before := streams.tells i c client (fun gone => gone)
  have registered := streams.registered k e entry
  have introduces := introduces_surfaceMsg registered positive (streams.sound.dynamic k e entry) room
  have told := before.introduce introduces (congrArg id registered.1)
  have numbered := streams.sound.numbered i c client
  have clients : (s.introducedTo i c k e).clients = s.clients := by
    simp [SurfaceServer.introducedTo, mark, SurfaceServer.setStream, SurfaceServer.deliverPort]
  have entry' : ((s.deliverPort c.conn e.surface).write c.conn (surfaceMsg e) [] .sent).streams k =
      some e := by
    rw [write_streams]
    exact entry
  have held : ∀ j, (s.introducedTo i c k e).heldBy j =
      if j = i then insert e.id (s.heldBy j) else s.heldBy j := by
    intro j
    rw [SurfaceServer.introducedTo, mark_heldBy entry', write_heldBy]
    rfl
  have log : (s.introducedTo i c k e).log =
      Function.update s.log c.conn (.record (surfaceMsg e) [] :: s.log c.conn) := rfl
  have ports : (s.introducedTo i c k e).ports =
      Function.update s.ports c.conn (e.surface :: s.ports c.conn) := by
    simp [SurfaceServer.introducedTo, mark, SurfaceServer.setStream, SurfaceServer.deliverPort]
  refine ⟨sound, ?_, ?_, ?_, ?_, ?_, ?_, ?_⟩
  · exact streams.exclusive.of_fewer fun j c' client' => by rwa [← clients]
  · simpa [SurfaceServer.introducedTo, mark, SurfaceServer.setStream, SurfaceServer.deliverPort]
      using streams.count
  · intro k' e' entry₁
    obtain ⟨e₀, entry₀, surface, -, flags, geometry', -⟩ := mark_streams entry' entry₁
    rw [write_streams] at entry₀
    rw [geometry', surface, flags]
    exact streams.registered k' e₀ entry₀
  · refine Distinct.mark ?_ entry' (by rw [write_heldBy]; exact room.1)
    unfold Distinct
    rw [write_streams]
    exact streams.distinct
  · intro conn unused
    have unused' : s.conns ≤ conn := unused
    rw [ports, Function.update_of_ne (by omega)]
    exact streams.unsent conn unused'
  · intro conn
    rw [log, ports]
    by_cases same : conn = c.conn
    · subst same
      simpa using told.readable
    · rw [Function.update_of_ne same, Function.update_of_ne same]
      exact streams.readable conn
  · intro j c' client' _
    rw [clients] at client'
    unfold viewOf
    rw [held, log, ports]
    by_cases same : j = i
    · subst same
      rw [client] at client'
      cases client'
      have named : (surfaceMsg e).windowId = e.id := rfl
      simpa [lastShown, surfaceMsg_not_dirty, viewOf, named] using told
    · have other : c'.conn ≠ c.conn := fun equal =>
        same (streams.sound.apart j i c' c client' client equal)
      rw [Function.update_of_ne other, Function.update_of_ne other, if_neg same]
      exact streams.tells j c' client' (fun gone => gone)

theorem Streams.sendStreamSurface (positive : ∀ surface, (geometry surface).Positive)
    (streams : s.Streams geometry outputs fun _ => False)
    (client : s.clients i = some c) (streamV2 : c.streamV2 = true) (entry : s.streams k = some e) {plan : SendPlan}
    (room : Mask.has e.sentClients i = false → plan.port = true → plan.surface = .sent →
      (s.viewOf i c).Room outputs e.id) :
    ((s.sendStreamSurface i k plan).1 = true ∧
        (s.sendStreamSurface i k plan).2.Streams geometry outputs (fun _ => False) ∧
        e.id ∈ (s.sendStreamSurface i k plan).2.heldBy i) ∨
      ((s.sendStreamSurface i k plan).1 = false ∧
        (s.sendStreamSurface i k plan).2.Streams geometry outputs fun j => j = i) := by
  have sound := (streams.sound.sendStreamSurface client k plan).1
  unfold SurfaceServer.sendStreamSurface at sound ⊢
  simp only [client, entry, streamV2, Bool.true_eq_false, if_false] at sound ⊢
  cases marked : Mask.has e.sentClients i with
  | true =>
    simp only [if_true]
    exact .inl ⟨trivial, streams, mem_heldBy.mpr ⟨k, e, entry, marked, rfl⟩⟩
  | false =>
    simp only [marked, Bool.false_eq_true, if_false] at sound ⊢
    cases port : plan.port with
    | false =>
      simp only [if_true]
      exact .inr ⟨trivial, streams.mono fun _ gone => gone.elim⟩
    | true =>
      simp only [port, Bool.true_eq_false, if_false] at sound ⊢
      by_cases worked : plan.surface = .sent
      · simp only [worked, if_true] at sound ⊢
        refine .inl ⟨trivial, ?_, ?_⟩
        · exact streams.introducedTo client entry (positive e.surface) (room marked port worked) sound
        · have inside : (i : Nat) < 32 := i.isLt.trans (by decide)
          exact mem_heldBy.mpr ⟨k, { e with sentClients := e.sentClients ||| Mask.bit 32 i },
            by simp [SurfaceServer.setStream], by simp [inside], rfl⟩
      · simp only [worked, if_false]
        exact .inr ⟨trivial, streams.lost_port client e worked⟩

theorem Streams.notifyOutput (streams : s.Streams geometry outputs fun _ => False)
    (few : outputs ≤ outputQueueMaxBuffers) (output : isOutput outputs id = true)
    (size : token.length = gpuFenceTokenSize) (seq : BitVec 64) (value : eventValue ≠ 0#64)
    (plan : Fin maxClients → SendPlan) (delivered : BitVec 32) (i : Fin maxClients) :
    (notifyClient id none (dirtyMsg id seq eventValue) token plan (delivered, s) i).2.Streams
      geometry outputs fun _ => False := by
  unfold notifyClient
  cases client : s.clients i with
  | none => simpa [client] using streams
  | some c =>
    simp only [client, introduce, Bool.true_eq_false, if_false]
    split
    · exact streams
    · exact streams.announce client few (.inl output) size seq value (plan i).record

theorem Streams.notifyStream (positive : ∀ surface, (geometry surface).Positive)
    (streams : s.Streams geometry outputs fun _ => False) (few : outputs ≤ outputQueueMaxBuffers) (client : s.clients i = some c)
    (streamV2 : c.streamV2 = true)
    (entry : s.streams k = some e)
    (room : Mask.has e.sentClients i = false → (plan i).port = true → (plan i).surface = .sent →
      (s.viewOf i c).Room outputs e.id)
    (size : token.length = gpuFenceTokenSize) (seq : BitVec 64)
    (value : eventValue ≠ 0#64) (delivered : BitVec 32) :
    (notifyClient e.id (some k) (dirtyMsg e.id seq eventValue) token plan (delivered, s) i).2.Streams
      geometry outputs fun _ => False := by
  have equal : (notifyClient e.id (some k) (dirtyMsg e.id seq eventValue) token plan
      (delivered, s) i).2 = if (s.sendStreamSurface i k (plan i)).1 = false then
      (s.sendStreamSurface i k (plan i)).2.dropClient i
    else (s.sendStreamSurface i k (plan i)).2.sendRecord i c (dirtyMsg e.id seq eventValue) token
      (plan i).record := by
    simp only [notifyClient, introduce, client, streamV2, Bool.true_eq_false, false_and, if_false]
    exact apply_ite Prod.snd _ _ _
  rw [equal]
  rcases streams.sendStreamSurface positive client streamV2 entry room with
    ⟨worked, after, held⟩ | ⟨failed, after⟩
  · rw [worked, if_neg (by simp)]
    have client' : (s.sendStreamSurface i k (plan i)).2.clients i = some c := by
      rw [sendStreamSurface_clients]
      exact client
    exact after.announce client' few (.inr held) size seq value (plan i).record
  · rw [if_pos failed]
    exact after.dropClient fun j gone => gone

theorem findTarget_output {index : Nat} (found : s.findTarget id = some (.output index)) :
    s.findOutputIndex id = some index := by
  unfold findTarget at found
  split at found
  · rename_i output
    cases found
    exact output
  · obtain ⟨k, -, same⟩ := Option.map_eq_some_iff.mp found
    cases same

theorem announce_unheard (nobody : ∀ i c, s.clients i = some c → c.streamV2 = false)
    (dynamic : dynamicSurfaceIdBase ≤ id) {target : FrameTarget} {seq : BitVec 64} :
    s.announce id target seq token eventValue plan = (0#32, { s with dirtySeq := seq }) := by
  have other : id ≠ primarySurfaceId := by
    rintro rfl
    exact absurd dynamic (by decide)
  unfold announce
  refine foldl_clients (fun told : BitVec 32 × SurfaceServer =>
    told = (0#32, { s with dirtySeq := seq })) rfl ?_ _
  intro told i same
  subst same
  unfold notifyClient
  simp only
  cases client : s.clients i with
  | none => rfl
  | some c => simp [nobody i c client, other]

/-- A frame of an introduced surface can be followed by every app. -/
theorem Streams.notifyDirty (positive : ∀ surface, (geometry surface).Positive)
    (streams : s.Streams geometry outputs fun _ => False) (few : outputs ≤ outputQueueMaxBuffers)
    (fits : s.Fits (.dirty id token eventValue plan)) :
    (s.notifyDirty id token eventValue plan).Streams geometry outputs fun _ => False := by
  have sound := streams.sound.notifyDirty id token eventValue plan
  unfold SurfaceServer.notifyDirty at sound ⊢
  split at sound
  · rename_i refused
    rw [if_pos refused]
    exact streams
  · rename_i accepted
    rw [if_neg accepted]
    simp only [not_or, not_not] at accepted
    obtain ⟨size, value⟩ := accepted
    have begun : Streams geometry outputs (fun _ => False)
        { s with dirtySeq := s.dirtySeq + 1#64 } :=
      streams.of_frame (streams.sound.of_eq rfl rfl rfl rfl rfl) rfl rfl (fun _ => rfl) rfl rfl rfl
    split at sound
    · exact streams
    · rename_i target found
      cases target with
      | output index =>
        have output : isOutput outputs id = true := by
          rw [← streams.count]
          exact isOutput_of_findOutputIndex (findTarget_output found)
        have told : (s.announce id (.output index) (s.dirtySeq + 1#64) token eventValue
            plan).2.Streams geometry outputs fun _ => False := by
          unfold SurfaceServer.announce
          exact foldl_clients (fun told : BitVec 32 × SurfaceServer =>
            told.2.Streams geometry outputs fun _ => False) begun
            (fun told i streams => streams.notifyOutput few output size _ value plan told.1 i) _
        exact told.of_frame sound rfl (by simp) (fun _ => rfl) rfl rfl rfl
      | stream k =>
        obtain ⟨e, entry, named⟩ := findStreamSurface_some (findTarget_stream found)
        subst named
        have told : (s.announce e.id (.stream k) (s.dirtySeq + 1#64) token eventValue
            plan).2.Streams geometry outputs fun _ => False := by
          by_cases someone : ∃ i c, s.clients i = some c ∧ c.streamV2 = true
          · obtain ⟨i, c, client, streamV2⟩ := someone
            rw [announce_single fun j other => streams.exclusive.alone client streamV2 other]
            refine begun.notifyStream positive few client streamV2 entry ?_ size _ value 0#32
            intro unmarked port sent
            rw [← streams.count]
            exact fits size value k e i c found entry client streamV2 unmarked port sent
          · have nobody : ∀ i c, s.clients i = some c → c.streamV2 = false := by
              intro i c client
              by_contra streamV2
              exact someone ⟨i, c, client, by simpa using streamV2⟩
            rw [announce_unheard nobody (streams.sound.dynamic k e entry)]
            exact begun
        refine told.of_frame sound rfl rfl (fun k' => ?_) rfl rfl rfl
        by_cases here : k' = k
        · subst here
          simp only [SurfaceServer.setStream, Function.update_self, Option.map_map]
          rfl
        · simp [SurfaceServer.setStream, here]

theorem heldBy_remove_unmarked
    (unmarked : ∀ e, s.streams k = some e → Mask.has e.sentClients i = false) :
    (s.setStream k none).heldBy i = s.heldBy i := by
  refine heldBy_congr fun id => ⟨?_, ?_⟩
  · rintro ⟨k', e, entry, marked, named⟩
    by_cases here : k' = k
    · simp [SurfaceServer.setStream, here] at entry
    · exact ⟨k', e, by simpa [SurfaceServer.setStream, here] using entry, marked, named⟩
  · rintro ⟨k', e, entry, marked, named⟩
    by_cases here : k' = k
    · rw [here] at entry
      rw [unmarked e entry] at marked
      cases marked
    · exact ⟨k', e, by simpa [SurfaceServer.setStream, here] using entry, marked, named⟩

theorem Distinct.heldBy_remove (distinct : s.Distinct) (entry : s.streams k = some e)
    (marked : Mask.has e.sentClients i = true) :
    (s.setStream k none).heldBy i = (s.heldBy i).erase e.id := by
  ext id
  rw [Finset.mem_erase, mem_heldBy, mem_heldBy]
  constructor
  · rintro ⟨k', e', entry', marked', named⟩
    by_cases here : k' = k
    · simp [SurfaceServer.setStream, here] at entry'
    · have older : s.streams k' = some e' := by simpa [SurfaceServer.setStream, here] using entry'
      refine ⟨?_, k', e', older, marked', named⟩
      intro same
      exact here (distinct k' k e' e i older entry marked' marked (named.trans same))
  · rintro ⟨other, k', e', entry', marked', named⟩
    have here : k' ≠ k := by
      rintro rfl
      rw [entry] at entry'
      cases entry'
      exact other named.symm
    exact ⟨k', e', by simpa [SurfaceServer.setStream, here] using entry', marked', named⟩

theorem Streams.removeStream (streams : s.Streams geometry outputs left) (k : Fin maxStreamSurfaces)
    (tells : ∀ i c, s.clients i = some c → ¬left' i →
      Tells geometry outputs (s.log c.conn) (s.ports c.conn) ((s.setStream k none).viewOf i c)) :
    (s.setStream k none).Streams geometry outputs left' := by
  refine streams.of_shrinks ?_ (streams.sound.removeStream k) streams.exclusive rfl streams.unsent
    streams.readable tells
  intro k' e' entry
  by_cases here : k' = k
  · simp [SurfaceServer.setStream, here] at entry
  · exact ⟨e', by simpa [SurfaceServer.setStream, here] using entry, rfl, rfl, rfl, rfl,
      fun _ => id⟩

theorem takeBack_unmarked (unmarked : ∀ c, s.clients i = some c →
      (s.streams k).any (fun e => Mask.has e.sentClients i) = false) :
    takeBack id k plan s i = s := by
  unfold takeBack
  cases client : s.clients i with
  | none => rfl
  | some c => simp [unmarked c client]

theorem takeBack_clients {j : Fin maxClients}
    (client : (takeBack id k plan s i).clients j = some c) : s.clients j = some c := by
  unfold takeBack at client
  split at client
  · exact client
  · simp only at client
    split_ifs at client
    · simpa using client
    · simpa using (dropClient_clients.mp client).2
    · exact client

theorem Streams.takeBack (streams : s.Streams geometry outputs fun _ => False)
    (client : s.clients i = some c) (alone : ∀ j, j ≠ i → s.clients j = none)
    (entry : s.streams k = some e) (marked : Mask.has e.sentClients i = true)
    (plan : Fin maxClients → SendPlan) :
    ((takeBack e.id k plan s i).setStream k none).Streams geometry outputs fun _ => False := by
  have before := streams.tells i c client (fun gone => gone)
  have held : e.id ∈ s.heldBy i := mem_heldBy.mpr ⟨k, e, entry, marked, rfl⟩
  have takes : (s.viewOf i c).TakesBack (dropMsg e.id) := ⟨rfl, rfl, rfl, held⟩
  have after := before.record (takes.accepts outputs)
  have other : msgSurfaceDrop ≠ msgDirty := by decide
  have told : (dropMsg e.id).type = msgDirty → (dropMsg e.id).Dynamic →
      ∃ x ∈ s.log c.conn, x.Introduces (dropMsg e.id).windowId := fun dirty => absurd dirty other
  have step : SurfaceServer.takeBack e.id k plan s i = if (plan i).record = .sent then
      s.write c.conn (dropMsg e.id) [] (plan i).record
    else (s.write c.conn (dropMsg e.id) [] (plan i).record).dropClient i := by
    simp [SurfaceServer.takeBack, client, entry, marked]
  rw [step]
  cases outcome : (plan i).record with
  | sent =>
    rw [if_pos rfl]
    have written : (s.write c.conn (dropMsg e.id) [] .sent).Streams geometry outputs
        fun j => j = i :=
      streams.wrote client told (by simpa [SurfaceServer.write] using after.readable)
    refine written.removeStream k fun j c' client' _ => ?_
    -- The client that was told is the only one.
    have same : j = i := by
      by_contra different
      rw [write_clients, alone j different] at client'
      cases client'
    subst same
    rw [write_clients, client] at client'
    cases client'
    have entry' : (s.write c.conn (dropMsg e.id) [] .sent).streams k = some e := by
      rw [write_streams]
      exact entry
    unfold viewOf
    rw [written.distinct.heldBy_remove entry' marked, write_heldBy]
    have named : (dropMsg e.id).windowId = e.id := rfl
    have kind : (dropMsg e.id).type ≠ msgDirty := other
    simpa [SurfaceServer.write, SurfaceServer.setStream, lastShown, viewOf, named, kind] using after
  | wouldBlock =>
    rw [if_neg (by simp)]
    have written : (s.write c.conn (dropMsg e.id) [] .wouldBlock).Streams geometry outputs
        fun j => j = i := streams.wrote client told (streams.readable c.conn)
    refine (written.dropClient fun j gone => gone).removeStream k fun j c' client' _ => ?_
    obtain ⟨different, client'⟩ := dropClient_clients.mp client'
    rw [write_clients, alone j different] at client'
    cases client'
  | failed n =>
    rw [if_neg (by simp)]
    have torn := before.torn (m := dropMsg e.id) (.inl rfl) n
    have written : (s.write c.conn (dropMsg e.id) [] (.failed n)).Streams geometry outputs
        fun j => j = i := streams.wrote client told (by simpa [SurfaceServer.write] using torn)
    refine (written.dropClient fun j gone => gone).removeStream k fun j c' client' _ => ?_
    obtain ⟨different, client'⟩ := dropClient_clients.mp client'
    rw [write_clients, alone j different] at client'
    cases client'

/-- A surface that is taken back is dropped wherever it was introduced. -/
theorem Streams.streamUnregisterSurface (streams : s.Streams geometry outputs fun _ => False)
    (id : BitVec 32) (plan : Fin maxClients → SendPlan) :
    (s.streamUnregisterSurface id plan).Streams geometry outputs fun _ => False := by
  unfold SurfaceServer.streamUnregisterSurface
  split
  · exact streams
  · rename_i k found
    obtain ⟨e, entry, named⟩ := findStreamSurface_some found
    subst named
    by_cases someone : ∃ i c, s.clients i = some c ∧ Mask.has e.sentClients i = true
    · obtain ⟨i, c, client, marked⟩ := someone
      have streamV2 : c.streamV2 = true := by
        obtain ⟨i', place, c', client', streamV2, -⟩ := streams.sound.introduced k e entry i marked
        rw [Fin.ext place, client] at client'
        cases client'
        exact streamV2
      have alone : ∀ j, j ≠ i → s.clients j = none :=
        fun j other => streams.exclusive.alone client streamV2 other
      have single : (List.finRange maxClients).foldl (SurfaceServer.takeBack e.id k plan) s =
          SurfaceServer.takeBack e.id k plan s i := by
        refine foldl_clients_single (fun b : SurfaceServer => ∀ j, j ≠ i → b.clients j = none)
          alone ?_ ?_
        · intro b absent j other
          by_contra present
          obtain ⟨c', client'⟩ := Option.ne_none_iff_exists'.mp present
          have older := takeBack_clients client'
          rw [absent j other] at older
          cases older
        · intro b j absent other
          exact takeBack_unmarked fun c' client' => by simp [absent j other] at client'
      rw [single]
      exact streams.takeBack client alone entry marked plan
    · have unmarked : ∀ i c, s.clients i = some c → Mask.has e.sentClients i = false := by
        intro i c client
        by_contra marked
        exact someone ⟨i, c, client, by simpa using marked⟩
      have same : (List.finRange maxClients).foldl (SurfaceServer.takeBack e.id k plan) s = s := by
        refine foldl_clients (fun b => b = s) rfl ?_ _
        rintro b i rfl
        exact takeBack_unmarked fun c client => by simpa [entry] using unmarked i c client
      rw [same]
      refine streams.removeStream k fun i c client _ => ?_
      have told := streams.tells i c client (fun gone => gone)
      unfold viewOf at told ⊢
      rw [heldBy_remove_unmarked]
      · exact told
      · intro e' entry'
        rw [entry] at entry'
        cases entry'
        exact unmarked i c client

theorem heldBy_register (free : s.streams k = none) (fresh : e.sentClients = 0#32)
    (i : Fin maxClients) : (s.setStream k (some e)).heldBy i = s.heldBy i := by
  refine heldBy_congr fun id => ⟨?_, ?_⟩
  · rintro ⟨k', e', entry, marked, named⟩
    by_cases here : k' = k
    · subst here
      simp only [SurfaceServer.setStream, Function.update_self, Option.some.injEq] at entry
      rw [← entry, fresh, Mask.has_zero] at marked
      cases marked
    · exact ⟨k', e', by simpa [SurfaceServer.setStream, here] using entry, marked, named⟩
  · rintro ⟨k', e', entry, marked, named⟩
    have here : k' ≠ k := by
      rintro rfl
      rw [free] at entry
      cases entry
    exact ⟨k', e', by simpa [SurfaceServer.setStream, here] using entry, marked, named⟩

theorem Streams.streamRegisterSurface (streams : s.Streams geometry outputs fun _ => False)
    (surface : Nat) (flags : BitVec 32) :
    (streamRegisterSurface geometry s surface flags).Streams geometry outputs fun _ => False := by
  have sound := streams.sound.streamRegisterSurface geometry surface flags
  unfold SurfaceServer.streamRegisterSurface at sound ⊢
  split at sound
  · rename_i refused
    rwa [if_pos refused]
  · rename_i valid
    rw [if_neg valid]
    split at sound
    · rename_i known
      rwa [if_pos known]
    · rename_i unknown
      rw [if_neg unknown]
      split at sound
      · exact streams
      · rename_i k found
        have free : s.streams k = none := by simpa using List.find?_some found
        have entries : ∀ {e₀ : StreamSurface} {k' e'},
            (s.setStream k (some e₀)).streams k' = some e' →
              k' = k ∧ e' = e₀ ∨ s.streams k' = some e' := by
          intro e₀ k' e' entry
          by_cases here : k' = k
          · subst here
            simp only [SurfaceServer.setStream, Function.update_self, Option.some.injEq] at entry
            exact .inl ⟨rfl, entry.symm⟩
          · exact .inr (by simpa [SurfaceServer.setStream, here] using entry)
        refine ⟨sound, streams.exclusive, streams.count, ?_, ?_, streams.unsent, streams.readable, ?_⟩
        · intro k' e' entry
          rcases entries entry with ⟨-, same⟩ | older
          · rw [same]
            exact ⟨rfl, by simpa using valid⟩
          · exact streams.registered k' e' older
        · intro k₁ k₂ e₁ e₂ i entry₁ entry₂ marked₁ marked₂ equal
          rcases entries entry₁ with ⟨-, same⟩ | older₁
          · simp [same] at marked₁
          · rcases entries entry₂ with ⟨-, same⟩ | older₂
            · simp [same] at marked₂
            · exact streams.distinct k₁ k₂ e₁ e₂ i older₁ older₂ marked₁ marked₂ equal
        · intro i c client kept
          have told := streams.tells i c client kept
          unfold viewOf at told ⊢
          have held : (s.setStream k (some { surface, id := s.nextStreamSurfaceId, flags
                                             geometry := geometry surface })).heldBy i =
              s.heldBy i := heldBy_register free rfl i
          rw [← held] at told
          exact told

theorem recover_core (s : SurfaceServer) (k : Fin maxStreamSurfaces) :
    ((if s.noClients then s.recoverConsumerAfterHandshake else s).streams k).map
      StreamSurface.core = (s.streams k).map StreamSurface.core := by
  split
  · simp only [recoverConsumerAfterHandshake, Option.map_map]
    congr 1
    funext e
    simp only [Function.comp_apply]
    split <;> rfl
  · rfl

/-- A new client is told nothing yet, and can follow all that comes. -/
theorem Streams.addClient (streams : s.Streams geometry outputs fun _ => False) {fd : Nat}
    {caps generation : BitVec 32} (added : s.addClient fd caps generation = some s') :
    s'.Streams geometry outputs fun _ => False := by
  obtain ⟨-, -, ⟨i, serial, free, clients⟩, entries, log, ports, conns, count⟩ :=
    addClient_some added
  have cores : ∀ k, (s'.streams k).map StreamSurface.core =
      (s.streams k).map StreamSurface.core := by
    intro k
    rw [entries]
    exact recover_core s k
  refine streams.of_shrinks ?_ (streams.sound.addClient added) (exclusive_addClient added) count
    ?_ ?_ ?_
  · intro k e' entry
    obtain ⟨e, entry, surface, ids, flags, geometry', marks⟩ := exists_core (cores k) entry
    refine ⟨e, entry, surface, ids, flags, geometry', ?_⟩
    rw [marks]
    exact fun _ => id
  · intro conn unused
    rw [ports]
    exact streams.unsent conn (by omega)
  · rw [log, ports]
    exact streams.readable
  · intro j c client _
    rw [clients] at client
    unfold viewOf
    rw [heldBy_core cores, log, ports]
    by_cases here : j = i
    · subst here
      simp only [Function.update_self, Option.some.injEq] at client
      subst client
      have nothing : s.heldBy j = ∅ := by
        refine Finset.eq_empty_of_forall_notMem fun id member => ?_
        obtain ⟨k, e, entry, marked, -⟩ := mem_heldBy.mp member
        obtain ⟨i', place, c', client', -⟩ := streams.sound.introduced k e entry j marked
        rw [Fin.ext place, free] at client'
        cases client'
      rw [nothing, streams.sound.fresh _ (Nat.le_refl _), streams.unsent _ (Nat.le_refl _)]
      exact tells_nil geometry outputs
    · rw [Function.update_of_ne here] at client
      exact streams.tells j c client (fun gone => gone)

theorem Streams.resize (streams : s.Streams geometry outputs fun _ => False)
    (unshared : s.Unshared .resize) : s.resize.Streams geometry outputs fun _ => False := by
  have sound := streams.sound.resize unshared
  unfold SurfaceServer.resize at sound ⊢
  split at sound
  · exact streams
  · rename_i queue created
    refine streams.of_shrinks ?_ sound ?_ (OutputQueue.reset_count created) streams.unsent
      streams.readable ?_
    · exact fun k e' entry => ⟨e', entry, rfl, rfl, rfl, rfl, fun _ => id⟩
    · intro i j c client
      cases client
    · intro i c client
      cases client

theorem Streams.handleClientMsg (streams : s.Streams geometry outputs left) (i : Fin maxClients)
    (serial : BitVec 64) (m : XiosMsg) :
    (s.handleClientMsg i serial m).Streams geometry outputs left := by
  have count : ∀ seq, (s.releaseOutput i m.windowId seq).2.count = s.queue.count := by
    intro seq
    unfold releaseOutput
    split
    · simp
    · rfl
  have sound := streams.sound.handleClientMsg i serial m
  unfold SurfaceServer.handleClientMsg at sound ⊢
  split at sound
  · exact streams
  · split at sound
    · rename_i stale
      rwa [if_pos stale]
    · rename_i current
      rw [if_neg current]
      split at sound
      · rename_i released
        rw [if_pos released]
        refine streams.of_frame sound ?_ ?_ (fun k' => ?_) ?_ ?_ ?_
        all_goals unfold SurfaceServer.handleReleased; simp only
        · split_ifs
          · rfl
          · rfl
          · split <;> rfl
        · split_ifs
          · rfl
          · exact count _
          · split <;> exact count _
        · split_ifs
          · rfl
          · rfl
          · split
            · rfl
            · rename_i k _
              by_cases here : k' = k
              · subst here
                simp only [SurfaceServer.setStream, Function.update_self, Option.map_map]
                congr 1
                funext e
                simp only [Function.comp_apply]
                split <;> rfl
              · simp [SurfaceServer.setStream, here]
        · split_ifs
          · rfl
          · rfl
          · split <;> rfl
        · split_ifs
          · rfl
          · rfl
          · split <;> rfl
        · split_ifs
          · rfl
          · rfl
          · split <;> rfl
      · rename_i other
        rwa [if_neg other]

/-- Each event is harmless if the app has room for what is introduced to it. -/
theorem Streams.next (positive : ∀ surface, (geometry surface).Positive)
    (streams : s.Streams geometry outputs fun _ => False) (event : Event) (allowed : Allowed event)
    (fits : s.Fits event) : (next geometry s event).Streams geometry outputs fun _ => False := by
  have few : outputs ≤ outputQueueMaxBuffers := streams.count ▸ s.queue.bounded
  cases event with
  | handshake fd caps generation =>
    simp only [SurfaceServer.next, handleClient]
    split_ifs
    · exact streams
    · exact streams
    · cases added : s.addClient fd caps generation with
      | none => exact streams
      | some s' => exact streams.addClient added
  | readerGone i fd serial =>
    simp only [SurfaceServer.next, dropClientIdentity]
    split
    · exact streams
    · split
      · exact streams
      · exact streams.dropClient fun j gone => gone.elim
  | message i serial m => exact streams.handleClientMsg i serial m
  | resize => exact streams.resize fits
  | register surface flags => exact streams.streamRegisterSurface surface flags
  | unregister id plan => exact streams.streamUnregisterSurface id plan
  | dirty id token eventValue plan => exact streams.notifyDirty positive few fits
  | cursor x y shape visible plan => exact streams.notifyCursor x y shape visible plan
  | cursorImage bgra width height hotX hotY plan => exact streams.notifyCursorImage allowed
  | acquire =>
    simp only [SurfaceServer.next, outputAcquire]
    split
    · rename_i grant queue acquired
      exact streams.of_frame (streams.sound.of_eq rfl rfl rfl rfl rfl) rfl
        (OutputQueue.acquire_count acquired) (fun _ => rfl) rfl rfl rfl
    · exact streams
  | cancel id =>
    simp only [SurfaceServer.next, outputCancel]
    split
    · exact streams.of_frame (streams.sound.of_eq rfl rfl rfl rfl rfl) rfl (by simp) (fun _ => rfl)
        rfl rfl rfl
    · exact streams

theorem streams_start (geometry : Nat → SurfaceGeometry) (queue : OutputQueue)
    (releaseToken : Bool) :
    Streams geometry queue.count (fun _ => False) { queue, releaseToken } := by
  refine ⟨sound_start queue releaseToken, ?_, rfl, ?_, ?_, fun _ _ => rfl, ?_, ?_⟩
  · intro i j c client
    cases client
  · intro k e entry
    cases entry
  · intro k k' e e' i entry
    cases entry
  · exact fun _ => (tells_nil geometry queue.count).readable
  · intro i c client
    cases client

theorem streams_of_run (positive : ∀ surface, (geometry surface).Positive) {trace : List Event}
    (run : ((machine geometry).restrict Fits).Run trace s) :
    s.Streams geometry s.queue.count fun _ => False := by
  have some : ∃ outputs, s.Streams geometry outputs fun _ => False := by
    refine run.invariant (fun _ s => ∃ outputs, s.Streams geometry outputs fun _ => False) ?_ ?_
    · intro s begun
      obtain ⟨_, queue, releaseToken, -, same⟩ := begun
      rw [same]
      exact ⟨queue.count, streams_start geometry queue releaseToken⟩
    · rintro _ s event ⟨outputs, streams⟩ allowed
      exact ⟨outputs, streams.next positive event allowed.1 allowed.2⟩
  obtain ⟨outputs, streams⟩ := some
  rwa [streams.count]

end

end SurfaceServer

end Xios
