import Xios.Surface.Server

/-! No client is told of a frame of a surface that was not introduced to it. -/

namespace Xios

/-- A record names a client surface. -/
def XiosMsg.Dynamic (m : XiosMsg) : Prop :=
  dynamicSurfaceIdBase ≤ m.windowId

/-- A record with the given id introduces a surface. -/
def Sent.Introduces (id : BitVec 32) : Sent → Prop
  | .record m _ => m.type = msgSurface ∧ m.windowId = id
  | .torn _ => False

/-- Every announced client surface was introduced before. -/
def InOrder : List Sent → Prop
  | [] => True
  | .record m _ :: earlier =>
    (m.type = msgDirty → m.Dynamic → ∃ x ∈ earlier, x.Introduces m.windowId) ∧ InOrder earlier
  | .torn _ :: earlier => InOrder earlier

theorem InOrder.introduced {log later earlier : List Sent} {m : XiosMsg} {payload : List UInt8}
    (inOrder : InOrder log) (split : log = later ++ .record m payload :: earlier)
    (dirty : m.type = msgDirty) (dynamic : m.Dynamic) :
    ∃ x ∈ earlier, x.Introduces m.windowId := by
  -- The induction is on what was written later.
  subst split
  induction later with
  | nil => exact inOrder.1 dirty dynamic
  | cons x rest ih =>
    cases x with
    | record _ _ => exact ih inOrder.2
    | torn _ => exact ih inOrder

namespace SurfaceServer

/-- The introduction of a client surface was written to a client that is still connected. -/
def IntroducedTo (s : SurfaceServer) (e : StreamSurface) (j : Nat) : Prop :=
  ∃ i : Fin maxClients, (i : Nat) = j ∧ ∃ c, s.clients i = some c ∧ c.streamV2 = true ∧
    .record (surfaceMsg e) [] ∈ s.log c.conn

/-- What the server maintains as long as it is resized at the right time. -/
structure Sound (s : SurfaceServer) : Prop where
  -- Nothing was written to connections that do not exist yet.
  fresh : ∀ conn, s.conns ≤ conn → s.log conn = []
  numbered : ∀ i c, s.clients i = some c → c.conn < s.conns
  -- No two clients share a connection.
  apart : ∀ i j c c', s.clients i = some c → s.clients j = some c' → c.conn = c'.conn → i = j
  -- A mark for a place means that the client there was told of the surface.
  introduced : ∀ k e, s.streams k = some e → ∀ j, Mask.has e.sentClients j = true →
    s.IntroducedTo e j
  -- Client surfaces have ids of their own.
  dynamic : ∀ k e, s.streams k = some e → dynamicSurfaceIdBase ≤ e.id
  -- The next client surface will have one, too.
  nextDynamic : dynamicSurfaceIdBase ≤ s.nextStreamSurfaceId
  -- Every connection was told of surfaces before their frames.
  inOrder : ∀ conn, InOrder (s.log conn)

/-- The outputs are replaced only while no client was told of any client surface. -/
def Unshared (s : SurfaceServer) : Event → Prop
  | .resize => ∀ k e, s.streams k = some e → e.sentClients = 0#32
  | _ => True

variable {s : SurfaceServer} {id : BitVec 32}

theorem findOutputIndex_static {index : Nat} (found : s.findOutputIndex id = some index) :
    ¬dynamicSurfaceIdBase ≤ id := by
  have member := List.mem_of_find?_eq_some found
  have named := List.find?_some found
  have bounded : s.queue.count ≤ 3 := s.queue.bounded
  simp only [List.mem_range] at member
  simp only [decide_eq_true_eq] at named
  have small : index < 3 := by omega
  rw [← named, BitVec.le_def]
  simp only [primarySurfaceId, dynamicSurfaceIdBase, BitVec.toNat_add, BitVec.toNat_ofNat]
  omega

variable {k : Fin maxStreamSurfaces}

theorem findStreamSurface_some (found : s.findStreamSurface id = some k) :
    ∃ e, s.streams k = some e ∧ e.id = id := by
  have named := List.find?_some found
  cases entry : s.streams k with
  | none => simp [entry] at named
  | some e => exact ⟨e, rfl, by simpa [entry] using named⟩

variable {s' : SurfaceServer}

theorem Sound.of_eq (sound : s.Sound) (clients : s'.clients = s.clients)
    (streams : s'.streams = s.streams) (conns : s'.conns = s.conns) (log : s'.log = s.log)
    (ids : s'.nextStreamSurfaceId = s.nextStreamSurfaceId) : s'.Sound := by
  obtain ⟨fresh, numbered, apart, introduced, dynamic, nextDynamic, inOrder⟩ := sound
  refine ⟨?_, ?_, ?_, ?_, ?_, ?_, ?_⟩
  · rwa [conns, log]
  · rwa [conns, clients]
  · rwa [clients]
  · unfold IntroducedTo
    rwa [streams, clients, log]
  · rwa [streams]
  · rwa [ids]
  · rwa [log]

variable {m : XiosMsg}

variable {conn conn' : Nat}

theorem mem_log_write {payload : List UInt8} (result : SendResult) {x : Sent}
    (member : x ∈ s.log conn') : x ∈ (s.write conn m payload result).log conn' := by
  unfold write
  by_cases same : conn' = conn
  · subst same
    cases result <;> simp [member]
  · cases result <;> simp [same, member]

theorem log_write_other (m : XiosMsg) (payload : List UInt8) (result : SendResult)
    (other : conn' ≠ conn) : (s.write conn m payload result).log conn' = s.log conn' := by
  unfold write
  cases result <;> simp [other]

@[simp]
theorem write_clients (s : SurfaceServer) (conn : Nat) (m : XiosMsg) (payload : List UInt8)
    (result : SendResult) : (s.write conn m payload result).clients = s.clients := by
  unfold write
  cases result <;> rfl

@[simp]
theorem write_streams (s : SurfaceServer) (conn : Nat) (m : XiosMsg) (payload : List UInt8)
    (result : SendResult) : (s.write conn m payload result).streams = s.streams := by
  unfold write
  cases result <;> rfl

@[simp]
theorem write_conns (s : SurfaceServer) (conn : Nat) (m : XiosMsg) (payload : List UInt8)
    (result : SendResult) : (s.write conn m payload result).conns = s.conns := by
  unfold write
  cases result <;> rfl

@[simp]
theorem write_nextStreamSurfaceId (s : SurfaceServer) (conn : Nat) (m : XiosMsg)
    (payload : List UInt8) (result : SendResult) :
    (s.write conn m payload result).nextStreamSurfaceId = s.nextStreamSurfaceId := by
  unfold write
  cases result <;> rfl

variable {i : Fin maxClients} {c : AppClient}

theorem Sound.write (sound : s.Sound) (client : s.clients i = some c) (payload : List UInt8)
    (result : SendResult)
    (told : m.type = msgDirty → m.Dynamic → ∃ x ∈ s.log c.conn, x.Introduces m.windowId) :
    (s.write c.conn m payload result).Sound := by
  refine ⟨?_, ?_, ?_, ?_, ?_, ?_, ?_⟩
  · intro conn unused
    rw [write_conns] at unused
    have numbered := sound.numbered i c client
    rw [log_write_other m payload result (by omega)]
    exact sound.fresh conn unused
  · intro j c' client'
    rw [write_clients] at client'
    rw [write_conns]
    exact sound.numbered j c' client'
  · intro j j' c' c'' client' client''
    rw [write_clients] at client' client''
    exact sound.apart j j' c' c'' client' client''
  · intro k e entry j marked
    rw [write_streams] at entry
    obtain ⟨i', place, c', client', streamV2, written⟩ := sound.introduced k e entry j marked
    exact ⟨i', place, c', by rw [write_clients]; exact client', streamV2,
      mem_log_write result written⟩
  · rw [write_streams]
    exact sound.dynamic
  · rw [write_nextStreamSurfaceId]
    exact sound.nextDynamic
  · intro conn
    by_cases same : conn = c.conn
    · -- The new record is the only one that has not been checked.
      subst same
      have before := sound.inOrder c.conn
      cases result with
      | sent => simpa [SurfaceServer.write, InOrder] using ⟨told, before⟩
      | wouldBlock => exact before
      | failed written => simpa [SurfaceServer.write, InOrder] using before
    · rw [log_write_other m payload result same]
      exact sound.inOrder conn

theorem Sound.deliverPort (sound : s.Sound) (conn surface : Nat) :
    (s.deliverPort conn surface).Sound :=
  sound.of_eq rfl rfl rfl rfl rfl

theorem dropClient_streams {e' : StreamSurface} (entry : (s.dropClient i).streams k = some e') :
    ∃ e, s.streams k = some e ∧ surfaceMsg e' = surfaceMsg e ∧ e'.id = e.id ∧
      ∀ j, Mask.has e'.sentClients j = true → Mask.has e.sentClients j = true ∧
        ((s.clients i).isSome = true → j ≠ i) := by
  unfold dropClient at entry
  split at entry
  · rename_i absent
    refine ⟨e', entry, rfl, rfl, ?_⟩
    intro j marked
    refine ⟨marked, fun present => ?_⟩
    rw [Option.isSome_iff_ne_none] at present
    exact absurd (by simpa using absent) present
  · simp only [clearClientPending, Option.map_eq_some_iff] at entry
    obtain ⟨e, entry, same⟩ := entry
    subst same
    refine ⟨e, entry, rfl, rfl, ?_⟩
    intro j marked
    simp only [Mask.has_erase, Bool.and_eq_true, Bool.not_eq_true', decide_eq_false_iff_not]
      at marked
    exact ⟨marked.1, fun _ => marked.2⟩

theorem dropClient_clients {j : Fin maxClients} :
    (s.dropClient i).clients j = some c ↔ j ≠ i ∧ s.clients j = some c := by
  unfold dropClient
  split
  · rename_i absent
    constructor
    · intro client
      refine ⟨?_, client⟩
      intro same
      rw [same] at client
      simp [client] at absent
    · exact fun client => client.2
  · simp only [clearClientPending]
    by_cases same : j = i
    · simp [same]
    · simp [same]

@[simp]
theorem dropClient_log (s : SurfaceServer) (i : Fin maxClients) :
    (s.dropClient i).log = s.log := by
  unfold dropClient
  split <;> rfl

@[simp]
theorem dropClient_conns (s : SurfaceServer) (i : Fin maxClients) :
    (s.dropClient i).conns = s.conns := by
  unfold dropClient
  split <;> rfl

@[simp]
theorem dropClient_nextStreamSurfaceId (s : SurfaceServer) (i : Fin maxClients) :
    (s.dropClient i).nextStreamSurfaceId = s.nextStreamSurfaceId := by
  unfold dropClient
  split <;> rfl

theorem Sound.dropClient (sound : s.Sound) (i : Fin maxClients) : (s.dropClient i).Sound := by
  refine ⟨?_, ?_, ?_, ?_, ?_, ?_, ?_⟩
  · rw [dropClient_conns, dropClient_log]
    exact sound.fresh
  · intro j c client
    rw [dropClient_conns]
    exact sound.numbered j c (dropClient_clients.mp client).2
  · intro j j' c c' client client'
    exact sound.apart j j' c c' (dropClient_clients.mp client).2 (dropClient_clients.mp client').2
  · intro k e' entry j marked
    obtain ⟨e, entry, same, -, kept⟩ := dropClient_streams entry
    obtain ⟨marked, other⟩ := kept j marked
    obtain ⟨i', place, c, client, streamV2, written⟩ := sound.introduced k e entry j marked
    -- The client that was told is another one.
    have different : i' ≠ i := by
      intro equal
      rw [equal] at client place
      exact other (by simp [client]) place.symm
    refine ⟨i', place, c, dropClient_clients.mpr ⟨different, client⟩, streamV2, ?_⟩
    rw [dropClient_log, same]
    exact written
  · intro k e' entry
    obtain ⟨e, entry, -, same, -⟩ := dropClient_streams entry
    rw [same]
    exact sound.dynamic k e entry
  · rw [dropClient_nextStreamSurfaceId]
    exact sound.nextDynamic
  · rw [dropClient_log]
    exact sound.inOrder

theorem Sound.sendRecord (sound : s.Sound) (client : s.clients i = some c) (payload : List UInt8)
    (result : SendResult)
    (told : m.type = msgDirty → m.Dynamic → ∃ x ∈ s.log c.conn, x.Introduces m.windowId) :
    (s.sendRecord i c m payload result).Sound := by
  have written := sound.write client payload result told
  unfold SurfaceServer.sendRecord
  cases result with
  | sent | wouldBlock => exact written
  | failed n => exact written.dropClient i

theorem Sound.setStream (sound : s.Sound) (k : Fin maxStreamSurfaces) {e : StreamSurface}
    (dynamic : dynamicSurfaceIdBase ≤ e.id)
    (introduced : ∀ j, Mask.has e.sentClients j = true → s.IntroducedTo e j) :
    (s.setStream k (some e)).Sound := by
  refine ⟨sound.fresh, sound.numbered, sound.apart, ?_, ?_, sound.nextDynamic, sound.inOrder⟩
  · intro k' e' entry
    by_cases same : k' = k
    · subst same
      have equal : e = e' := by simpa [SurfaceServer.setStream] using entry
      rw [← equal]
      exact introduced
    · have entry : s.streams k' = some e' := by
        simpa [SurfaceServer.setStream, same] using entry
      exact sound.introduced k' e' entry
  · intro k' e' entry
    by_cases same : k' = k
    · subst same
      have equal : e = e' := by simpa [SurfaceServer.setStream] using entry
      rw [← equal]
      exact dynamic
    · have entry : s.streams k' = some e' := by
        simpa [SurfaceServer.setStream, same] using entry
      exact sound.dynamic k' e' entry

theorem Sound.mapStream (sound : s.Sound) (k : Fin maxStreamSurfaces)
    {f : StreamSurface → StreamSurface} (message : ∀ e, surfaceMsg (f e) = surfaceMsg e)
    (marks : ∀ e, (f e).sentClients = e.sentClients) :
    (s.setStream k ((s.streams k).map f)).Sound := by
  cases entry : s.streams k with
  | none =>
    refine sound.of_eq rfl ?_ rfl rfl rfl
    funext k'
    by_cases same : k' = k <;> simp [SurfaceServer.setStream, same, entry]
  | some e =>
    refine sound.setStream k ?_ ?_
    · have id : (f e).id = e.id := congrArg XiosMsg.windowId (message e)
      rw [id]
      exact sound.dynamic k e entry
    · intro j marked
      unfold IntroducedTo
      rw [message e]
      exact sound.introduced k e entry j (by rwa [marks e] at marked)

theorem Sound.removeStream (sound : s.Sound) (k : Fin maxStreamSurfaces) :
    (s.setStream k none).Sound := by
  have older : ∀ {k' e}, (s.setStream k none).streams k' = some e → s.streams k' = some e := by
    intro k' e entry
    by_cases same : k' = k
    · simp [SurfaceServer.setStream, same] at entry
    · simpa [SurfaceServer.setStream, same] using entry
  refine ⟨sound.fresh, sound.numbered, sound.apart, ?_, ?_, sound.nextDynamic, sound.inOrder⟩
  · intro k' e entry
    exact sound.introduced k' e (older entry)
  · intro k' e entry
    exact sound.dynamic k' e (older entry)

theorem surfaceMsg_not_dirty (e : StreamSurface) : (surfaceMsg e).type ≠ msgDirty := by
  simp [surfaceMsg, msgSurface, msgDirty]

/-- A surface counts as sent only when its record and its port are. -/
theorem Sound.sendStreamSurface (sound : s.Sound) (client : s.clients i = some c)
    (k : Fin maxStreamSurfaces) (plan : SendPlan) :
    (s.sendStreamSurface i k plan).2.Sound ∧
      (s.sendStreamSurface i k plan).2.clients = s.clients ∧
      ((s.sendStreamSurface i k plan).1 = true → ∀ e, s.streams k = some e →
        ∃ x ∈ (s.sendStreamSurface i k plan).2.log c.conn, x.Introduces e.id) ∧
      ((s.sendStreamSurface i k plan).2.streams k).map StreamSurface.id =
        (s.streams k).map StreamSurface.id := by
  unfold SurfaceServer.sendStreamSurface
  rw [client]
  cases entry : s.streams k with
  | none => exact ⟨sound, rfl, fun worked => absurd worked (by simp), by simp [entry]⟩
  | some e =>
    simp only
    split
    · exact ⟨sound, rfl, fun worked => absurd worked (by simp), by simp [entry]⟩
    · rename_i streamV2
      split
      · rename_i marked
        refine ⟨sound, rfl, ?_, by simp [entry]⟩
        intro _ e' same
        obtain ⟨i', place, c', client', -, written⟩ := sound.introduced k e entry i marked
        have equal : i' = i := Fin.ext place
        rw [equal, client] at client'
        cases client'
        cases same
        exact ⟨_, written, rfl, rfl⟩
      · split
        · exact ⟨sound, rfl, fun worked => absurd worked (by simp), by simp [entry]⟩
        · have written := (sound.deliverPort c.conn e.surface).write client [] plan.surface
            (m := surfaceMsg e) fun dirty => absurd dirty (surfaceMsg_not_dirty e)
          split
          · rename_i worked
            rw [worked] at written ⊢
            have logged : .record (surfaceMsg e) [] ∈
                ((s.deliverPort c.conn e.surface).write c.conn (surfaceMsg e) [] .sent).log
                  c.conn := by
              simp [SurfaceServer.write]
            refine ⟨written.setStream k (sound.dynamic k e entry) ?_, ?_, ?_, ?_⟩
            · intro j marked
              simp only [Mask.has_or, Bool.or_eq_true, Mask.has_bit, Bool.and_eq_true,
                decide_eq_true_eq] at marked
              rcases marked with before | ⟨-, here⟩
              · exact written.introduced k e (by rw [write_streams]; exact entry) j before
              · exact ⟨i, here.symm, c, by rw [write_clients]; exact client, by simpa using streamV2,
                  logged⟩
            · simp [SurfaceServer.setStream, SurfaceServer.deliverPort]
            · intro _ e' same
              cases same
              exact ⟨_, logged, rfl, rfl⟩
            · simp [SurfaceServer.setStream]
          · refine ⟨written, ?_, fun worked => absurd worked (by simp), ?_⟩
            · simp [SurfaceServer.deliverPort]
            · simp [SurfaceServer.deliverPort, entry]

/-- A surface is an output, or one that is registered. -/
def Knows (s : SurfaceServer) (id : BitVec 32) (stream : Option (Fin maxStreamSurfaces)) : Prop :=
  dynamicSurfaceIdBase ≤ id →
    ∃ k, stream = some k ∧ (s.streams k).map StreamSurface.id = some id

variable {stream : Option (Fin maxStreamSurfaces)}

theorem Sound.introduce (sound : s.Sound) (client : s.clients i = some c)
    (known : s.Knows id stream) (plan : SendPlan) :
    (s.introduce i stream plan).2.Sound ∧ (s.introduce i stream plan).2.clients = s.clients ∧
      (s.introduce i stream plan).2.Knows id stream ∧
      ((s.introduce i stream plan).1 = true → dynamicSurfaceIdBase ≤ id →
        ∃ x ∈ (s.introduce i stream plan).2.log c.conn, x.Introduces id) := by
  cases stream with
  | none =>
    refine ⟨sound, rfl, known, fun _ dynamic => ?_⟩
    obtain ⟨k, absent, -⟩ := known dynamic
    cases absent
  | some k =>
    obtain ⟨after, clients, before, ids⟩ := sound.sendStreamSurface client k plan
    refine ⟨after, clients, fun dynamic => ?_, fun worked dynamic => ?_⟩
    · obtain ⟨k', same, found⟩ := known dynamic
      cases same
      exact ⟨k, rfl, ids.trans found⟩
    · obtain ⟨k', same, found⟩ := known dynamic
      cases same
      obtain ⟨e, entry, equal⟩ := Option.map_eq_some_iff.mp found
      rw [← equal]
      exact before worked e entry

theorem Knows.dropClient (known : s.Knows id stream) (i : Fin maxClients) :
    (s.dropClient i).Knows id stream := by
  intro dynamic
  obtain ⟨k, same, found⟩ := known dynamic
  refine ⟨k, same, ?_⟩
  unfold SurfaceServer.dropClient
  split
  · exact found
  · simpa [clearClientPending, Option.map_map, Function.comp_def] using found

theorem Knows.sendRecord (known : s.Knows id stream) (i : Fin maxClients) (c : AppClient)
    (m : XiosMsg) (payload : List UInt8) (result : SendResult) :
    (s.sendRecord i c m payload result).Knows id stream := by
  have written : (s.write c.conn m payload result).Knows id stream := by
    unfold Knows
    rw [write_streams]
    exact known
  unfold SurfaceServer.sendRecord
  cases result with
  | sent | wouldBlock => exact written
  | failed n => exact written.dropClient i

theorem Sound.notifyClient (token : List UInt8) (plan : Fin maxClients → SendPlan)
    {told : BitVec 32 × SurfaceServer} (sound : told.2.Sound) (named : m.windowId = id)
    (known : told.2.Knows id stream) (i : Fin maxClients) :
    (notifyClient id stream m token plan told i).2.Sound ∧
      (notifyClient id stream m token plan told i).2.Knows id stream := by
  obtain ⟨delivered, s⟩ := told
  unfold SurfaceServer.notifyClient
  simp only at sound known ⊢
  cases client : s.clients i with
  | none => exact ⟨sound, known⟩
  | some c =>
    simp only
    split
    · exact ⟨sound, known⟩
    · obtain ⟨after, clients, knows, before⟩ := sound.introduce client known (plan i)
      split
      · exact ⟨after.dropClient i, knows.dropClient i⟩
      · rename_i worked
        have client' : (s.introduce i stream (plan i)).2.clients i = some c := by
          rw [clients]
          exact client
        refine ⟨after.sendRecord client' token (plan i).record ?_, knows.sendRecord i c m token _⟩
        intro _ dynamic
        unfold XiosMsg.Dynamic at dynamic
        rw [named] at dynamic ⊢
        exact before (by simpa using worked) dynamic

theorem foldl_clients {β : Type*} {step : β → Fin maxClients → β} (holds : β → Prop) {b : β}
    (begun : holds b) (round : ∀ b i, holds b → holds (step b i)) (l : List (Fin maxClients)) :
    holds (l.foldl step b) := by
  induction l generalizing b with
  | nil => exact begun
  | cons i rest ih => exact ih (round b i begun)

variable {target : FrameTarget}

theorem knows_findTarget (found : s.findTarget id = some target) : s.Knows id target.stream? := by
  intro dynamic
  unfold findTarget at found
  split at found
  · rename_i output
    exact absurd dynamic (findOutputIndex_static output)
  · obtain ⟨k, stream, same⟩ := Option.map_eq_some_iff.mp found
    obtain ⟨e, entry, named⟩ := findStreamSurface_some stream
    subst same
    exact ⟨k, rfl, by simp [entry, named]⟩

theorem Sound.announce (sound : s.Sound) (known : s.Knows id target.stream?) (seq : BitVec 64)
    (token : List UInt8) (eventValue : BitVec 64) (plan : Fin maxClients → SendPlan) :
    (s.announce id target seq token eventValue plan).2.Sound ∧
      (s.announce id target seq token eventValue plan).2.Knows id target.stream? := by
  have begun : Sound { s with dirtySeq := seq } ∧ Knows { s with dirtySeq := seq } id target.stream? :=
    ⟨sound.of_eq rfl rfl rfl rfl rfl, known⟩
  unfold SurfaceServer.announce
  refine foldl_clients (fun told : BitVec 32 × SurfaceServer =>
    told.2.Sound ∧ told.2.Knows id target.stream?) begun ?_ _
  intro told i holds
  have named : (dirtyMsg id seq eventValue).windowId = id := rfl
  exact holds.1.notifyClient token plan named holds.2 i

theorem Sound.notifyDirty (sound : s.Sound) (id : BitVec 32) (token : List UInt8)
    (eventValue : BitVec 64) (plan : Fin maxClients → SendPlan) :
    (s.notifyDirty id token eventValue plan).Sound := by
  unfold SurfaceServer.notifyDirty
  split
  · exact sound
  · split
    · exact sound
    · rename_i target found
      have told :=
        (sound.announce (knows_findTarget found) (s.dirtySeq + 1#64) token eventValue plan).1
      cases target with
      | output index => exact told.of_eq rfl rfl rfl rfl rfl
      | stream k => exact told.mapStream k (fun _ => rfl) fun _ => rfl

theorem Sound.notifyCursor (sound : s.Sound) (x y shape : BitVec 32) (visible : Bool)
    (plan : Fin maxClients → SendPlan) : (s.notifyCursor x y shape visible plan).Sound := by
  refine foldl_clients Sound sound ?_ _
  intro s i sound
  split
  · exact sound
  · rename_i c client
    refine sound.sendRecord client [] (plan i).record fun dirty => ?_
    simp [msgCursor, msgDirty] at dirty

theorem Sound.notifyCursorImage (sound : s.Sound) (bgra : Option (List UInt8))
    (width height hotX hotY : BitVec 32) (plan : Fin maxClients → SendPlan) :
    (s.notifyCursorImage bgra width height hotX hotY plan).Sound := by
  unfold SurfaceServer.notifyCursorImage
  simp only
  split
  · exact sound
  · refine foldl_clients Sound sound ?_ _
    intro s i sound
    split
    · exact sound
    · rename_i c client
      refine sound.sendRecord client _ _ fun dirty => ?_
      split at dirty <;> simp [cursorImageMsg, msgCursorImage, msgDirty] at dirty

theorem Sound.takeBack (sound : s.Sound) (id : BitVec 32) (k : Fin maxStreamSurfaces)
    (plan : Fin maxClients → SendPlan) (i : Fin maxClients) : (takeBack id k plan s i).Sound := by
  unfold SurfaceServer.takeBack
  split
  · exact sound
  · rename_i c client
    split
    · have written : (s.write c.conn (dropMsg id) [] (plan i).record).Sound := by
        refine sound.write client [] (plan i).record fun dirty => ?_
        simp [dropMsg, msgSurfaceDrop, msgDirty] at dirty
      simp only
      split
      · exact written
      · exact written.dropClient i
    · exact sound

theorem Sound.streamUnregisterSurface (sound : s.Sound) (id : BitVec 32)
    (plan : Fin maxClients → SendPlan) : (s.streamUnregisterSurface id plan).Sound := by
  unfold SurfaceServer.streamUnregisterSurface
  split
  · exact sound
  · rename_i k _
    refine Sound.removeStream ?_ k
    exact foldl_clients Sound sound (fun s i sound => sound.takeBack id k plan i) _

theorem dynamic_nextId (id : BitVec 32) : dynamicSurfaceIdBase ≤ nextId id := by
  unfold nextId
  split
  · exact BitVec.le_refl _
  · rename_i large
    exact BitVec.not_lt.mp large

theorem Sound.streamRegisterSurface (sound : s.Sound) (geometry : Nat → SurfaceGeometry)
    (surface : Nat) (flags : BitVec 32) :
    (streamRegisterSurface geometry s surface flags).Sound := by
  unfold SurfaceServer.streamRegisterSurface
  split
  · exact sound
  · split
    · exact sound
    · split
      · exact sound
      · rename_i k _
        have placed : (s.setStream k (some
            { surface, id := s.nextStreamSurfaceId, flags, geometry := geometry surface })).Sound :=
          sound.setStream k sound.nextDynamic fun j marked => by simp at marked
        obtain ⟨fresh, numbered, apart, introduced, dynamic, -, inOrder⟩ := placed
        exact ⟨fresh, numbered, apart, introduced, dynamic, dynamic_nextId _, inOrder⟩

theorem Sound.recoverConsumerAfterHandshake (sound : s.Sound) :
    s.recoverConsumerAfterHandshake.Sound := by
  have older : ∀ {k e'}, s.recoverConsumerAfterHandshake.streams k = some e' →
      ∃ e, s.streams k = some e ∧ surfaceMsg e' = surfaceMsg e ∧
        e'.sentClients = e.sentClients ∧ e'.id = e.id := by
    intro k e' entry
    obtain ⟨e, entry, same⟩ := Option.map_eq_some_iff.mp entry
    refine ⟨e, entry, ?_⟩
    rw [← same]
    split <;> exact ⟨rfl, rfl, rfl⟩
  refine ⟨sound.fresh, sound.numbered, sound.apart, ?_, ?_, sound.nextDynamic, sound.inOrder⟩
  · intro k e' entry j marked
    obtain ⟨e, entry, message, marks, -⟩ := older entry
    unfold IntroducedTo
    rw [message]
    exact sound.introduced k e entry j (by rwa [marks] at marked)
  · intro k e' entry
    obtain ⟨e, entry, -, -, id⟩ := older entry
    rw [id]
    exact sound.dynamic k e entry

theorem Sound.addClient (sound : s.Sound) {fd : Nat} {caps generation : BitVec 32}
    (added : s.addClient fd caps generation = some s') : s'.Sound := by
  unfold SurfaceServer.addClient at added
  split at added
  · cases added
  · split at added
    · cases added
    · split at added
      · cases added
      · rename_i i found
        have free : s.clients i = none := by simpa using List.find?_some found
        have recovered : (if s.noClients then s.recoverConsumerAfterHandshake else s).Sound ∧
            (if s.noClients then s.recoverConsumerAfterHandshake else s).clients = s.clients := by
          split
          · exact ⟨sound.recoverConsumerAfterHandshake, rfl⟩
          · exact ⟨sound, rfl⟩
        simp only at added
        generalize (if s.noClients then s.recoverConsumerAfterHandshake else s) = s₁
          at added recovered
        obtain ⟨sound₁, clients⟩ := recovered
        cases added
        have old : ∀ {new : Option AppClient} {j c}, j ≠ i →
            Function.update s₁.clients i new j = some c → s₁.clients j = some c := by
          intro new j c other client
          rwa [Function.update_of_ne other] at client
        refine ⟨?_, ?_, ?_, ?_, sound₁.dynamic, sound₁.nextDynamic, sound₁.inOrder⟩
        · intro conn unused
          exact sound₁.fresh conn (Nat.le_of_succ_le unused)
        · intro j c client
          by_cases same : j = i
          · subst same
            simp only [Function.update_self, Option.some.injEq] at client
            rw [← client]
            exact Nat.lt_succ_self _
          · exact (sound₁.numbered j c (old same client)).trans (Nat.lt_succ_self _)
        · intro j j' c c' client client' conns
          by_cases here : j = i
          · by_cases there : j' = i
            · rw [here, there]
            · subst here
              simp only [Function.update_self, Option.some.injEq] at client
              have below := sound₁.numbered j' c' (old there client')
              rw [← conns, ← client] at below
              exact absurd below (lt_irrefl _)
          · by_cases there : j' = i
            · subst there
              simp only [Function.update_self, Option.some.injEq] at client'
              have below := sound₁.numbered j c (old here client)
              rw [conns, ← client'] at below
              exact absurd below (lt_irrefl _)
            · exact sound₁.apart j j' c c' (old here client) (old there client') conns
        · intro k e entry j marked
          obtain ⟨i', place, c, client, streamV2, written⟩ := sound₁.introduced k e entry j marked
          have other : i' ≠ i := by
            intro same
            rw [same, clients, free] at client
            cases client
          refine ⟨i', place, c, ?_, streamV2, written⟩
          simp only [Function.update_of_ne other]
          exact client

theorem Sound.handleClient (sound : s.Sound) (fd : Nat) (caps generation : BitVec 32) :
    (s.handleClient fd caps generation).Sound := by
  unfold SurfaceServer.handleClient
  split
  · exact sound
  · split
    · exact sound
    · cases added : s.addClient fd caps generation with
      | none => exact sound
      | some s' => exact sound.addClient added

theorem Sound.handleClientMsg (sound : s.Sound) (i : Fin maxClients) (serial : BitVec 64)
    (m : XiosMsg) : (s.handleClientMsg i serial m).Sound := by
  unfold SurfaceServer.handleClientMsg
  split
  · exact sound
  · split
    · exact sound
    · split
      · unfold SurfaceServer.handleReleased
        simp only
        split
        · exact sound
        · split
          · exact sound.of_eq rfl rfl rfl rfl rfl
          · split
            · exact sound.of_eq rfl rfl rfl rfl rfl
            · rename_i k _
              have released : Sound { s with queue := (s.releaseOutput i m.windowId (m.b ++ m.a)).2 } :=
                sound.of_eq rfl rfl rfl rfl rfl
              refine released.mapStream k (fun e => ?_) fun e => ?_
              · split <;> rfl
              · split <;> rfl
      · exact sound

theorem Sound.resize (sound : s.Sound) (unshared : s.Unshared .resize) : s.resize.Sound := by
  unfold SurfaceServer.resize
  split
  · exact sound
  · refine ⟨sound.fresh, ?_, ?_, ?_, sound.dynamic, sound.nextDynamic, sound.inOrder⟩
    · intro i c client
      cases client
    · intro i j c c' client
      cases client
    · intro k e entry j marked
      rw [unshared k e entry, Mask.has_zero] at marked
      cases marked

/-- Each event keeps the server sound if it is resized at the right time. -/
theorem Sound.next (sound : s.Sound) (geometry : Nat → SurfaceGeometry) (event : Event)
    (unshared : s.Unshared event) : (next geometry s event).Sound := by
  cases event with
  | handshake fd caps generation => exact sound.handleClient fd caps generation
  | readerGone i fd serial =>
    simp only [SurfaceServer.next, dropClientIdentity]
    split
    · exact sound
    · split
      · exact sound
      · exact sound.dropClient i
  | message i serial m => exact sound.handleClientMsg i serial m
  | resize => exact sound.resize unshared
  | register surface flags => exact sound.streamRegisterSurface geometry surface flags
  | unregister id plan => exact sound.streamUnregisterSurface id plan
  | dirty id token eventValue plan => exact sound.notifyDirty id token eventValue plan
  | cursor x y shape visible plan => exact sound.notifyCursor x y shape visible plan
  | cursorImage bgra width height hotX hotY plan =>
    exact sound.notifyCursorImage bgra width height hotX hotY plan
  | acquire =>
    simp only [SurfaceServer.next, outputAcquire]
    split
    · exact sound.of_eq rfl rfl rfl rfl rfl
    · exact sound
  | cancel id =>
    simp only [SurfaceServer.next, outputCancel]
    split
    · exact sound.of_eq rfl rfl rfl rfl rfl
    · exact sound

theorem sound_start (queue : OutputQueue) (releaseToken : Bool) :
    Sound { queue, releaseToken } := by
  refine ⟨fun _ _ => rfl, ?_, ?_, ?_, ?_, BitVec.le_refl _, fun _ => trivial⟩
  · intro i c client
    cases client
  · intro i j c c' client
    cases client
  · intro k e entry
    cases entry
  · intro k e entry
    cases entry

theorem sound_of_run {geometry : Nat → SurfaceGeometry} {trace : List Event}
    (run : ((machine geometry).restrict Unshared).Run trace s) : s.Sound := by
  refine run.invariant (fun _ s => s.Sound) ?_ ?_
  · intro s begun
    obtain ⟨_, queue, releaseToken, -, same⟩ := begun
    rw [same]
    exact sound_start queue releaseToken
  · intro _ s event sound allowed
    exact sound.next geometry event allowed.2

/--
Surfaces are introduced before their frames.

In every history in which the outputs are replaced only while no client was told of any surface, a
surface is marked only for clients that are connected and were told of it on the same connection,
and no connection was ever told of a frame of a surface that was not introduced on it before.
-/
theorem surface_before_dirty {geometry : Nat → SurfaceGeometry} {trace : List Event}
    {s : SurfaceServer} (run : ((machine geometry).restrict Unshared).Run trace s) :
    (∀ k e, s.streams k = some e → ∀ j, Mask.has e.sentClients j = true → s.IntroducedTo e j) ∧
      ∀ conn later m payload earlier, s.log conn = later ++ .record m payload :: earlier →
        m.type = msgDirty → m.Dynamic → ∃ x ∈ earlier, x.Introduces m.windowId := by
  have sound := sound_of_run run
  refine ⟨sound.introduced, ?_⟩
  intro conn later m payload earlier split dirty dynamic
  exact (sound.inOrder conn).introduced split dirty dynamic

def oneOutput : SurfaceServer :=
  { queue := { slots := fun _ => {}, count := 1, bounded := one_le_maxBuffers, cursor := 0, frame := 0 }
    releaseToken := false }

def squares : Nat → SurfaceGeometry :=
  fun _ => { width := 8#32, height := 8#32, stride := 32#32 }

def blankToken : List UInt8 :=
  List.replicate gpuFenceTokenSize 0

theorem start_oneOutput : (machine squares).start oneOutput :=
  ⟨1, oneOutput.queue, false, rfl, rfl⟩

def oneFrame : List Event :=
  [.handshake 3 helloCapStreamV2 0#32, .register 7 0#32,
    .dirty 0x100#32 blankToken 5#64 fun _ => {}]

theorem surface_before_dirty_oneFrame :
    ((oneFrame.foldl (next squares) oneOutput).log 0).length = 2 ∧
      ∀ conn later m payload earlier,
        (oneFrame.foldl (next squares) oneOutput).log conn =
          later ++ .record m payload :: earlier →
        m.type = msgDirty → m.Dynamic → ∃ x ∈ earlier, x.Introduces m.windowId := by
  have run : ((machine squares).restrict Unshared).Run oneFrame.reverse
      (oneFrame.foldl (next squares) oneOutput) :=
    .of_script (m := (machine squares).restrict Unshared) (s := oneOutput) start_oneOutput oneFrame
      ⟨⟨trivial, trivial⟩, ⟨trivial, trivial⟩, ⟨trivial, trivial⟩, trivial⟩
  exact ⟨by decide +kernel, (surface_before_dirty run).2⟩

def rotatedFrame : List Event :=
  oneFrame ++ [.resize, .handshake 3 helloCapStreamV2 1#32,
    .dirty 0x100#32 blankToken 6#64 fun _ => {}]

/-- The second connection is told of a frame, although the surface was never introduced on it. -/
theorem not_surface_before_dirty :
    ¬∀ (geometry : Nat → SurfaceGeometry) (trace : List Event) (s : SurfaceServer),
      (machine geometry).Run trace s →
        ∀ conn later m payload earlier, s.log conn = later ++ .record m payload :: earlier →
          m.type = msgDirty → m.Dynamic → ∃ x ∈ earlier, x.Introduces m.windowId := by
  intro introduced
  have run : (machine squares).Run rotatedFrame.reverse
      (rotatedFrame.foldl (next squares) oneOutput) :=
    .of_script (m := machine squares) (s := oneOutput) start_oneOutput rotatedFrame
      ⟨trivial, trivial, trivial, trivial, trivial, trivial, trivial⟩
  have logged : (rotatedFrame.foldl (next squares) oneOutput).log 1 =
      [] ++ .record (dirtyMsg 0x100#32 2#64 6#64) blankToken :: [] := by decide +kernel
  obtain ⟨x, nowhere, -⟩ := introduced squares _ _ run 1 [] _ _ [] logged rfl (BitVec.le_refl _)
  cases nowhere

end SurfaceServer

end Xios
