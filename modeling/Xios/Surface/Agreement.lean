import Xios.Surface.Streams

/-! The app accepts what the server sends, and both agree on the surfaces that are shared. -/

namespace Xios

namespace SurfaceServer

/-- The client surfaces that the app has not retired are those that are marked for it. -/
def Agrees (s : SurfaceServer) (i : Fin maxClients) (app : XSurfaceConn) : Prop :=
  ∀ id, (∃ item ∈ app.surfaces, item.id = id ∧ dynamicSurfaceIdBase ≤ id ∧ item.retired = false) ↔
    ∃ k e, s.streams k = some e ∧ Mask.has e.sentClients i = true ∧ e.id = id

def appMachine (geometry : Nat → SurfaceGeometry) (outputs : List Nat) (s : SurfaceServer)
    (conn : Nat) : Machine AppStream DrainAnswer :=
  AppStream.machine geometry outputs (wire (s.log conn)) (s.ports conn).reverse

section

variable {geometry : Nat → SurfaceGeometry}

theorem Streams.tracks {outputs : List Nat} {s : SurfaceServer}
    (streams : s.Streams geometry outputs.length fun _ => False) {conn : Nat}
    {reads : List DrainAnswer} {app : AppStream}
    (run : (appMachine geometry outputs s conn).Run reads app) :
    app.Tracks outputs.length (wire (s.log conn)) (s.ports conn).reverse := by
  have few : outputs.length ≤ outputQueueMaxBuffers := streams.count ▸ s.queue.bounded
  obtain ⟨introduced, pending, parsed, paired⟩ := streams.readable conn
  exact AppStream.tracks_of_run few parsed paired run

theorem Streams.settled {outputs : List Nat} {s : SurfaceServer}
    (streams : s.Streams geometry outputs.length fun _ => False) {i : Fin maxClients}
    {c : AppClient} (client : s.clients i = some c) {reads : List DrainAnswer} {app : AppStream}
    (run : (appMachine geometry outputs s c.conn).Run reads app)
    (consumed : app.consumed = wire (s.log c.conn)) (ready : app.conn.pendingSurface = none) :
    app.conn.Holds outputs.length (s.viewOf i c) ∧ app.conn.Idle ∧ app.conn.rxbuf = [] := by
  obtain ⟨-, -, -, done, phase, got, parsed, agree, -⟩ := streams.tracks run
  obtain ⟨introduced, whole, -⟩ := streams.tells i c client (fun gone => gone)
  rw [consumed, whole] at parsed
  have same := congrArg Reader.Outcome.waiting parsed
  simp only [Option.some.injEq, Prod.mk.injEq] at same
  obtain ⟨here, nothing⟩ := same
  subst here nothing
  exact agree.waits_header ready

/--
The app accepts what the server sends.

In every history in which the app has room for every surface that is introduced to it, and in which
the outputs are replaced only while no client was told of any surface, an app never finds the
protocol broken after its handshake, however it reads what was sent, and it can read all of it.
Once it has, the client surfaces that it has not retired are those that are marked for it.
-/
theorem app_accepts_stream (positive : ∀ surface, (geometry surface).Positive)
    {trace : List Event} {s : SurfaceServer}
    (run : ((machine geometry).restrict Fits).Run trace s) {outputs : List Nat}
    (size : outputs.length = s.queue.count) (conn : Nat) :
    (∀ reads app, (appMachine geometry outputs s conn).Run reads app →
      app.failed ≠ some .protocol ∧
        (app.consumed = wire (s.log conn) → app.conn.pendingSurface = none →
          ∀ i c, s.clients i = some c → c.conn = conn → s.Agrees i app.conn)) ∧
      ∃ reads app, (appMachine geometry outputs s conn).Run reads app ∧ app.failed = none ∧
        app.consumed = wire (s.log conn) ∧ app.conn.pendingSurface = none := by
  have streams : s.Streams geometry outputs.length fun _ => False :=
    size ▸ streams_of_run positive run
  have few : outputs.length ≤ outputQueueMaxBuffers := streams.count ▸ s.queue.bounded
  refine ⟨?_, ?_⟩
  · intro reads app reading
    have tracks := streams.tracks reading
    refine ⟨?_, ?_⟩
    · intro broken
      rcases tracks.1 with alive | closed
      · rw [broken] at alive
        cases alive
      · rw [broken] at closed
        cases closed
    · intro consumed ready i c client same id
      subst same
      have holds := (streams.settled client reading consumed ready).1
      rw [holds.mem_held few, viewOf, mem_heldBy]
  · obtain ⟨introduced, pending, parsed, paired⟩ := streams.readable conn
    exact AppStream.exists_consumed few parsed paired

end

variable {n : Nat}

theorem find_finRange {p : Fin n → Bool} {k : Fin n} (here : p k = true)
    (before : ∀ j, j < k → p j = false) : (List.finRange n).find? p = some k := by
  rw [List.find?_eq_some_iff_getElem]
  refine ⟨here, k, by simp, by simp, ?_⟩
  intro j earlier
  simp [before ⟨j, earlier.trans k.isLt⟩ earlier]

variable {s : SurfaceServer}

theorem notifyDirty_introduces {i : Fin maxClients} {c : AppClient}
    (client : s.clients i = some c) (streamV2 : c.streamV2 = true)
    (alone : ∀ j, j ≠ i → s.clients j = none) {k : Fin maxStreamSurfaces} {e : StreamSurface}
    (entry : s.streams k = some e) (unmarked : Mask.has e.sentClients i = false)
    (found : s.findTarget e.id = some (.stream k)) {token : List UInt8}
    (size : token.length = gpuFenceTokenSize) {eventValue : BitVec 64} (value : eventValue ≠ 0#64) :
    s.notifyDirty e.id token eventValue (fun _ => {}) =
      ((introducedTo { s with dirtySeq := s.dirtySeq + 1#64 } i c k e).write c.conn
        (dirtyMsg e.id (s.dirtySeq + 1#64) eventValue) token .sent).setStream k
          (some { e with
            sentClients := e.sentClients ||| Mask.bit 32 i, lastSeq := s.dirtySeq + 1#64 }) := by
  have introduced : sendStreamSurface { s with dirtySeq := s.dirtySeq + 1#64 } i k {} =
      (true, introducedTo { s with dirtySeq := s.dirtySeq + 1#64 } i c k e) := by
    simp [sendStreamSurface, client, entry, streamV2, unmarked, introducedTo, mark]
  unfold notifyDirty
  rw [if_neg (by simp [size, value]), found]
  simp only
  rw [announce_single alone]
  simp only [notifyClient, client, streamV2, FrameTarget.stream?, introduce, introduced,
    Bool.true_eq_false, false_and, if_false, sendRecord, write_streams]
  congr 1
  simp [introducedTo, mark, setStream]

def firstApp : AppClient :=
  { fd := 3, conn := 0, caps := helloCapStreamV2, serial := 1#64 }

/-- The id of the next client surface after some number of them. -/
def nthId (n : Nat) : BitVec 32 :=
  BitVec.ofNat 32 (256 + n)

theorem nthId_inj {m : Nat} (small : m ≤ 128) (small' : n ≤ 128) (same : nthId m = nthId n) :
    m = n := by
  have numbers := congrArg BitVec.toNat same
  simp only [nthId, BitVec.toNat_ofNat] at numbers
  omega

/-- An app shows frames of the first client surfaces. -/
structure Crowd (n : Nat) (s : SurfaceServer) : Prop where
  client : s.clients 0 = some firstApp
  alone : ∀ j, j ≠ 0 → s.clients j = none
  count : s.queue.count = 1
  -- The next id is the one after those.
  nextId : s.nextStreamSurfaceId = nthId n
  -- Each of the surfaces is marked for the app.
  taken : ∀ k : Fin maxStreamSurfaces, (k : Nat) < n → ∃ e, s.streams k = some e ∧
    e.surface = k ∧ e.id = nthId k ∧ Mask.has e.sentClients 0 = true
  free : ∀ k : Fin maxStreamSurfaces, n ≤ (k : Nat) → s.streams k = none
  -- The last frame belongs to the last of them.
  shown : lastShown (s.log 0) = primarySurfaceId ∧ n = 0 ∨ 0 < n ∧ lastShown (s.log 0) = nthId (n - 1)

def fresh (n : Nat) : StreamSurface :=
  { surface := n, id := nthId n, flags := 0#32, geometry := squares n }

theorem Crowd.register (crowd : s.Crowd n) (k : Fin maxStreamSurfaces) (last : (k : Nat) = n) :
    streamRegisterSurface squares s n 0#32 =
      { s.setStream k (some (fresh n)) with nextStreamSurfaceId := nthId (n + 1) } := by
  have inside : (k : Nat) < 128 := k.isLt
  have unknown : ((List.finRange maxStreamSurfaces).any fun k =>
      (s.streams k).any fun e => e.surface = n) = false := by
    rw [List.any_eq_false]
    intro k' _
    by_cases taken : (k' : Nat) < n
    · obtain ⟨e, entry, surface, -⟩ := crowd.taken k' taken
      simp only [entry, Option.any_some, surface, decide_eq_true_eq]
      omega
    · simp [crowd.free k' (by omega)]
  have place : (List.finRange maxStreamSurfaces).find? (fun k => (s.streams k).isNone) = some k := by
    refine find_finRange (by simp [crowd.free k (by omega)]) ?_
    intro j before
    obtain ⟨e, entry, -⟩ := crowd.taken j (by omega)
    simp [entry]
  have following : SurfaceServer.nextId (nthId n) = nthId (n + 1) := by
    have next : nthId n + 1#32 = nthId (n + 1) := by
      apply BitVec.eq_of_toNat_eq
      simp only [nthId, BitVec.toNat_add, BitVec.toNat_ofNat]
      omega
    have large : ¬nthId (n + 1) < dynamicSurfaceIdBase := by
      rw [BitVec.lt_def]
      simp only [nthId, dynamicSurfaceIdBase, BitVec.toNat_ofNat]
      omega
    simp [SurfaceServer.nextId, next, large]
  simp [streamRegisterSurface, unknown, place, crowd.nextId, following, fresh]

theorem Crowd.heldBy (crowd : s.Crowd n) (small : n ≤ 128) :
    s.heldBy 0 = (Finset.range n).image nthId := by
  ext id
  rw [mem_heldBy, Finset.mem_image]
  constructor
  · rintro ⟨k, e, entry, -, named⟩
    have taken : (k : Nat) < n := by
      by_contra outside
      rw [crowd.free k (by omega)] at entry
      cases entry
    obtain ⟨e', entry', -, id', -⟩ := crowd.taken k taken
    rw [entry] at entry'
    cases entry'
    exact ⟨k, Finset.mem_range.mpr taken, by rw [← id', named]⟩
  · rintro ⟨k, inside, named⟩
    rw [Finset.mem_range] at inside
    obtain ⟨e, entry, -, id', marked⟩ := crowd.taken ⟨k, lt_of_lt_of_le inside small⟩ inside
    exact ⟨⟨k, lt_of_lt_of_le inside small⟩, e, entry, marked, by rw [id', ← named]⟩

theorem Crowd.kept (crowd : s.Crowd n) (small : n ≤ 128) :
    (s.viewOf 0 firstApp).kept 1 = n + 1 := by
  have size : (s.heldBy 0).card = n := by
    rw [crowd.heldBy small, Finset.card_image_of_injOn, Finset.card_range]
    intro i first j second same
    simp only [Finset.coe_range, Set.mem_Iio] at first second
    exact nthId_inj (by omega) (by omega) same
  have unretired : ¬(s.viewOf 0 firstApp).Retains := by
    rintro ⟨dynamic, unheld⟩
    rcases crowd.shown with ⟨static, -⟩ | ⟨nonempty, last⟩
    · change dynamicSurfaceIdBase ≤ lastShown (s.log 0) at dynamic
      rw [static] at dynamic
      exact absurd dynamic (by decide)
    · change lastShown (s.log 0) ∉ s.heldBy 0 at unheld
      rw [last, crowd.heldBy small] at unheld
      exact unheld (Finset.mem_image.mpr ⟨n - 1, Finset.mem_range.mpr (by omega), rfl⟩)
  unfold StreamView.kept
  rw [if_neg unretired, viewOf, size]
  omega

def registered (s : SurfaceServer) (k : Fin maxStreamSurfaces) (n : Nat) : SurfaceServer :=
  { s.setStream k (some (fresh n)) with nextStreamSurfaceId := nthId (n + 1) }

theorem Crowd.findTarget (crowd : s.Crowd n) (k : Fin maxStreamSurfaces) (last : (k : Nat) = n) :
    (s.registered k n).findTarget (nthId n) = some (.stream k) := by
  have inside : (k : Nat) < 128 := k.isLt
  have output : (s.registered k n).findOutputIndex (nthId n) = none := by
    have single : (s.registered k n).queue.count = 1 := crowd.count
    have other : primarySurfaceId ≠ nthId n := by
      intro same
      have numbers := congrArg BitVec.toNat same
      simp only [primarySurfaceId, nthId, BitVec.toNat_ofNat] at numbers
      omega
    unfold findOutputIndex
    rw [single]
    simp [other]
  have place : (s.registered k n).findStreamSurface (nthId n) = some k := by
    refine find_finRange (by simp [registered, setStream, fresh]) ?_
    intro j before
    obtain ⟨e, entry, -, named, -⟩ := crowd.taken j (by omega)
    have apart : (registered s k n).streams j = some e := by
      simpa [registered, setStream, Fin.ne_of_lt before] using entry
    have different : nthId j ≠ nthId n := fun same =>
      absurd (nthId_inj (by omega) (by omega) same) (by omega)
    simp [apart, named, different]
  simp [SurfaceServer.findTarget, output, place]

theorem Crowd.dirty (crowd : s.Crowd n) (k : Fin maxStreamSurfaces) (last : (k : Nat) = n) :
    (s.registered k n).notifyDirty (nthId n) blankToken 5#64 (fun _ => {}) =
      ((introducedTo { s.registered k n with dirtySeq := s.dirtySeq + 1#64 } 0 firstApp k
        (fresh n)).write 0 (dirtyMsg (nthId n) (s.dirtySeq + 1#64) 5#64) blankToken
          .sent).setStream k
          (some { fresh n with
            sentClients := 0#32 ||| Mask.bit 32 0, lastSeq := s.dirtySeq + 1#64 }) := by
  refine notifyDirty_introduces (s := s.registered k n) (e := fresh n) crowd.client (by decide)
    crowd.alone ?_ ?_ (crowd.findTarget k last) (by decide) (by decide)
  · simp [registered, setStream]
  · simp [fresh]

theorem Crowd.step (crowd : s.Crowd n) (k : Fin maxStreamSurfaces) (last : (k : Nat) = n) :
    ((s.registered k n).notifyDirty (nthId n) blankToken 5#64 (fun _ => {})).Crowd (n + 1) := by
  rw [crowd.dirty k last]
  have others : ∀ k', k' ≠ k → ((introducedTo { s.registered k n with
      dirtySeq := s.dirtySeq + 1#64 } 0 firstApp k (fresh n)).write 0
      (dirtyMsg (nthId n) (s.dirtySeq + 1#64) 5#64) blankToken .sent).streams k' =
      s.streams k' := by
    intro k' other
    simp [introducedTo, mark, setStream, registered, other, deliverPort]
  refine ⟨crowd.client, crowd.alone, crowd.count, rfl, ?_, ?_, ?_⟩
  · intro k' inside
    by_cases here : k' = k
    · subst here
      refine ⟨{ fresh n with sentClients := 0#32 ||| Mask.bit 32 0, lastSeq := s.dirtySeq + 1#64 },
        by simp [setStream], last.symm, ?_, by simp⟩
      rw [last]
      rfl
    · obtain ⟨e, entry, rest⟩ := crowd.taken k' (by
        have different : (k' : Nat) ≠ k := fun same => here (Fin.ext same)
        omega)
      refine ⟨e, ?_, rest⟩
      simp only [setStream, Function.update_of_ne here]
      rw [others k' here]
      exact entry
  · intro k' outside
    have here : k' ≠ k := by
      rintro rfl
      omega
    simp only [setStream, Function.update_of_ne here]
    rw [others k' here]
    exact crowd.free k' (by omega)
  · right
    refine ⟨Nat.succ_pos n, ?_⟩
    simp [setStream, SurfaceServer.write, lastShown, dirtyMsg]

def crowdTrace : Nat → List Event
  | 0 => [.handshake 3 helloCapStreamV2 0#32]
  | n + 1 => .dirty (nthId n) blankToken 5#64 (fun _ => {}) :: .register n 0#32 :: crowdTrace n

theorem crowd_zero : (next squares oneOutput (.handshake 3 helloCapStreamV2 0#32)).Crowd 0 := by
  refine ⟨by decide +kernel, by decide +kernel, by decide +kernel, by decide +kernel, ?_, ?_, ?_⟩
  · intro k inside
    cases inside
  · decide +kernel
  · exact .inl ⟨by decide +kernel, rfl⟩

theorem Crowd.next_next (crowd : s.Crowd n) (k : Fin maxStreamSurfaces) (last : (k : Nat) = n) :
    next squares s (.register n 0#32) = s.registered k n ∧
      (next squares (next squares s (.register n 0#32))
        (.dirty (nthId n) blankToken 5#64 fun _ => {})).Crowd (n + 1) := by
  have first : next squares s (.register n 0#32) = s.registered k n := crowd.register k last
  rw [first]
  exact ⟨rfl, crowd.step k last⟩

theorem Crowd.sent (crowd : s.Crowd n) (k : Fin maxStreamSurfaces) (last : (k : Nat) = n) :
    (next squares (next squares s (.register n 0#32))
        (.dirty (nthId n) blankToken 5#64 fun _ => {})).log 0 =
      .record (dirtyMsg (nthId n) (s.dirtySeq + 1#64) 5#64) blankToken ::
        .record (surfaceMsg (fresh n)) [] :: s.log 0 ∧
    (next squares (next squares s (.register n 0#32))
        (.dirty (nthId n) blankToken 5#64 fun _ => {})).ports 0 = n :: s.ports 0 := by
  rw [(crowd.next_next k last).1]
  change ((s.registered k n).notifyDirty (nthId n) blankToken 5#64 fun _ => {}).log 0 = _ ∧
    ((s.registered k n).notifyDirty (nthId n) blankToken 5#64 fun _ => {}).ports 0 = _
  rw [crowd.dirty k last]
  constructor
  · simp [setStream, SurfaceServer.write, introducedTo, mark, deliverPort, registered, firstApp]
  · simp [setStream, SurfaceServer.write, introducedTo, mark, deliverPort, registered, firstApp,
      fresh]

theorem Crowd.unheld (crowd : s.Crowd n) (small : n ≤ 128) : nthId n ∉ s.heldBy 0 := by
  rw [crowd.heldBy small, Finset.mem_image]
  rintro ⟨j, inside, same⟩
  rw [Finset.mem_range] at inside
  exact absurd (nthId_inj (by omega) small same) (by omega)

theorem Crowd.unshown (crowd : s.Crowd n) (small : n ≤ 128) : nthId n ≠ lastShown (s.log 0) := by
  rcases crowd.shown with ⟨static, -⟩ | ⟨nonempty, shown⟩
  · rw [static]
    intro same
    have numbers := congrArg BitVec.toNat same
    simp only [nthId, primarySurfaceId, BitVec.toNat_ofNat] at numbers
    omega
  · rw [shown]
    intro same
    exact absurd (nthId_inj small (by omega) same) (by omega)

theorem Crowd.fits (crowd : s.Crowd n) (k : Fin maxStreamSurfaces) (last : (k : Nat) = n)
    (room : n < 127) : (s.registered k n).Fits (.dirty (nthId n) blankToken 5#64 fun _ => {}) := by
  intro _ _ k' e i c found entry client _ _ _ _
  have place : i = 0 := by
    by_contra other
    have absent := crowd.alone i other
    rw [show (s.registered k n).clients i = s.clients i from rfl, absent] at client
    cases client
  subst place
  have same : c = firstApp := by
    rw [show (s.registered k n).clients 0 = s.clients 0 from rfl, crowd.client] at client
    exact (Option.some.inj client).symm
  subst same
  have held : (s.registered k n).heldBy 0 = s.heldBy 0 :=
    heldBy_register (e := fresh n) (crowd.free k (by omega)) rfl 0
  have view : (s.registered k n).viewOf 0 firstApp = s.viewOf 0 firstApp := by
    unfold viewOf
    rw [held]
    rfl
  have count : (s.registered k n).queue.count = 1 := crowd.count
  rw [view, count]
  refine ⟨crowd.unheld (by omega), crowd.unshown (by omega), ?_⟩
  rw [crowd.kept (by omega)]
  exact Nat.succ_lt_succ room

theorem exists_crowd (room : n ≤ 127) :
    ∃ s, ((machine squares).restrict Fits).Run (crowdTrace n) s ∧ s.Crowd n := by
  induction n with
  | zero =>
    refine ⟨_, ?_, crowd_zero⟩
    exact .step (m := (machine squares).restrict Fits) _ (.start start_oneOutput)
      ⟨trivial, trivial⟩
  | succ n ih =>
    obtain ⟨s, run, crowd⟩ := ih (by omega)
    have inside : n < maxStreamSurfaces := lt_of_lt_of_le (Nat.lt_of_succ_le room) (by decide)
    obtain ⟨first, after⟩ := crowd.next_next ⟨n, inside⟩ rfl
    have registered := run.step (Event.register n 0#32) ⟨trivial, trivial⟩
    have shown := registered.step (Event.dirty (nthId n) blankToken 5#64 fun _ => {})
      ⟨trivial, by
        have fits := crowd.fits ⟨n, inside⟩ rfl (by omega)
        rw [← first] at fits
        exact fits⟩
    exact ⟨_, shown, after⟩

variable {outputs : List Nat} {reads : List DrainAnswer} {app : AppStream}

theorem appMachine_mono {geometry : Nat → SurfaceGeometry} {s' : SurfaceServer} {conn : Nat}
    (bytes : wire (s.log conn) <+: wire (s'.log conn))
    (ports : (s.ports conn).reverse <+: (s'.ports conn).reverse)
    (run : (appMachine geometry outputs s conn).Run reads app) :
    (appMachine geometry outputs s' conn).Run reads app := by
  induction run with
  | start begun => exact .start begun
  | step answer _ allowed ih =>
    refine .step answer ih ⟨allowed.1, ?_⟩
    have requested := allowed.2
    split at requested
    · exact requested.trans ports
    · trivial
    · exact ⟨requested.1, requested.2.1, requested.2.2.trans bytes⟩
    · trivial
    · exact requested

/-- An app without room for one more surface fails. -/
theorem full_table_fails {conn : Nat} (run : (appMachine squares outputs s conn).Run reads app)
    (alive : app.failed = none) (ready : app.conn.pendingSurface = none) (idle : app.conn.Idle)
    (empty : app.conn.rxbuf = []) (full : xsurfaceMaxSurfaces ≤ app.conn.surfaces.length)
    (unknown : nthId n ∉ app.conn.surfaces.map SurfaceItem.id)
    (dynamic : dynamicSurfaceIdBase ≤ nthId n)
    (bytes : app.consumed ++ (surfaceMsg (fresh n)).encode <+: wire (s.log conn))
    (ports : app.imported ++ [n] <+: (s.ports conn).reverse) :
    ∃ reads' app', (appMachine squares outputs s conn).Run reads' app' ∧
      app'.failed = some .protocol := by
  have kept : app.conn.acceptHeader (surfaceMsg (fresh n)) =
      .loop { app.conn with pendingSurface := some (surfaceMsg (fresh n)) } := by
    refine XSurfaceConn.acceptHeader_surface rfl rfl dynamic rfl ?_ ?_ ?_ ?_ unknown
    · exact (show 0 < (8#32).toInt by decide)
    · exact (show 0 < (8#32).toInt by decide)
    · exact (show 0 < (32#32).toInt by decide)
    · exact (show 0#32 &&& ~~~surfaceFlagFlipY = 0#32 by decide)
  have header : app.conn.drain squares (.recv (.data (surfaceMsg (fresh n)).encode)) =
      .loop { app.conn with pendingSurface := some (surfaceMsg (fresh n)) } := by
    have complete : (app.conn.rxbuf ++ (surfaceMsg (fresh n)).encode).length = msgSize := by
      rw [empty, List.nil_append, XiosMsg.length_encode]
    have same : { app.conn with rxbuf := [] } = app.conn := by rw [← empty]
    have received := XSurfaceConn.receive_header idle complete
    rw [same, empty, List.nil_append, XiosMsg.decode_encode, kept] at received
    simp only [XSurfaceConn.drain, ready]
    exact received
  have refused : XSurfaceConn.drain squares
      { app.conn with pendingSurface := some (surfaceMsg (fresh n)) } (.port (.arrived n)) =
        .fail .protocol := by
    have absent : app.conn.surfaces.findIdx? (fun item => item.id = nthId n) = none := by
      simpa [List.findIdx?_eq_none_iff] using unknown
    have added : XSurfaceConn.addSurface
        { app.conn with pendingSurface := some (surfaceMsg (fresh n)) } (nthId n) 0#32
        (XSurfaceConn.wireGeometry (surfaceMsg (fresh n))) n = none := by
      simp only [XSurfaceConn.addSurface, absent, full, if_true]
      split <;> rfl
    have fits : XSurfaceConn.wireGeometry (surfaceMsg (fresh n)) = squares n := rfl
    simp only [XSurfaceConn.drain, XSurfaceConn.importPending]
    rw [if_neg (by simp [fits])]
    have flags : (surfaceMsg (fresh n)).d = 0#32 := rfl
    have named : (surfaceMsg (fresh n)).windowId = nthId n := rfl
    rw [flags, named, added]
  have asked : (surfaceMsg (fresh n)).encode.length ≤ app.conn.requested := by
    obtain ⟨noFence, noCursor, noSkip⟩ := idle
    simp [XSurfaceConn.requested, noFence, noCursor, noSkip, empty]
  have nonempty : (surfaceMsg (fresh n)).encode ≠ [] := by
    intro none
    have size := XiosMsg.length_encode (surfaceMsg (fresh n))
    rw [none] at size
    cases size
  have told : app.Allowed (wire (s.log conn)) (s.ports conn).reverse
      (.recv (.data (surfaceMsg (fresh n)).encode)) := by
    refine ⟨alive, ?_⟩
    rw [ready]
    exact ⟨nonempty, asked, bytes⟩
  have first := run.step (DrainAnswer.recv (.data (surfaceMsg (fresh n)).encode)) told
  have after : app.next squares (.recv (.data (surfaceMsg (fresh n)).encode)) =
      { app with
        consumed := app.consumed ++ (surfaceMsg (fresh n)).encode
        conn := { app.conn with pendingSurface := some (surfaceMsg (fresh n)) } } := by
    simp only [AppStream.next, header]
    simp [AppStream.answerBytes, AppStream.answerPorts]
  have waiting : (app.next squares (.recv (.data (surfaceMsg (fresh n)).encode))).Allowed
      (wire (s.log conn)) (s.ports conn).reverse (.port (.arrived n)) := by
    rw [after]
    exact ⟨alive, ports⟩
  refine ⟨_, _, first.step (DrainAnswer.port (.arrived n)) waiting, ?_⟩
  change ((app.next squares (.recv (.data (surfaceMsg (fresh n)).encode))).next squares
    (.port (.arrived n))).failed = some .protocol
  rw [after]
  simp only [AppStream.next, refused]

theorem ne_resize_of_mem_crowdTrace {event : Event} (inside : event ∈ crowdTrace n) :
    event ≠ .resize := by
  induction n with
  | zero =>
    rw [crowdTrace, List.mem_singleton] at inside
    rintro rfl
    cases inside
  | succ n ih =>
    rw [crowdTrace, List.mem_cons, List.mem_cons] at inside
    rcases inside with rfl | rfl | earlier
    · rintro ⟨⟩
    · rintro ⟨⟩
    · exact ih earlier

theorem Streams.imported {geometry : Nat → SurfaceGeometry}
    (streams : s.Streams geometry outputs.length fun _ => False) {i : Fin maxClients}
    {c : AppClient} (client : s.clients i = some c)
    (run : (appMachine geometry outputs s c.conn).Run reads app)
    (consumed : app.consumed = wire (s.log c.conn)) (ready : app.conn.pendingSurface = none) :
    app.imported = (s.ports c.conn).reverse := by
  obtain ⟨-, -, part, done, phase, got, parsed, -, size⟩ := streams.tracks run
  obtain ⟨introduced, whole, paired⟩ := streams.tells i c client (fun gone => gone)
  rw [consumed, whole, ready] at parsed
  have same := congrArg Reader.Outcome.out parsed
  simp only [Option.toList_none, List.append_nil] at same
  refine part.eq_of_length ?_
  rw [← size, ← same, paired.length_eq]

theorem squares_positive (surface : Nat) : (squares surface).Positive :=
  show (0 : Int) < 8 ∧ (0 : Int) < 8 ∧ (0 : Int) < 32 by decide

theorem app_accepts_stream_crowd :
    ∃ s, ((machine squares).restrict Fits).Run (crowdTrace 127) s ∧
      ∃ reads app, (appMachine squares [9] s 0).Run reads app ∧ app.failed = none ∧
        app.consumed = wire (s.log 0) ∧
          ∀ n, n < 127 → ∃ item ∈ app.conn.surfaces, item.id = nthId n ∧ item.retired = false := by
  obtain ⟨s, run, crowd⟩ := exists_crowd (n := 127) (Nat.le_refl _)
  obtain ⟨safe, reads, app, reading, alive, consumed, ready⟩ :=
    app_accepts_stream squares_positive run (show [9].length = _ from crowd.count.symm) 0
  refine ⟨s, run, reads, app, reading, alive, consumed, ?_⟩
  intro n few
  have inside : n < maxStreamSurfaces := lt_trans few (by decide)
  obtain ⟨e, entry, -, named, marked⟩ := crowd.taken ⟨n, inside⟩ few
  have agrees := (safe reads app reading).2 consumed ready 0 firstApp crowd.client rfl
  obtain ⟨item, known, same, -, shown⟩ :=
    (agrees (nthId n)).mpr ⟨⟨n, inside⟩, e, entry, marked, named⟩
  exact ⟨item, known, same, shown⟩

theorem exists_refused : ∃ trace s, (machine squares).Run trace s ∧
    (∀ event ∈ trace, event ≠ .resize) ∧ s.queue.count = 1 ∧ s.clients 0 = some firstApp ∧
      ∃ reads app, (appMachine squares [9] s 0).Run reads app ∧ app.failed = some .protocol := by
  obtain ⟨s, run, crowd⟩ := exists_crowd (n := 127) (Nat.le_refl _)
  have inside : 127 < maxStreamSurfaces := by decide
  have streams : s.Streams squares [9].length fun _ => False :=
    (show s.queue.count = [9].length from crowd.count) ▸ streams_of_run squares_positive run
  -- The app reads everything that was sent before the last surface.
  obtain ⟨introduced, pending, parsed, paired⟩ := streams.readable 0
  obtain ⟨reads, app, reading, alive, consumed, ready⟩ :=
    AppStream.exists_consumed (by decide) parsed paired
  obtain ⟨holds, idle, empty⟩ := streams.settled crowd.client reading consumed ready
  have imported := streams.imported crowd.client reading consumed ready
  have full : xsurfaceMaxSurfaces ≤ app.conn.surfaces.length := by
    rw [holds.size]
    exact (crowd.kept (by omega)).ge
  have unknown : nthId 127 ∉ app.conn.surfaces.map SurfaceItem.id :=
    holds.unknown (by decide) (by decide) (crowd.unheld (by omega)) (crowd.unshown (by omega))
  -- The server introduces one more surface all the same.
  obtain ⟨first, after⟩ := crowd.next_next ⟨127, inside⟩ rfl
  have last : (machine squares).Run (crowdTrace 128) (next squares (next squares s (.register 127 0#32))
      (.dirty (nthId 127) blankToken 5#64 fun _ => {})) :=
    (run.of_restrict.step (Event.register 127 0#32) trivial).step (Event.dirty _ _ _ _) trivial
  obtain ⟨log, ports⟩ := crowd.sent ⟨127, inside⟩ rfl
  refine ⟨_, _, last, fun _ => ne_resize_of_mem_crowdTrace, after.count, after.client, ?_⟩
  refine full_table_fails (n := 127) (appMachine_mono ?_ ?_ reading) alive ready idle empty full
    unknown (by decide) ?_ ?_
  · rw [log, wire_cons, wire_cons, List.append_assoc]
    exact List.prefix_append _ _
  · rw [ports, List.reverse_cons]
    exact List.prefix_append _ _
  · rw [log, wire_cons, wire_cons, consumed]
    simp [Sent.bytes]
  · rw [ports, List.reverse_cons, imported]
    exact List.prefix_refl _

/-- Without room in its table, the app finds the protocol broken even if nothing is replaced. -/
theorem not_app_accepts_stream :
    ¬∀ geometry : Nat → SurfaceGeometry, (∀ surface, (geometry surface).Positive) →
      ∀ trace s, (machine geometry).Run trace s → (∀ event ∈ trace, event ≠ .resize) →
        ∀ outputs : List Nat, outputs.length = s.queue.count →
          ∀ i c, s.clients i = some c → c.streamV2 = true →
            ∀ reads app, (appMachine geometry outputs s c.conn).Run reads app →
              app.failed ≠ some .protocol := by
  intro accepted
  obtain ⟨trace, s, run, kept, count, client, reads, app, reading, broken⟩ := exists_refused
  exact accepted squares squares_positive trace s run kept [9] count.symm 0 firstApp client
    (by decide) reads app reading broken

end SurfaceServer

end Xios
