import Xios.Canvas.Records

/-! What the hosts know about the windows, and the changes that keep this true. -/

namespace Xios

namespace CanvasServer

theorem sendRecord_eq (s : CanvasServer) (conn : Nat) (m : XiosMsg) (payload : List UInt8)
    (fence : Option Canvas) (result : SendResult) :
    ∃ log, s.sendRecord conn m payload fence result = { s with log } ∧
      Written m payload fence (s.log conn) (log conn) ∧ ∀ o, o ≠ conn → log o = s.log o := by
  cases result with
  | sent =>
    refine ⟨_, rfl, ?_, fun o other => Function.update_of_ne other _ _⟩
    rw [Function.update_self]
    exact .whole _
  | wouldBlock => exact ⟨s.log, rfl, .nothing _, fun _ _ => rfl⟩
  | failed written =>
    refine ⟨_, rfl, ?_, fun o other => Function.update_of_ne other _ _⟩
    rw [Function.update_self]
    exact .part _ _

theorem dropClientFd_eq (s : CanvasServer) (fd : Nat) :
    ∃ clients gone, s.dropClientFd fd = { s with clients } ∧ s.clients.Perm (gone ++ clients) ∧
      ((∃ c ∈ s.clients, c.fd = fd) → ∃ c ∈ gone, c.fd = fd) := by
  unfold dropClientFd
  cases found : s.clients.findIdx? fun c => c.fd = fd with
  | none =>
    refine ⟨s.clients, [], rfl, .refl _, fun ⟨c, member, same⟩ => ?_⟩
    have absent := List.findIdx?_eq_none_iff.mp found c member
    simp [same] at absent
  | some i =>
    obtain ⟨inside, match_, -⟩ := List.findIdx?_eq_some_iff_getElem.mp found
    refine ⟨_, [s.clients[i]], rfl, SwapTable.perm_takeOut inside, fun _ => ?_⟩
    exact ⟨s.clients[i], List.mem_singleton_self _, by simpa using match_⟩

variable {s : CanvasServer} {id : BitVec 32} {k : Fin maxCanvasWindows}

theorem windowId_of_windowFind (found : s.windowFind id = some k) :
    id ≠ 0#32 ∧ (s.windows k).windowId = id := by
  unfold windowFind at found
  split at found
  · cases found
  · next nonzero => exact ⟨nonzero, by simpa using List.find?_some found⟩

theorem windowId_ne_of_windowFind (nonzero : id ≠ 0#32) (absent : s.windowFind id = none)
    (k : Fin maxCanvasWindows) : (s.windows k).windowId ≠ id := by
  rw [windowFind, if_neg nonzero, List.find?_eq_none] at absent
  simpa using absent k (List.mem_finRange k)

variable {c : CanvasClient}

theorem mem_of_clientForApp {appId : List UInt8} (found : s.clientForApp appId = some c) :
    c ∈ s.clients ∧ c.appId = appId := by
  unfold clientForApp at found
  split at found
  · cases found
  · exact ⟨List.mem_of_find?_eq_some found, by simpa using List.find?_some found⟩

theorem setWindow_same (s : CanvasServer) (k : Fin maxCanvasWindows) (e : CanvasEntry) :
    (s.setWindow k e).windows k = e :=
  Function.update_self _ _ _

theorem setWindow_other (s : CanvasServer) {j : Fin maxCanvasWindows} (e : CanvasEntry)
    (other : j ≠ k) : (s.setWindow k e).windows j = s.windows j :=
  Function.update_of_ne other _ _

/-- The reader hands a window over. -/
def HandingOver (s : CanvasServer) (id : BitVec 32) : Prop :=
  ∃ i h, s.reader = .handing i h ∧ h.windowId = id

/-- The canvas of an announced window has been passed on to a host of its app. -/
structure Passed (s : CanvasServer) (e : CanvasEntry) : Prop where
  -- The window is announced, and it has a canvas.
  announced : e.announced = true
  surface : e.surface = true
  -- Nothing waits to be sent.
  pending : e.deliverPending = .none
  passed : s.created ≠ some e.windowId
  bound : ∃ c ∈ s.clients, c.appId = e.appId

/-- The canvas of a window need not be passed on, or waits for the reader to do so. -/
def Waits (s : CanvasServer) (e : CanvasEntry) : Prop :=
  e.announced = false ∨ e.surface = false ∨ e.deliverPending ≠ .none ∨
    ∀ c ∈ s.clients, c.appId ≠ e.appId

variable {e : CanvasEntry}

theorem Waits.not_passed (waits : s.Waits e) : ¬s.Passed e := by
  intro passed
  obtain ⟨c, member, app⟩ := passed.bound
  rcases waits with hidden | empty | pending | unbound
  · exact Bool.false_ne_true (hidden.symm.trans passed.announced)
  · exact Bool.false_ne_true (empty.symm.trans passed.surface)
  · exact pending passed.pending
  · exact unbound c member app

/-- What the hosts know about a window. -/
structure Known (s : CanvasServer) (e : CanvasEntry) : Prop where
  -- The host it was announced to still knows it.
  told : e.announced = true ∨ e.deliverPending = .geom →
    ∃ conn, s.home e.windowId = some conn ∧ introduced e.windowId (s.log conn) = true
  -- That host has its canvas, unless that is being passed on.
  holds : s.Passed e → ¬s.HandingOver e.windowId → ∀ c ∈ s.clients,
    s.home e.windowId = some c.conn → c.appId = e.appId →
    lastPort e.windowId (s.log c.conn) = some e.canvas

/-- What is known while a canvas is handed over. -/
structure Flying (s : CanvasServer) (h : Handoff) : Prop where
  -- The window and the canvas are real.
  window : h.windowId ≠ 0#32
  made : 0 < h.canvas.number ∧ h.canvas.number ≤ s.surfaces
  -- The descriptor stands for the same connection.
  conn : h.conn < s.conns
  host : ∀ c ∈ s.clients, c.fd = h.fd ↔ c.conn = h.conn
  -- A new canvas goes to the host the window was announced to, and gets there.
  home : h.kind ≠ .new → s.home h.windowId = some h.conn
  works : h.kind ≠ .new → h.delivered ≠ some false
  port : h.delivered = some true → lastPort h.windowId (s.log h.conn) = some h.canvas
  -- The host knows the window, unless that has another canvas by now.
  told : h.wrote = true → ∀ k, (s.windows k).windowId = h.windowId →
    (s.windows k).canvas = h.canvas → introduced h.windowId (s.log h.conn) = true
  -- A window with another canvas has something waiting to be sent.
  current : ∀ k, (s.windows k).windowId = h.windowId → s.Passed (s.windows k) →
    (s.windows k).canvas = h.canvas

/-- The tables are consistent, and the hosts know what they should. -/
structure Fine (s : CanvasServer) : Prop where
  -- Hosts have different connections and descriptors.
  conns : (s.clients.map CanvasClient.conn).Nodup
  fds : (s.clients.map CanvasClient.fd).Nodup
  known : ∀ c ∈ s.clients, c.conn < s.conns ∧ c.appId ≠ []
  -- Windows were announced to connections that exist.
  homes : ∀ id conn, s.home id = some conn → conn < s.conns
  -- Free places are blank, and no window has two places.
  blank : ∀ k, (s.windows k).windowId = 0#32 → s.windows k = {}
  single : ∀ j k, (s.windows j).windowId ≠ 0#32 →
    (s.windows j).windowId = (s.windows k).windowId → j = k
  -- Canvases have been numbered.
  made : ∀ k, (s.windows k).surface = true →
    0 < (s.windows k).number ∧ (s.windows k).number ≤ s.surfaces
  entry : ∀ k, (s.windows k).windowId ≠ 0#32 → s.Known (s.windows k)
  -- The hand-over under way is known.
  flight : ∀ i h, s.reader = .handing i h → s.Flying h
  ordered : ∀ conn, HostSent.InOrder (s.log conn)

/-- A step that at most writes a harmless record and disconnects hosts. -/
structure Calm (s s' : CanvasServer) : Prop where
  -- Everything else stays as it is.
  windows : s'.windows = s.windows
  reader : s'.reader = s.reader
  surfaces : s'.surfaces = s.surfaces
  number : s'.conns = s.conns
  created : s'.created = s.created
  home : s'.home = s.home
  -- Hosts may be disconnected.
  clients : ∃ gone, s.clients.Perm (gone ++ s'.clients)
  -- Hosts still know the windows there are, and have the same canvases.
  told : ∀ k conn, introduced (s.windows k).windowId (s.log conn) = true →
    introduced (s.windows k).windowId (s'.log conn) = true
  port : ∀ id conn, lastPort id (s'.log conn) = lastPort id (s.log conn)
  ordered : (∀ conn, HostSent.InOrder (s.log conn)) → ∀ conn, HostSent.InOrder (s'.log conn)

theorem Calm.refl (s : CanvasServer) : s.Calm s :=
  ⟨rfl, rfl, rfl, rfl, rfl, rfl, ⟨[], .refl _⟩, fun _ _ => id, fun _ _ => rfl, id⟩

variable {s' : CanvasServer}

theorem Calm.trans {s'' : CanvasServer} (first : s.Calm s') (second : s'.Calm s'') :
    s.Calm s'' := by
  obtain ⟨gone, before⟩ := first.clients
  obtain ⟨lost, after⟩ := second.clients
  refine ⟨second.windows.trans first.windows, second.reader.trans first.reader,
    second.surfaces.trans first.surfaces, second.number.trans first.number,
    second.created.trans first.created, second.home.trans first.home, ⟨gone ++ lost, ?_⟩,
    fun k conn known => ?_, fun id conn => (second.port id conn).trans (first.port id conn),
    second.ordered ∘ first.ordered⟩
  · rw [List.append_assoc]
    exact before.trans (.append_left gone after)
  · have between := first.told k conn known
    rw [← first.windows] at between ⊢
    exact second.told k conn between

theorem Calm.mem (calm : s.Calm s') (member : c ∈ s'.clients) : c ∈ s.clients := by
  obtain ⟨gone, perm⟩ := calm.clients
  exact perm.mem_iff.mpr (List.mem_append_right gone member)

theorem Calm.passed (calm : s.Calm s') (passed : s'.Passed e) : s.Passed e := by
  obtain ⟨c, member, app⟩ := passed.bound
  exact { passed with passed := calm.created ▸ passed.passed, bound := ⟨c, calm.mem member, app⟩ }

/-- A calm step keeps what holds of the windows, the reader and the hosts. -/
theorem Fine.calm (fine : s.Fine) (calm : s.Calm s') : s'.Fine := by
  obtain ⟨gone, perm⟩ := calm.clients
  have still : ∀ {α : Type} (f : CanvasClient → α), (s.clients.map f).Nodup →
      (s'.clients.map f).Nodup := by
    intro α f different
    rw [(perm.map f).nodup_iff, List.map_append] at different
    exact different.of_append_right
  constructor
  · exact still _ fine.conns
  · exact still _ fine.fds
  · intro c member
    rw [calm.number]
    exact fine.known c (calm.mem member)
  · rw [calm.home, calm.number]
    exact fine.homes
  · rw [calm.windows]
    exact fine.blank
  · rw [calm.windows]
    exact fine.single
  · rw [calm.windows, calm.surfaces]
    exact fine.made
  · intro k used
    rw [calm.windows] at used ⊢
    obtain ⟨told, holds⟩ := fine.entry k used
    constructor
    · intro waiting
      obtain ⟨conn, home, known⟩ := told waiting
      exact ⟨conn, by rw [calm.home, home], calm.told k conn known⟩
    · intro passed still c member
      rw [calm.home, calm.port]
      refine holds (calm.passed passed) (fun handing => still ?_) c (calm.mem member)
      rw [HandingOver, calm.reader]
      exact handing
  · intro i h
    rw [calm.reader]
    intro handing
    have flying := fine.flight i h handing
    constructor
    · exact flying.window
    · rw [calm.surfaces]
      exact flying.made
    · rw [calm.number]
      exact flying.conn
    · exact fun c member => flying.host c (calm.mem member)
    · rw [calm.home]
      exact flying.home
    · exact flying.works
    · rw [calm.port]
      exact flying.port
    · rw [calm.windows]
      intro wrote k same canvas
      have known := flying.told wrote k same canvas
      rw [← same] at known ⊢
      exact calm.told k h.conn known
    · rw [calm.windows]
      exact fun k same passed => flying.current k same (calm.passed passed)
  · exact calm.ordered fine.ordered

theorem calm_dropClientFd (s : CanvasServer) (fd : Nat) : s.Calm (s.dropClientFd fd) := by
  obtain ⟨clients, gone, same, perm, -⟩ := dropClientFd_eq s fd
  rw [same]
  exact ⟨rfl, rfl, rfl, rfl, rfl, rfl, ⟨gone, perm⟩, fun _ _ => id, fun _ _ => rfl, id⟩

theorem calm_sendRecord {conn : Nat} {m : XiosMsg} {payload : List UInt8} {fence : Option Canvas}
    (stays : ∀ k, m.windowId = (s.windows k).windowId → m.type ≠ msgWindowGone)
    (follows : (HostSent.record m payload fence).Follows (s.log conn)) (result : SendResult) :
    s.Calm (s.sendRecord conn m payload fence result) := by
  obtain ⟨log, same, written, other⟩ := sendRecord_eq s conn m payload fence result
  rw [same]
  refine ⟨rfl, rfl, rfl, rfl, rfl, rfl, ⟨[], .refl _⟩, fun k o known => ?_, fun id o => ?_,
    fun ordered o => ?_⟩
  · by_cases here : o = conn
    · subst here
      exact written.introduced (stays k) known
    · dsimp only
      rw [other o here]
      exact known
  · by_cases here : o = conn
    · subst here
      exact written.lastPort id
    · dsimp only
      rw [other o here]
  · by_cases here : o = conn
    · subst here
      exact written.inOrder (ordered o) follows
    · dsimp only
      rw [other o here]
      exact ordered o

theorem calm_sendMsg {m : XiosMsg} {payload : List UInt8} {fence : Option Canvas}
    (stays : ∀ k, m.windowId = (s.windows k).windowId → m.type ≠ msgWindowGone)
    (follows : (HostSent.record m (payload.take canvasTextMax) fence).Follows (s.log c.conn))
    (result : SendResult) : s.Calm (s.sendMsg c m payload fence result) := by
  have sent := calm_sendRecord stays follows result
  unfold sendMsg
  cases result with
  | sent | wouldBlock => exact sent
  | failed written => exact sent.trans (calm_dropClientFd _ c.fd)

theorem calm_sendLatestFrame (known : introduced (s.windows k).windowId (s.log c.conn) = true)
    (port : lastPort (s.windows k).windowId (s.log c.conn) = some (s.windows k).canvas)
    (result : SendResult) : s.Calm (s.sendLatestFrame k c result) := by
  unfold sendLatestFrame
  dsimp only
  split
  · exact .refl s
  · have stays : (frameMsg (s.windows k)).type ≠ msgWindowGone := by
      change msgNativeFrame ≠ msgWindowGone
      decide
    exact calm_sendMsg (fun _ _ => stays) ⟨fun _ => known, fun _ => ⟨_, rfl, port⟩⟩ result

/-- A window may change as long as no hand-off in progress is about its old canvas. -/
theorem Fine.setWindow (fine : s.Fine) (used : (s.windows k).windowId ≠ 0#32)
    (same : e.windowId = (s.windows k).windowId)
    (made : e.surface = true → 0 < e.number ∧ e.number ≤ s.surfaces) (known : s.Known e)
    (told : ∀ i h, s.reader = .handing i h → e.windowId = h.windowId → h.wrote = true →
      e.canvas = h.canvas → introduced h.windowId (s.log h.conn) = true)
    (current : ∀ i h, s.reader = .handing i h → e.windowId = h.windowId → s.Passed e →
      e.canvas = h.canvas) : (s.setWindow k e).Fine := by
  have here := setWindow_same s k e
  have other := fun j => setWindow_other s (k := k) (j := j) e
  have ids : ∀ j, ((s.setWindow k e).windows j).windowId = (s.windows j).windowId := by
    intro j
    by_cases at_ : j = k
    · rw [at_, here, same]
    · rw [other j at_]
  refine { fine with blank := ?_, single := ?_, made := ?_, entry := ?_, flight := ?_ }
  · intro j free
    rw [ids] at free
    have away : j ≠ k := fun at_ => used (at_ ▸ free)
    rw [other j away]
    exact fine.blank j free
  · intro i j
    rw [ids, ids]
    exact fine.single i j
  · intro j
    by_cases at_ : j = k
    · rw [at_, here]
      exact made
    · rw [other j at_]
      exact fine.made j
  · intro j
    by_cases at_ : j = k
    · rw [at_, here]
      exact fun _ => ⟨known.told, fun passed => known.holds { passed with }⟩
    · rw [other j at_]
      intro taken
      have before := fine.entry j taken
      exact ⟨before.told, fun passed => before.holds { passed with }⟩
  · intro i h handing
    have flying := fine.flight i h handing
    refine { flying with told := fun wrote j => ?_, current := fun j => ?_ }
    · by_cases at_ : j = k
      · rw [at_, here]
        exact fun window canvas => told i h handing window wrote canvas
      · rw [other j at_]
        exact flying.told wrote j
    · by_cases at_ : j = k
      · rw [at_, here]
        exact fun window passed => current i h handing window { passed with }
      · rw [other j at_]
        exact fun window passed => flying.current j window { passed with }

theorem Fine.setSame (fine : s.Fine) (used : (s.windows k).windowId ≠ 0#32)
    (same : e.windowId = (s.windows k).windowId) (surface : e.surface = (s.windows k).surface)
    (canvas : e.canvas = (s.windows k).canvas) (known : s.Known e)
    (passed : s.Passed e → s.Passed (s.windows k)) : (s.setWindow k e).Fine := by
  refine fine.setWindow used same (fun has => ?_) known (fun i h handing window => ?_)
    fun i h handing window now => ?_
  · rw [show e.number = (s.windows k).number from congrArg Canvas.number canvas]
    exact fine.made k (surface ▸ has)
  · rw [canvas]
    exact fun wrote => (fine.flight i h handing).told wrote k (same.symm.trans window)
  · rw [canvas]
    exact (fine.flight i h handing).current k (same.symm.trans window) (passed now)

theorem Fine.setPlain (fine : s.Fine) (used : (s.windows k).windowId ≠ 0#32)
    (same : e.windowId = (s.windows k).windowId) (surface : e.surface = (s.windows k).surface)
    (canvas : e.canvas = (s.windows k).canvas) (announced : e.announced = (s.windows k).announced)
    (pending : e.deliverPending = (s.windows k).deliverPending)
    (app : e.appId = (s.windows k).appId) : (s.setWindow k e).Fine := by
  have before := fine.entry k used
  have passed : s.Passed e → s.Passed (s.windows k) := fun now =>
    ⟨announced ▸ now.announced, surface ▸ now.surface, pending ▸ now.pending, same ▸ now.passed,
      app ▸ now.bound⟩
  refine fine.setSame used same surface canvas ⟨?_, fun now => ?_⟩ passed
  · rw [announced, pending, same]
    exact before.told
  · rw [same, app, canvas]
    exact before.holds (passed now)

theorem Fine.setWaiting (fine : s.Fine) (used : (s.windows k).windowId ≠ 0#32)
    (same : e.windowId = (s.windows k).windowId) (surface : e.surface = (s.windows k).surface)
    (canvas : e.canvas = (s.windows k).canvas) (announced : e.announced = (s.windows k).announced)
    (geom : e.deliverPending = .geom → (s.windows k).announced = true ∨
      (s.windows k).deliverPending = .geom)
    (waits : s.Waits e) : (s.setWindow k e).Fine := by
  have idle : ¬s.Passed e := waits.not_passed
  refine fine.setSame used same surface canvas ⟨fun known => ?_, fun passed => absurd passed idle⟩
    fun passed => absurd passed idle
  rw [same]
  refine (fine.entry k used).told (known.elim (fun marked => .inl ?_) geom)
  rw [← announced, marked]

theorem Fine.withdraw (fine : s.Fine) (k : Fin maxCanvasWindows) : (s.setWindow k {}).Fine := by
  have here := setWindow_same s k {}
  have other := fun j => setWindow_other s (k := k) (j := j) {}
  refine { fine with blank := ?_, single := ?_, made := ?_, entry := ?_, flight := ?_ }
  · intro j free
    by_cases at_ : j = k
    · rw [at_, here]
    · rw [other j at_] at free ⊢
      exact fine.blank j free
  · intro i j used same
    have first : i ≠ k := by
      rintro rfl
      exact used (by rw [here])
    have second : j ≠ k := by
      rintro rfl
      exact used (by rw [same, here])
    rw [other i first, other j second] at *
    exact fine.single i j used same
  · intro j
    by_cases at_ : j = k
    · rw [at_, here]
      exact nofun
    · rw [other j at_]
      exact fine.made j
  · intro j used
    have away : j ≠ k := by
      rintro rfl
      exact used (by rw [here])
    rw [other j away] at used ⊢
    have before := fine.entry j used
    exact ⟨before.told, fun passed => before.holds { passed with }⟩
  · intro i h handing
    have flying := fine.flight i h handing
    refine { flying with told := fun wrote j window => ?_, current := fun j window => ?_ }
    · have away : j ≠ k := by
        rintro rfl
        exact flying.window (by rw [← window, here])
      rw [other j away] at window ⊢
      exact flying.told wrote j window
    · have away : j ≠ k := by
        rintro rfl
        exact flying.window (by rw [← window, here])
      rw [other j away] at window ⊢
      exact fun passed => flying.current j window { passed with }

theorem Fine.occupy (fine : s.Fine) (free : (s.windows k).windowId = 0#32) (nonzero : id ≠ 0#32)
    (absent : ∀ j, (s.windows j).windowId ≠ id) :
    (s.setWindow k { s.windows k with windowId := id }).Fine := by
  rw [fine.blank k free]
  have here := setWindow_same s k { windowId := id }
  have other := fun j => setWindow_other s (k := k) (j := j) { windowId := id }
  refine { fine with blank := ?_, single := ?_, made := ?_, entry := ?_, flight := ?_ }
  · intro j blank
    have away : j ≠ k := by
      rintro rfl
      exact nonzero (by rw [here] at blank; exact blank)
    rw [other j away] at blank ⊢
    exact fine.blank j blank
  · intro i j used same
    by_cases first : i = k
    · by_cases second : j = k
      · exact first.trans second.symm
      · rw [first, here, other j second] at same
        exact absurd same.symm (absent j)
    · by_cases second : j = k
      · rw [other i first, second, here] at same
        exact absurd same (absent i)
      · rw [other i first] at used same
        rw [other j second] at same
        exact fine.single i j used same
  · intro j
    by_cases at_ : j = k
    · rw [at_, here]
      exact nofun
    · rw [other j at_]
      exact fine.made j
  · intro j used
    by_cases at_ : j = k
    · rw [at_, here]
      exact ⟨by simp, fun passed => absurd passed.announced Bool.false_ne_true⟩
    · rw [other j at_] at used ⊢
      have before := fine.entry j used
      exact ⟨before.told, fun passed => before.holds { passed with }⟩
  · intro i h handing
    have flying := fine.flight i h handing
    refine { flying with told := fun wrote j window canvas => ?_, current := fun j window => ?_ }
    · by_cases at_ : j = k
      · -- The canvas that is handed over has a number, and the new window's has none.
        rw [at_, here] at canvas
        have number : 0 = h.canvas.number := congrArg Canvas.number canvas
        have made := flying.made.1
        omega
      · rw [other j at_] at window canvas
        exact flying.told wrote j window canvas
    · by_cases at_ : j = k
      · rw [at_, here]
        exact fun passed => absurd passed.announced Bool.false_ne_true
      · rw [other j at_] at window ⊢
        exact fun passed => flying.current j window { passed with }

theorem Fine.making (fine : s.Fine) (ready : s.created = none) (created : Option (BitVec 32)) :
    Fine { s with surfaces := s.surfaces + 1, created } := by
  have passed : ∀ e, Passed { s with surfaces := s.surfaces + 1, created } e → s.Passed e :=
    fun e now => { now with passed := by rw [ready]; exact nofun }
  refine { fine with made := ?_, entry := ?_, flight := ?_ }
  · intro k has
    obtain ⟨positive, below⟩ := fine.made k has
    exact ⟨positive, Nat.le_succ_of_le below⟩
  · intro k used
    have before := fine.entry k used
    exact ⟨before.told, fun now => before.holds (passed _ now)⟩
  · intro i h handing
    have flying := fine.flight i h handing
    obtain ⟨positive, below⟩ := flying.made
    exact { flying with
      made := ⟨positive, Nat.le_succ_of_le below⟩
      current := fun k window now => flying.current k window (passed _ now) }

theorem Fine.clear (fine : s.Fine) (created : s.created = none ∨ s.created = some id)
    (waits : ∀ k, (s.windows k).windowId = id → s.Waits (s.windows k)) :
    Fine { s with created := none } := by
  have passed : ∀ k, Passed { s with created := none } (s.windows k) → s.Passed (s.windows k) := by
    intro k now
    refine { now with passed := fun same => ?_ }
    rcases created with none | some
    · rw [none] at same
      cases same
    · rw [some] at same
      have still := waits k (Option.some.inj same).symm
      exact (show Waits { s with created := none } _ from still).not_passed now
  refine { fine with entry := ?_, flight := ?_ }
  · intro k used
    have before := fine.entry k used
    exact ⟨before.told, fun now => before.holds (passed k now)⟩
  · intro i h handing
    have flying := fine.flight i h handing
    exact { flying with current := fun k window now => flying.current k window (passed k now) }

end CanvasServer

end Xios
