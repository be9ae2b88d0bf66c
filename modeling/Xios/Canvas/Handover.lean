import Xios.Canvas.ServerLaws

/-! Each call of the compositor and each step of the reader keeps true what the hosts know. -/

namespace Xios

namespace CanvasServer

variable {s : CanvasServer}
/-- A window gets a new canvas, in its own place or in a free one. -/
theorem Fine.create (fine : s.Fine) (ready : s.created = none) (id w h : BitVec 32)
    (stride : Option (BitVec 32)) : (s.create id w h stride).Fine := by
  unfold CanvasServer.create
  split
  · exact fine
  · next nonzero =>
    -- Whether or not the window had a place, it has one now and everything is fine.
    have placed : ∀ k s', s.windowAlloc id = some (k, s') →
        s'.Fine ∧ s'.created = none ∧ (s'.windows k).windowId = id := by
      intro k s' found
      unfold windowAlloc at found
      split at found
      · next k' known =>
        obtain ⟨rfl, rfl⟩ := Prod.mk.inj (Option.some.inj found)
        exact ⟨fine, ready, (windowId_of_windowFind known).2⟩
      · next unknown =>
        split at found
        · next k' free =>
          obtain ⟨rfl, rfl⟩ := Prod.mk.inj (Option.some.inj found)
          refine ⟨fine.occupy (by simpa using List.find?_some free) nonzero
            (windowId_ne_of_windowFind nonzero unknown), ready, ?_⟩
          rw [setWindow_same]
        · cases found
    split
    · exact fine
    · next k s' found =>
      obtain ⟨fine, ready, window⟩ := placed k s' found
      have used : (s'.windows k).windowId ≠ 0#32 := window ▸ nonzero
      have before := fine.entry k used
      split
      -- No canvas came of it: the place holds none, so nothing about it can have been passed on.
      · refine fine.setWindow used rfl nofun ⟨before.told, fun passed => ?_⟩
          (fun i h handing same wrote canvas => ?_) fun i h handing same passed => ?_
        · exact absurd passed.surface Bool.false_ne_true
        · exact (fine.flight i h handing).told wrote k same canvas
        · exact absurd passed.surface Bool.false_ne_true
      -- An announced window gets a canvas its host lacks, until the compositor tells of it.
      · have idle : ∀ {e : CanvasEntry} {s'' : CanvasServer},
            s''.created = (if (s'.windows k).announced then some id else s'.created) →
            e.windowId = id → e.announced = (s'.windows k).announced → ¬s''.Passed e := by
          intro e s'' created same announced passed
          refine passed.passed ?_
          rw [created, ← announced, passed.announced, if_pos rfl, same]
        refine (fine.making ready _).setWindow used rfl
          (fun _ => ⟨Nat.succ_pos _, Nat.le_refl _⟩)
          ⟨before.told, fun passed => absurd passed (idle rfl window rfl)⟩
          (fun i h handing same wrote canvas => ?_)
          fun i h handing same passed => absurd passed (idle rfl window rfl)
        have number : s'.surfaces + 1 = h.canvas.number := congrArg Canvas.number canvas
        have below := (fine.flight i h handing).made.2
        omega

theorem Fine.unbound (fine : s.Fine) {appId : List UInt8} (absent : s.clientForApp appId = none)
    (c : CanvasClient) (member : c ∈ s.clients) :
    c.appId ≠ appId := by
  unfold clientForApp at absent
  split at absent
  · next empty =>
    rw [empty]
    exact (fine.known c member).2
  · simpa using List.find?_eq_none.mp absent c member

theorem Fine.waits_absent (fine : s.Fine) {id : BitVec 32} (absent : s.windowFind id = none)
    (k : Fin maxCanvasWindows) (window : (s.windows k).windowId = id) : s.Waits (s.windows k) := by
  by_cases zero : id = 0#32
  · exact .inl (by rw [fine.blank k (window.trans zero)])
  · exact absurd window (windowId_ne_of_windowFind zero absent k)

theorem Fine.waits_found (fine : s.Fine) {id : BitVec 32} {k : Fin maxCanvasWindows}
    (found : s.windowFind id = some k) {e : CanvasEntry} (waits : s.Waits e)
    (j : Fin maxCanvasWindows) (window : ((s.setWindow k e).windows j).windowId = id) :
    (s.setWindow k e).Waits ((s.setWindow k e).windows j) := by
  obtain ⟨nonzero, here⟩ := windowId_of_windowFind found
  by_cases at_ : j = k
  · rw [at_, setWindow_same]
    exact waits
  · rw [setWindow_other s e at_] at window
    exact absurd (fine.single j k (window ▸ nonzero) (window.trans here.symm)) at_

theorem Fine.announce (fine : s.Fine) (id : BitVec 32) (appId title : List UInt8)
    (flags : BitVec 32) :
    (s.announce id appId title flags).Fine ∧
      (s.announce id appId title flags).created = s.created ∧
      ∀ k, ((s.announce id appId title flags).windows k).windowId = id →
        (s.announce id appId title flags).Waits
          ((s.announce id appId title flags).windows k) := by
  unfold CanvasServer.announce
  split
  · next absent => exact ⟨fine, rfl, fine.waits_absent absent⟩
  · next k found =>
    obtain ⟨nonzero, window⟩ := windowId_of_windowFind found
    have used : (s.windows k).windowId ≠ 0#32 := window ▸ nonzero
    split
    · next empty =>
      refine ⟨fine, rfl, fun j same => .inr (.inl ?_)⟩
      rw [fine.single j k (same ▸ nonzero) (same.trans window.symm), empty]
    · dsimp only
      split
      -- Without a host of the app the announcement has nobody to wait for.
      · next absent =>
        exact ⟨fine.setWaiting used rfl rfl rfl rfl .inr (.inr (.inr (.inr (fine.unbound absent)))),
          rfl, fine.waits_found found (.inr (.inr (.inr (fine.unbound absent))))⟩
      · exact ⟨fine.setWaiting used rfl rfl rfl rfl nofun (.inr (.inr (.inl nofun))), rfl,
          fine.waits_found found (.inr (.inr (.inl nofun)))⟩

theorem Fine.geom (fine : s.Fine) (id : BitVec 32) :
    (s.geom id).Fine ∧ (s.geom id).created = s.created ∧
      ∀ k, ((s.geom id).windows k).windowId = id → (s.geom id).Waits ((s.geom id).windows k) := by
  unfold CanvasServer.geom
  split
  · next absent => exact ⟨fine, rfl, fine.waits_absent absent⟩
  · next k found =>
    obtain ⟨nonzero, window⟩ := windowId_of_windowFind found
    have used : (s.windows k).windowId ≠ 0#32 := window ▸ nonzero
    have only : ∀ j, (s.windows j).windowId = id → j = k := fun j same =>
      fine.single j k (same ▸ nonzero) (same.trans window.symm)
    dsimp only
    split
    -- An unnamed app has no host, and a host that is missing is told when it binds.
    · next empty =>
      exact ⟨fine, rfl, fun j same => .inr (.inl (by rw [only j same, empty]))⟩
    · split
      · next absent =>
        exact ⟨fine, rfl, fun j same => .inr (.inr (.inr (only j same ▸ fine.unbound absent)))⟩
      · split
        · next waiting =>
          exact ⟨fine, rfl, fun j same => .inr (.inr (.inl (by rw [only j same, waiting]; nofun)))⟩
        · have pending : (if (s.windows k).announced = true then DeliverKind.geom else .new) ≠
              .none := by
            split <;> exact nofun
          refine ⟨fine.setWaiting used rfl rfl rfl rfl (fun waiting => .inl ?_)
            (.inr (.inr (.inl pending))), rfl, fine.waits_found found (.inr (.inr (.inl pending)))⟩
          by_contra hidden
          rw [if_neg hidden] at waiting
          cases waiting

/-- The host that records about a window would go to is the one it was announced to. -/
def AtHome (s : CanvasServer) (e : CanvasEntry) : Prop :=
  ∀ c, s.clientForApp e.appId = some c → s.home e.windowId = some c.conn
  deriving Decidable

/--
What has to be true for the marks of a window to be right.

A window is marked as announced for all hosts of its app at once. The mark that something waits
is taken off before that is sent. That a new canvas did not get to its host is not noted. And a
window that came back with a canvas of the same generation is taken for the one that went away.
-/
def Careful (s : CanvasServer) : Event → Prop
  | .title id _ _ =>
    ∀ k, s.windowFind id = some k → (s.windows k).announced = true → s.AtHome (s.windows k)
  | .notifyFrame id _ _ _ =>
    ∀ k, s.windowFind id = some k → (s.windows k).announced = true →
      (s.windows k).deliverPending = .none → s.AtHome (s.windows k) ∧ ¬s.HandingOver id
  | .scan _ =>
    ∀ k : Fin maxCanvasWindows, s.reader = .scanning k.val →
      (s.windows k).deliverPending = .geom → s.AtHome (s.windows k)
  | .deliver ok => ok = false → ∀ i h, s.reader = .handing i h → h.kind = .new
  | .finish _ =>
    ∀ i h, s.reader = .handing i h → ∀ k, s.windowFind h.windowId = some k →
      (s.windows k).canvasGeneration = h.canvas.generation →
      (s.windows k).number = h.canvas.number
  | _ => True

theorem Fine.notifyFrame (fine : s.Fine) (ready : s.created = none) {id : BitVec 32}
    {token : List UInt8} {eventValue : BitVec 64} {result : SendResult}
    (careful : s.Careful (.notifyFrame id token eventValue result)) :
    (s.notifyFrame id token eventValue result).Fine := by
  unfold CanvasServer.notifyFrame
  split
  · exact fine
  · split
    · exact fine
    · next k found =>
      obtain ⟨nonzero, window⟩ := windowId_of_windowFind found
      have used : (s.windows k).windowId ≠ 0#32 := window ▸ nonzero
      dsimp only
      split
      · exact fine
      · next surface =>
        have noted : (s.setWindow k { s.windows k with
            frameGeneration := (s.windows k).canvasGeneration, frameEventValue := eventValue
            frameToken := token, frameValid := true }).Fine :=
          fine.setPlain used rfl rfl rfl rfl rfl rfl
        split
        · exact noted
        · next open_ =>
          simp only [not_or, Bool.not_eq_false, ne_eq, not_not] at open_ surface
          split
          · exact noted
          · next c bound =>
            obtain ⟨member, app⟩ := mem_of_clientForApp bound
            -- The host knows the window, and no hand-over of its canvas is under way.
            obtain ⟨home, still⟩ := careful k found open_.1 open_.2
            have told := fine.entry k used
            have here := home c bound
            refine noted.calm (calm_sendLatestFrame ?_ ?_ result)
            · rw [setWindow_same]
              obtain ⟨conn, at_, known⟩ := told.told (.inl open_.1)
              rw [here] at at_
              obtain rfl := Option.some.inj at_
              exact known
            · rw [setWindow_same]
              refine told.holds ⟨open_.1, surface, open_.2, ?_, c, member, app⟩
                (window ▸ still) c member here app
              rw [ready]
              exact nofun

theorem Fine.title (fine : s.Fine) {id : BitVec 32} {text : List UInt8} {result : SendResult}
    (careful : s.Careful (.title id text result)) :
    (s.title id text result).Fine := by
  unfold CanvasServer.title
  split
  · exact fine
  · next k found =>
    obtain ⟨nonzero, window⟩ := windowId_of_windowFind found
    have used : (s.windows k).windowId ≠ 0#32 := window ▸ nonzero
    have noted : (s.setWindow k { s.windows k with title := text.take canvasTextMax }).Fine :=
      fine.setPlain used rfl rfl rfl rfl rfl rfl
    dsimp only
    split
    · exact noted
    · next marked =>
      simp only [Bool.not_eq_false] at marked
      split
      · exact noted
      · next c bound =>
        -- The mark does not say which host was told; that it was this one is what care provides.
        have here := careful k found marked c bound
        obtain ⟨conn, at_, known⟩ := (fine.entry k used).told (.inl marked)
        rw [here] at at_
        obtain rfl := Option.some.inj at_
        refine noted.calm (calm_sendMsg (fun _ _ => ?_) ⟨fun _ => ?_, fun frame => ?_⟩ result)
        · change msgWindowTitle ≠ msgWindowGone
          decide
        · rw [window] at known
          exact known
        · change msgWindowTitle = msgNativeFrame at frame
          exact absurd frame (by decide)

/-- A window that is gone is taken back from the host it was announced to. -/
theorem Fine.gone (fine : s.Fine) (id : BitVec 32) (result : SendResult) :
    (s.gone id result).Fine := by
  unfold CanvasServer.gone
  split
  · exact fine
  · next k found =>
    obtain ⟨nonzero, window⟩ := windowId_of_windowFind found
    -- The window might as well be withdrawn before its host is told.
    have swap : ∀ appId, (s.sendGone id appId result).setWindow k {} =
        (s.setWindow k {}).sendGone id appId result := by
      intro appId
      unfold sendGone
      have host : (s.setWindow k {}).clientForApp appId = s.clientForApp appId := rfl
      rw [host]
      cases s.clientForApp appId with
      | none => rfl
      | some c =>
        have sent : ∀ (s : CanvasServer) fd, (s.dropClientFd fd).setWindow k {} =
            (s.setWindow k {}).dropClientFd fd := by
          intro s fd
          unfold dropClientFd
          have hosts : (s.setWindow k {}).clients = s.clients := rfl
          rw [hosts]
          cases s.clients.findIdx? fun c => c.fd = fd <;> rfl
        cases result with
        | sent => rfl
        | wouldBlock => exact sent _ c.fd
        | failed written => exact sent _ c.fd
    rw [swap]
    have withdrawn := fine.withdraw k
    have absent : ∀ j, ((s.setWindow k {}).windows j).windowId ≠ id := by
      intro j same
      by_cases at_ : j = k
      · rw [at_, setWindow_same] at same
        exact nonzero same.symm
      · rw [setWindow_other s {} at_] at same
        exact at_ (fine.single j k (same ▸ nonzero) (same.trans window.symm))
    unfold sendGone
    split
    · exact withdrawn
    · next c bound =>
      have told : (s.setWindow k {}).Calm ((s.setWindow k {}).sendMsg c
          (makeMsg msgWindowGone id) [] none result) := by
        exact calm_sendMsg (fun j same => absurd same.symm (absent j))
          (.of_type (by simp [makeMsg])) result
      split
      · exact withdrawn.calm (told.trans (calm_dropClientFd _ c.fd))
      · exact withdrawn.calm told

theorem Fine.connect (fine : s.Fine) : Fine { s with conns := s.conns + 1 } := by
  refine { fine with known := ?_, homes := ?_, entry := ?_, flight := ?_ }
  · intro c member
    obtain ⟨below, named⟩ := fine.known c member
    exact ⟨Nat.lt_succ_of_lt below, named⟩
  · exact fun id conn home => Nat.lt_succ_of_lt (fine.homes id conn home)
  · intro k used
    have before := fine.entry k used
    exact ⟨before.told, fun passed => before.holds { passed with }⟩
  · intro i h handing
    have flying := fine.flight i h handing
    exact { flying with
      conn := Nat.lt_succ_of_lt flying.conn
      current := fun k window passed => flying.current k window { passed with } }

theorem Fine.replay (fine : s.Fine) (polling : s.reader = .polling) (appId : List UInt8) :
    (s.replayWindowsForClient appId).Fine := by
  have each : ∀ k, (s.replayWindowsForClient appId).windows k = s.windows k ∨
      (s.windows k).windowId ≠ 0#32 ∧ (s.replayWindowsForClient appId).windows k =
        { s.windows k with deliverPending := .new } := by
    intro k
    unfold replayWindowsForClient
    dsimp only
    split
    · exact .inl rfl
    · next chosen => exact .inr ⟨fun free => chosen (.inl free), rfl⟩
  have ids : ∀ k, ((s.replayWindowsForClient appId).windows k).windowId =
      (s.windows k).windowId := by
    intro k
    rcases each k with same | ⟨-, marked⟩
    · rw [same]
    · rw [marked]
  refine { fine with blank := ?_, single := ?_, made := ?_, entry := ?_, flight := ?_ }
  · intro k free
    rcases each k with same | ⟨used, -⟩
    · rw [same] at free ⊢
      exact fine.blank k free
    · rw [ids] at free
      exact absurd free used
  · intro j k
    rw [ids, ids]
    exact fine.single j k
  · intro k
    rcases each k with same | ⟨-, marked⟩
    · rw [same]
      exact fine.made k
    · rw [marked]
      exact fine.made k
  · intro k used
    rw [ids] at used
    have before := fine.entry k used
    rcases each k with same | ⟨-, marked⟩
    · rw [same]
      exact ⟨before.told, fun passed => before.holds { passed with }⟩
    · rw [marked]
      refine ⟨fun known => before.told (.inl ?_), fun passed => nomatch passed.pending⟩
      rcases known with announced | waiting
      · exact announced
      · cases waiting
  · intro i h handing
    rw [show (s.replayWindowsForClient appId).reader = s.reader from rfl, polling] at handing
    cases handing

theorem Fine.addClient (fine : s.Fine) (polling : s.reader = .polling) {c : CanvasClient}
    (descriptor : ∀ o ∈ s.clients, o.fd ≠ c.fd) (named : c.appId ≠ []) (below : c.conn < s.conns)
    (fresh : ∀ o ∈ s.clients, o.conn ≠ c.conn) (unused : ∀ id, s.home id ≠ some c.conn) :
    Fine { s with clients := s.clients ++ [c] } := by
  have added : ∀ {α : Type} (f : CanvasClient → α), (s.clients.map f).Nodup →
      (∀ o ∈ s.clients, f o ≠ f c) → ((s.clients ++ [c]).map f).Nodup := by
    intro α f different new
    rw [List.map_append, List.map_singleton, List.nodup_append]
    refine ⟨different, List.nodup_singleton _, fun x old y last => ?_⟩
    obtain ⟨o, member, rfl⟩ := List.mem_map.mp old
    rw [List.mem_singleton.mp last]
    exact new o member
  refine { fine with conns := ?_, fds := ?_, known := ?_, entry := ?_, flight := ?_ }
  · exact added _ fine.conns fresh
  · exact added _ fine.fds descriptor
  · intro o member
    rcases List.mem_append.mp member with old | new
    · exact fine.known o old
    · rw [List.mem_singleton.mp new]
      exact ⟨below, named⟩
  · intro k used
    have before := fine.entry k used
    refine ⟨before.told, fun passed still o member home app => ?_⟩
    rcases List.mem_append.mp member with old | new
    · exact before.holds { passed with bound := ⟨o, old, app⟩ } still o old home app
    · -- Nothing has been announced to the new host.
      rw [List.mem_singleton.mp new] at home
      exact absurd home (unused _)
  · intro i h handing
    rw [show ({ s with clients := s.clients ++ [c] } : CanvasServer).reader = s.reader from rfl,
      polling] at handing
    cases handing

theorem ne_nil_of_bindApp {m : XiosMsg} {payload appId : List UInt8}
    (named : bindApp m payload = some appId) : appId ≠ [] := by
  unfold bindApp at named
  split at named
  · cases named
  · dsimp only at named
    split at named
    · cases named
    · next filled =>
      obtain rfl := Option.some.inj named
      exact fun empty => filled (.inl empty)

theorem Fine.handleBind (fine : s.Fine) (polling : s.reader = .polling) {fd : Nat}
    (descriptor : ∀ o ∈ s.clients, o.fd ≠ fd) (pid : Nat) (m : XiosMsg) (payload : List UInt8)
    (hello : SendResult) : (s.handleBind fd pid m payload hello).Fine := by
  unfold CanvasServer.handleBind
  split
  · exact fine
  · next appId named =>
    -- The greeting names no window, so it is in order on a connection that was told nothing yet.
    have greeted : Calm { s with conns := s.conns + 1 }
        (sendRecord { s with conns := s.conns + 1 } s.conns (makeMsg msgHello protocolVersion) []
          none hello) :=
      calm_sendRecord (fun _ _ => by decide) (.of_type (by decide)) hello
    obtain ⟨log, same, -, -⟩ := sendRecord_eq { s with conns := s.conns + 1 } s.conns
      (makeMsg msgHello protocolVersion) [] none hello
    have ready := fine.connect.calm greeted
    dsimp only
    split
    · exact ready
    · rw [same] at ready ⊢
      have replayed := ready.replay polling appId
      refine replayed.addClient (s := replayWindowsForClient _ appId) polling descriptor
        (ne_nil_of_bindApp named) (Nat.lt_succ_self s.conns) (fun o member used => ?_)
        fun id home => ?_
      · have before := (fine.known o member).1
        rw [used] at before
        exact Nat.lt_irrefl _ before
      · exact Nat.lt_irrefl _ (fine.homes id _ home)

theorem Fine.setReader (fine : s.Fine) (before : ∀ i h, s.reader ≠ .handing i h)
    {reader : ReaderPhase} (after : ∀ i h, reader ≠ .handing i h) : Fine { s with reader } := by
  refine { fine with entry := ?_, flight := ?_ }
  · intro k used
    have known := fine.entry k used
    exact ⟨known.told, fun passed _ => known.holds { passed with } fun ⟨i, h, busy, _⟩ =>
      before i h busy⟩
  · exact fun i h handing => absurd handing (after i h)

theorem Fine.take (fine : s.Fine) {k : Fin maxCanvasWindows} (idle : ∀ i h, s.reader ≠ .handing i h)
    (used : (s.windows k).windowId ≠ 0#32) (surface : (s.windows k).surface = true)
    {c : CanvasClient} (member : c ∈ s.clients) {kind : DeliverKind} {wrote : Bool}
    (home : kind ≠ .new → s.home (s.windows k).windowId = some c.conn)
    (told : wrote = true → introduced (s.windows k).windowId (s.log c.conn) = true) (i : Nat) :
    Fine { s.setWindow k { s.windows k with deliverPending := .none } with
      reader := .handing i
        { kind, windowId := (s.windows k).windowId, canvas := (s.windows k).canvas, fd := c.fd
          conn := c.conn, pid := c.pid, replyPort := c.replyPort, wrote } } := by
  have here := setWindow_same s k { s.windows k with deliverPending := .none }
  have other := fun j =>
    setWindow_other s (k := k) (j := j) { s.windows k with deliverPending := .none }
  have ids : ∀ j, ((s.setWindow k { s.windows k with deliverPending := .none }).windows
      j).windowId = (s.windows j).windowId := by
    intro j
    by_cases at_ : j = k
    · rw [at_, here]
    · rw [other j at_]
  have free : ∀ id, ¬s.HandingOver id := fun id ⟨i, h, busy, _⟩ => idle i h busy
  -- Only the mark of one place changes, and about that window the hand-over now has the say.
  refine { fine with blank := ?_, single := ?_, made := ?_, entry := ?_, flight := ?_ }
  · intro j blank
    have away : j ≠ k := fun at_ => used (at_ ▸ (ids j).symm.trans blank)
    rw [show _ = s.windows j from other j away]
    exact fine.blank j ((ids j).symm.trans blank)
  · intro j l taken same
    exact fine.single j l (fun zero => taken ((ids j).trans zero))
      ((ids j).symm.trans (same.trans (ids l)))
  · intro j
    by_cases at_ : j = k
    · rw [at_, show _ = _ from here]
      exact fine.made k
    · rw [show _ = s.windows j from other j at_]
      exact fine.made j
  · intro j taken
    have known := fine.entry j fun zero => taken ((ids j).trans zero)
    by_cases at_ : j = k
    · subst at_
      rw [show _ = _ from here]
      refine ⟨fun marked => known.told (.inl ?_), fun _ still => absurd ⟨i, _, rfl, rfl⟩ still⟩
      rcases marked with announced | waiting
      · exact announced
      · cases waiting
    · rw [show _ = s.windows j from other j at_]
      exact ⟨known.told, fun passed _ => known.holds { passed with } (free _)⟩
  · intro j h handing
    obtain ⟨rfl, rfl⟩ := ReaderPhase.handing.inj handing
    refine ⟨used, fine.made k surface, (fine.known c member).1, fun o bound => ?_, home, nofun,
      nofun, fun wrote _ _ _ => told wrote, fun j window passed => ?_⟩
    · constructor
      · exact fun same => congrArg _ (List.inj_on_of_nodup_map fine.fds bound member same)
      · exact fun same => congrArg _ (List.inj_on_of_nodup_map fine.conns bound member same)
    · obtain rfl : j = k := fine.single j k (fun zero => used ((window.symm.trans (ids j)).trans
        zero)) ((ids j).symm.trans window)
      rw [show _ = _ from here]
      rfl

theorem introduced_new {log : List HostSent} {m : XiosMsg} {payload : List UInt8}
    {fence : Option Canvas} (type : m.type = msgWindowNew) :
    introduced m.windowId (.record m payload fence :: log) = true := by
  rw [introduced, if_pos ⟨rfl, type⟩]

/-- The reader takes up what is to be delivered of one window. -/
theorem Fine.scanWindow (fine : s.Fine) {k : Fin maxCanvasWindows}
    (scanning : s.reader = .scanning k.val)
    (careful : (s.windows k).deliverPending = .geom → s.AtHome (s.windows k)) (result : SendResult) :
    (s.scanWindow k result).Fine := by
  have idle : ∀ i h, s.reader ≠ .handing i h := by
    rw [scanning]
    exact fun _ _ => nofun
  have passed : Fine { s with reader := .scanning (k.val + 1) } :=
    fine.setReader idle fun _ _ => nofun
  unfold CanvasServer.scanWindow
  dsimp only
  split
  · exact passed
  · next waiting =>
    simp only [not_or, Bool.not_eq_false] at waiting
    obtain ⟨used, surface, pending⟩ := waiting
    split
    · next absent =>
      exact passed.setWaiting (s := { s with reader := .scanning (k.val + 1) }) used rfl rfl rfl
        rfl nofun (.inr (.inr (.inr (fine.unbound absent))))
    · next c bound =>
      obtain ⟨member, app⟩ := mem_of_clientForApp bound
      -- A record about a new canvas goes to a host that knows the window.
      have home : (s.windows k).deliverPending ≠ .new →
          s.home (s.windows k).windowId = some c.conn ∧
            introduced (s.windows k).windowId (s.log c.conn) = true := by
        intro other
        have geom : (s.windows k).deliverPending = .geom := by
          cases kind : (s.windows k).deliverPending with
          | none => exact absurd kind pending
          | new => exact absurd kind other
          | geom => rfl
        obtain ⟨conn, at_, known⟩ := (fine.entry k used).told (.inr geom)
        have here := careful geom c bound
        rw [here] at at_
        obtain rfl := Option.some.inj at_
        exact ⟨here, known⟩
      -- An announcement may come first, and a new canvas is no frame.
      have follows : ∀ payload : List UInt8,
          (HostSent.record (deliverMsg (s.windows k)) payload none).Follows (s.log c.conn) := by
        intro payload
        by_cases new : (s.windows k).deliverPending = .new
        · exact .of_type (by simp [deliverMsg, makeMsg, new])
        · refine ⟨fun _ => (home new).2, fun frame => ?_⟩
          rw [deliverMsg, if_neg new] at frame
          exact absurd frame (by change ¬msgWindowGeom = msgNativeFrame; decide)
      have stays : (deliverMsg (s.windows k)).type ≠ msgWindowGone := by
        change (if _ then msgWindowNew else msgWindowGeom) ≠ msgWindowGone
        split <;> decide
      have sent := calm_sendRecord (fun _ _ => stays)
        (follows (if (s.windows k).deliverPending = .new then (s.windows k).title else [])) result
      have started := fine.calm sent
      cases result with
      | sent =>
        refine started.take (k := k) (c := c) idle used surface member (fun new => (home new).1)
          (fun _ => ?_) k.val
        change introduced (s.windows k).windowId (Function.update s.log c.conn _ c.conn) = true
        rw [Function.update_self]
        by_cases new : (s.windows k).deliverPending = .new
        · exact introduced_new (m := deliverMsg (s.windows k)) (by rw [deliverMsg, if_pos new]; rfl)
        · exact (Written.whole _).introduced (fun _ => stays) (home new).2
      -- The record did not get through whole, so the hand-over counts as not written.
      | wouldBlock =>
        refine started.take (k := k) (c := c) idle used surface member (fun new => (home new).1)
          (fun wrote => ?_) k.val
        exact absurd wrote (by decide)
      | failed written =>
        refine started.take (k := k) (c := c) idle used surface member (fun new => (home new).1)
          (fun wrote => ?_) k.val
        exact absurd wrote (by simp)

/-- The port is sent for the canvas that the record before it told of. -/
theorem Fine.deliverCanvasPort (fine : s.Fine) {i : Nat} {h : Handoff}
    (handing : s.reader = .handing i h) {ok : Bool} (careful : ok = false → h.kind = .new) :
    (s.deliverCanvasPort i h ok).Fine := by
  have flying := fine.flight i h handing
  have log : ∀ conn, (s.deliverCanvasPort i h ok).log conn = s.log conn ∨
      ok = true ∧ conn = h.conn ∧ (s.deliverCanvasPort i h ok).log conn =
        .port h.windowId h.canvas :: s.log conn := by
    intro conn
    unfold CanvasServer.deliverCanvasPort
    cases ok with
    | false => exact .inl rfl
    | true =>
      by_cases here : conn = h.conn
      · subst here
        exact .inr ⟨rfl, rfl, Function.update_self _ _ _⟩
      · exact .inl (Function.update_of_ne here _ _)
  -- A port introduces no window.
  have told : ∀ id conn, introduced id ((s.deliverCanvasPort i h ok).log conn) =
      introduced id (s.log conn) := by
    intro id conn
    rcases log conn with same | ⟨-, -, port⟩
    · rw [same]
    · rw [port, introduced]
  refine { fine with entry := ?_, flight := ?_, ordered := ?_ }
  · intro k used
    have known := fine.entry k used
    refine ⟨fun marked => ?_, fun passed still c member home app => ?_⟩
    · obtain ⟨conn, home, before⟩ := known.told marked
      exact ⟨conn, home, (told _ conn).trans before⟩
    · -- The window is not the one whose port is sent.
      have other : h.windowId ≠ (s.windows k).windowId := fun same =>
        still ⟨i, _, rfl, same⟩
      have before := known.holds { passed with } (fun handed => ?_) c member home app
      · rcases log c.conn with same | ⟨-, -, port⟩
        · rw [same]
          exact before
        · rw [port]
          exact (if_neg other).trans before
      · obtain ⟨j, h', busy, same⟩ := handed
        rw [handing] at busy
        obtain ⟨-, rfl⟩ := ReaderPhase.handing.inj busy
        exact other same
  · intro j h' busy
    obtain ⟨rfl, rfl⟩ := ReaderPhase.handing.inj busy
    refine { flying with works := ?_, port := ?_, told := ?_, current := ?_ }
    · intro other failed
      exact other (careful (Option.some.inj failed))
    · intro sent
      obtain rfl := Option.some.inj sent
      rw [show (s.deliverCanvasPort i h true).log h.conn = _ from Function.update_self _ _ _]
      exact if_pos rfl
    · intro wrote k window canvas
      exact (told _ _).trans (flying.told wrote k window canvas)
    · exact fun k window passed => flying.current k window { passed with }
  · intro conn
    rcases log conn with same | ⟨-, -, port⟩
    · rw [same]
      exact fine.ordered conn
    · rw [port]
      exact (fine.ordered conn).cons trivial

theorem Fine.setHome (fine : s.Fine) {i : Nat} {h : Handoff} (handing : s.reader = .handing i h)
    (new : h.kind = .new) (told : introduced h.windowId (s.log h.conn) = true) :
    Fine { s with home := Function.update s.home h.windowId (some h.conn) } := by
  have flying := fine.flight i h handing
  refine { fine with homes := ?_, entry := ?_, flight := ?_ }
  · intro id conn home
    dsimp only at home
    by_cases same : id = h.windowId
    · rw [same, Function.update_self] at home
      exact Option.some.inj home ▸ flying.conn
    · rw [Function.update_of_ne same] at home
      exact fine.homes id conn home
  · intro k used
    have known := fine.entry k used
    by_cases same : (s.windows k).windowId = h.windowId
    · refine ⟨fun _ => ⟨h.conn, ?_, same ▸ told⟩, fun _ still => absurd ⟨i, h, handing, same.symm⟩
        still⟩
      rw [same]
      exact Function.update_self _ _ _
    · have kept : Function.update s.home h.windowId (some h.conn) (s.windows k).windowId =
          s.home (s.windows k).windowId := Function.update_of_ne same _ _
      refine ⟨fun marked => ?_, fun passed still c member home => ?_⟩
      · obtain ⟨conn, home, before⟩ := known.told marked
        exact ⟨conn, kept.trans home, before⟩
      · exact known.holds { passed with } still c member (kept.symm.trans home)
  · intro j h' busy
    have flying' := fine.flight j h' busy
    refine { flying' with home := fun other => ?_, current := fun k window passed => ?_ }
    · rw [handing] at busy
      obtain ⟨-, rfl⟩ := ReaderPhase.handing.inj busy
      exact absurd new other
    · exact flying'.current k window { passed with }

theorem Fine.markAnnounced (fine : s.Fine) {i : Nat} {h : Handoff}
    (handing : s.reader = .handing i h) {k : Fin maxCanvasWindows}
    (window : (s.windows k).windowId = h.windowId) (canvas : (s.windows k).canvas = h.canvas) :
    (s.markAnnounced k h).Fine := by
  have flying := fine.flight i h handing
  have used : (s.windows k).windowId ≠ 0#32 := window ▸ flying.window
  -- What is known about the window is all about the hand-over that is still under way.
  have marked : ∀ {s' : CanvasServer}, s'.Fine → s'.reader = .handing i h →
      (s'.windows k) = s.windows k → (h.ok = true → ∃ conn,
        s'.home h.windowId = some conn ∧ introduced h.windowId (s'.log conn) = true) →
      (s'.setWindow k { s.windows k with announced := h.ok }).Fine := by
    intro s' fine' busy same known
    have used' : (s'.windows k).windowId ≠ 0#32 := same ▸ used
    refine fine'.setWindow used' (by rw [same]) (fun has => ?_)
      ⟨fun waits => ?_, fun _ still => ?_⟩ (fun j h' again _ wrote equal => ?_)
      fun j h' again _ _ => ?_
    · exact same ▸ fine'.made k (same ▸ has)
    · rcases waits with ok | geom
      · rw [window]
        exact known ok
      · have before := (fine'.entry k used').told (.inr (by rw [same]; exact geom))
        rwa [same] at before
    · exact absurd ⟨i, h, busy, window.symm⟩ still
    · rw [busy] at again
      obtain ⟨-, rfl⟩ := ReaderPhase.handing.inj again
      exact (fine'.flight i h busy).told wrote k (by rw [same, window]) (by rw [same, canvas])
    · rw [busy] at again
      obtain ⟨-, rfl⟩ := ReaderPhase.handing.inj again
      exact canvas
  unfold CanvasServer.markAnnounced
  split
  · next new =>
    cases ok : h.ok with
    | true =>
      have wrote : h.wrote = true := by
        rw [Handoff.ok, Bool.and_eq_true] at ok
        exact ok.1
      have told := flying.told wrote k window canvas
      have done := marked (fine.setHome handing new told) handing rfl fun _ =>
        ⟨h.conn, Function.update_self _ _ _, told⟩
      rw [ok] at done
      exact done
    | false =>
      have done := marked fine handing rfl fun yes => absurd (ok.symm.trans yes) Bool.false_ne_true
      rw [ok] at done
      exact done
  · exact fine

theorem Fine.fd_ne (fine : s.Fine) {fd : Nat} {c : CanvasClient}
    (member : c ∈ (s.dropClientFd fd).clients) : c.fd ≠ fd := by
  obtain ⟨clients, gone, same, perm, left⟩ := dropClientFd_eq s fd
  rw [same] at member
  intro still
  obtain ⟨o, lost, equal⟩ := left ⟨c, perm.mem_iff.mpr (List.mem_append_right gone member), still⟩
  have different := fine.fds
  rw [(perm.map CanvasClient.fd).nodup_iff, List.map_append] at different
  exact List.disjoint_of_nodup_append different (List.mem_map_of_mem lost)
    (List.mem_map.mpr ⟨c, member, still.trans equal.symm⟩)

/-- What the reader notes of a hand-off is still so when the window has changed meanwhile. -/
theorem Fine.noteHandoff (fine : s.Fine) {i : Nat} {h : Handoff} (handing : s.reader = .handing i h)
    {result : SendResult} (careful : s.Careful (.finish result)) :
    (s.noteHandoff h result).Fine ∧ (s.noteHandoff h result).reader = s.reader ∧
      (h.kind = .new → ∀ k, ((s.noteHandoff h result).windows k).windowId = h.windowId →
        ((s.noteHandoff h result).windows k).canvas = h.canvas →
        ((s.noteHandoff h result).windows k).announced = true →
        h.ok = true ∧ (s.noteHandoff h result).home h.windowId = some h.conn) := by
  have flying := fine.flight i h handing
  unfold CanvasServer.noteHandoff
  split
  -- The window went away meanwhile, and no place is left to mark.
  · next absent =>
    exact ⟨fine, rfl, fun _ k window =>
      absurd window (windowId_ne_of_windowFind flying.window absent k)⟩
  · next k found =>
    obtain ⟨nonzero, window⟩ := windowId_of_windowFind found
    split
    · next other =>
      -- The window has another canvas since, which a hand-over of its own will bring.
      refine ⟨fine, rfl, fun _ j same equal => absurd (congrArg Canvas.generation equal) ?_⟩
      rw [fine.single j k (same ▸ nonzero) (same.trans window.symm)]
      exact other
    · next same =>
      simp only [ne_eq, not_not] at same
      -- Only the generation is compared; that it is the same canvas is what care provides.
      have canvas : (s.windows k).canvas = h.canvas := by
        rw [CanvasEntry.canvas, careful i h handing k found same, same]
      have marked := fine.markAnnounced handing window canvas
      have reader : (s.markAnnounced k h).reader = s.reader := by
        unfold CanvasServer.markAnnounced
        split <;> rfl
      have arrived : h.kind = .new → ∀ j, ((s.markAnnounced k h).windows j).windowId = h.windowId →
          ((s.markAnnounced k h).windows j).announced = true →
          h.ok = true ∧ (s.markAnnounced k h).home h.windowId = some h.conn := by
        intro new j place announced
        unfold CanvasServer.markAnnounced at place announced ⊢
        rw [if_pos new] at place announced ⊢
        by_cases at_ : j = k
        · rw [at_, setWindow_same] at announced
          change h.ok = true at announced
          refine ⟨announced, ?_⟩
          change (if h.ok = true then Function.update s.home h.windowId (some h.conn)
            else s.home) h.windowId = some h.conn
          rw [if_pos announced, Function.update_self]
        · rw [setWindow_other _ _ at_] at place
          exact absurd (fine.single j k (place ▸ nonzero) (place.trans window.symm)) at_
      dsimp only
      split
      · next ok =>
        split
        · exact ⟨marked, reader, fun new j place _ => arrived new j place⟩
        · next c bound =>
          -- The host has the announcement and the port by now, so the latest frame may follow.
          have flying' := marked.flight i h (reader.trans handing)
          obtain ⟨wrote, delivered⟩ : h.wrote = true ∧ h.delivered = some true := by
            simpa [Handoff.ok] using ok
          have here : c.conn = h.conn := (flying'.host c (List.mem_of_find?_eq_some bound)).mp
            (by simpa using List.find?_some bound)
          obtain ⟨place, equal⟩ : ((s.markAnnounced k h).windows k).windowId = h.windowId ∧
              ((s.markAnnounced k h).windows k).canvas = h.canvas := by
            unfold CanvasServer.markAnnounced
            split
            · rw [setWindow_same]
              exact ⟨window, canvas⟩
            · exact ⟨window, canvas⟩
          have calm := calm_sendLatestFrame (s := s.markAnnounced k h) (k := k) (c := c)
            (by rw [place, here]; exact flying'.told wrote k place equal)
            (by rw [place, here, equal]; exact flying'.port delivered) result
          refine ⟨marked.calm calm, calm.reader.trans reader, ?_⟩
          rw [calm.windows, calm.home]
          exact fun new j place _ => arrived new j place
      · exact ⟨marked, reader, fun new j place _ => arrived new j place⟩

theorem Fine.release (fine : s.Fine) {i : Nat} {h : Handoff}
    (handing : s.reader = .handing i h)
    (arrived : ∀ k, (s.windows k).windowId = h.windowId → s.Passed (s.windows k) →
      ∀ c ∈ s.clients, s.home h.windowId = some c.conn →
        c.conn = h.conn ∧ h.delivered = some true) (j : Nat) :
    Fine { s with reader := .scanning j } := by
  have flying := fine.flight i h handing
  refine { fine with entry := ?_, flight := ?_ }
  · intro k used
    have known := fine.entry k used
    refine ⟨known.told, fun now _ c member home app => ?_⟩
    have passed : s.Passed (s.windows k) := { now with }
    by_cases same : (s.windows k).windowId = h.windowId
    · dsimp only at home ⊢
      rw [same] at home ⊢
      obtain ⟨here, delivered⟩ := arrived k same passed c member home
      rw [here, flying.current k same passed]
      exact flying.port delivered
    · refine known.holds passed (fun ⟨l, h', busy, equal⟩ => same ?_) c member home app
      rw [handing] at busy
      obtain ⟨-, rfl⟩ := ReaderPhase.handing.inj busy
      exact equal.symm
  · exact fun _ _ => nofun

/-- A hand-off ends after its port, or without its record. -/
theorem Fine.finishHandoff (fine : s.Fine) {i : Nat} {h : Handoff}
    (handing : s.reader = .handing i h) (settled : h.wrote = false ∨ h.delivered.isSome = true)
    {result : SendResult} (careful : s.Careful (.finish result)) :
    (s.finishHandoff i h result).Fine := by
  obtain ⟨noted, reader, marked⟩ := fine.noteHandoff handing careful
  have busy := reader.trans handing
  have flying := noted.flight i h busy
  unfold CanvasServer.finishHandoff
  dsimp only
  generalize s.noteHandoff h result = s' at *
  -- An announcement arrived if the window is marked, and a new canvas went to the right host.
  cases wrote : h.wrote with
  | true =>
    rw [if_pos rfl]
    refine noted.release busy (fun k window passed c member home => ?_) (i + 1)
    have ended : h.delivered.isSome = true := settled.resolve_left (by rw [wrote]; decide)
    by_cases new : h.kind = .new
    · obtain ⟨ok, here⟩ := marked new k window (flying.current k window passed) passed.announced
      rw [here] at home
      have both : h.wrote = true ∧ h.delivered = some true := by simpa [Handoff.ok] using ok
      exact ⟨(Option.some.inj home).symm, both.2⟩
    · rw [flying.home new] at home
      refine ⟨(Option.some.inj home).symm, ?_⟩
      obtain ⟨delivered, some⟩ := Option.isSome_iff_exists.mp ended
      cases delivered with
      | true => exact some
      | false => exact absurd some (flying.works new)
  | false =>
    rw [if_neg (by decide)]
    have calm := calm_dropClientFd s' h.fd
    refine (noted.calm calm).release (calm.reader.trans busy)
      (fun k window passed c member home => ?_) (i + 1)
    rw [calm.windows] at window passed
    rw [calm.home] at home
    by_cases new : h.kind = .new
    · obtain ⟨ok, -⟩ := marked new k window (flying.current k window (calm.passed passed))
        passed.announced
      rw [Handoff.ok, wrote] at ok
      cases ok
    · -- The host is no longer there.
      rw [flying.home new] at home
      have still := (flying.host c (calm.mem member)).mpr (Option.some.inj home).symm
      exact absurd still (noted.fd_ne member)

-- Looking up a window or a host does not read what is left to pass on.
theorem windowFind_passed (s : CanvasServer) (id : BitVec 32) :
    { s with created := none }.windowFind id = s.windowFind id := rfl

theorem clientForApp_passed (s : CanvasServer) (appId : List UInt8) :
    { s with created := none }.clientForApp appId = s.clientForApp appId := rfl

theorem announce_passed (s : CanvasServer) (id : BitVec 32) (appId title : List UInt8)
    (flags : BitVec 32) : { s with created := none }.announce id appId title flags =
      { s.announce id appId title flags with created := none } := by
  unfold CanvasServer.announce
  rw [windowFind_passed]
  cases s.windowFind id with
  | none => rfl
  | some k =>
    dsimp only
    split
    · rfl
    · rw [clientForApp_passed]
      cases s.clientForApp (appId.take canvasTextMax) <;> rfl

theorem geom_passed (s : CanvasServer) (id : BitVec 32) :
    { s with created := none }.geom id = { s.geom id with created := none } := by
  unfold CanvasServer.geom
  rw [windowFind_passed]
  cases s.windowFind id with
  | none => rfl
  | some k =>
    dsimp only
    split
    · rfl
    · rw [clientForApp_passed]
      cases s.clientForApp (s.windows k).appId with
      | none => rfl
      | some c =>
        dsimp only
        split <;> rfl

/-- Every event of a careful environment leaves everything fine. -/
theorem Fine.next (fine : s.Fine) (event : Event) (allowed : s.Allowed event)
    (careful : s.Careful event) : (s.next event).Fine := by
  cases event with
  | create id w h stride => exact fine.create allowed id w h stride
  | announce id appId title flags =>
    obtain ⟨announced, created, waits⟩ := fine.announce id appId title flags
    rw [CanvasServer.next, announce_passed]
    exact announced.clear (created ▸ allowed) waits
  | geom id =>
    obtain ⟨told, created, waits⟩ := fine.geom id
    rw [CanvasServer.next, geom_passed]
    exact told.clear (created ▸ allowed) waits
  | notifyFrame id token eventValue result => exact fine.notifyFrame allowed careful
  | title id text result => exact fine.title careful
  | gone id result => exact fine.gone id result
  | bind fd pid m payload hello => exact fine.handleBind allowed.1 allowed.2 pid m payload hello
  | hostGone fd => exact fine.calm (calm_dropClientFd s fd)
  | drain =>
    have idle : s.reader = .polling := allowed
    exact fine.setReader (by rw [idle]; exact fun _ _ => nofun) fun _ _ => nofun
  | scan result =>
    rw [CanvasServer.next]
    split
    · next i scanning =>
      split
      · next inside => exact fine.scanWindow scanning (careful ⟨i, inside⟩ scanning) result
      · exact fine.setReader (by rw [scanning]; exact fun _ _ => nofun) fun _ _ => nofun
    · exact fine
  | deliver ok =>
    rw [CanvasServer.next]
    split
    · next i h handing =>
      exact fine.deliverCanvasPort handing fun failed => careful failed i h handing
    · exact fine
  | finish result =>
    rw [CanvasServer.next]
    split
    · next i h handing =>
      have settled : Sending.Over s.reader := allowed
      rw [handing] at settled
      exact fine.finishHandoff handing settled careful
    · exact fine

theorem fine_start : Fine {} := by
  constructor
  · exact List.nodup_nil
  · exact List.nodup_nil
  · exact fun _ => nofun
  · exact fun _ _ => nofun
  · exact fun _ _ => rfl
  · exact fun _ _ used => absurd rfl used
  · exact fun _ => nofun
  · exact fun _ used => absurd rfl used
  · exact fun _ _ => nofun
  · intro conn item earlier suffix
    exact absurd (List.eq_nil_of_suffix_nil suffix) (List.cons_ne_nil _ _)

/-- In a careful environment every host is told of a window before anything else about it, and
of a frame after the canvas it belongs to. -/
theorem hosts_told_in_order {trace : List Event} {s : CanvasServer}
    (run : (machine.restrict Careful).Run trace s) (conn : Nat) : HostSent.InOrder (s.log conn) := by
  have fine : s.Fine := by
    refine run.invariant (fun _ s => s.Fine) (fun s begun => ?_) fun _ s event fine allowed => ?_
    · rw [show s = {} from begun]
      exact fine_start
    · exact fine.next event allowed.1 allowed.2
  exact fine.ordered conn

instance decidableHandingOver (s : CanvasServer) (id : BitVec 32) : Decidable (s.HandingOver id) :=
  match busy : s.reader with
  | .handing _ h => decidable_of_iff (h.windowId = id) (by simp [HandingOver, busy])
  | .polling | .scanning _ => .isFalse (by simp [HandingOver, busy])

instance decidableScanning : ∀ reader, Decidable (Scanning reader)
  | .scanning _ => .isTrue trivial
  | .polling | .handing _ _ => .isFalse id

instance decidableSending : ∀ reader, Decidable (Sending reader)
  | .handing _ h => inferInstanceAs (Decidable (h.wrote = true ∧ h.delivered = none))
  | .polling | .scanning _ => .isFalse id

instance decidableSendingOver : ∀ reader, Decidable (Sending.Over reader)
  | .handing _ h => inferInstanceAs (Decidable (h.wrote = false ∨ h.delivered.isSome))
  | .polling | .scanning _ => .isFalse id

instance decidableAllowed (s : CanvasServer) : ∀ event, Decidable (s.Allowed event)
  | .create .. | .notifyFrame .. | .title .. | .gone .. | .announce .. | .geom .. | .bind ..
  | .hostGone .. | .drain | .scan .. | .deliver .. | .finish .. => by
    unfold Allowed
    infer_instance

instance decidableCareful (s : CanvasServer) : ∀ event, Decidable (s.Careful event)
  | .title .. | .notifyFrame .. | .scan .. => by
    unfold Careful
    infer_instance
  | .deliver ok =>
    match busy : s.reader with
    | .handing _ h => decidable_of_iff (ok = false → h.kind = .new) (by simp [Careful, busy])
    | .polling | .scanning _ => .isTrue (by simp [Careful, busy])
  | .finish result =>
    match busy : s.reader with
    | .handing _ h =>
      decidable_of_iff (∀ k, s.windowFind h.windowId = some k →
        (s.windows k).canvasGeneration = h.canvas.generation →
        (s.windows k).number = h.canvas.number) (by simp [Careful, busy])
    | .polling | .scanning _ => .isTrue (by simp [Careful, busy])
  | .create .. | .announce .. | .geom .. | .gone .. | .bind .. | .hostGone .. | .drain =>
    .isTrue trivial

instance decidableEnabled (s : CanvasServer) (event : Event) :
    Decidable (machine.enabled s event) :=
  inferInstanceAs (Decidable (s.Allowed event))

def editor : List UInt8 :=
  [101]

def bindEditor (fd : Nat) : Event :=
  .bind fd 1 { makeMsg msgBind protocolVersion with length := 1#32, d := 1#32 } editor .sent

def frameDone : Event :=
  .notifyFrame 7#32 (List.replicate gpuFenceTokenSize 0) 1#64 .sent

def pollAgain : List Event :=
  List.replicate maxCanvasWindows (.scan .sent)

def announcing : List Event :=
  [.create 7#32 640#32 480#32 (some 2560#32), .announce 7#32 editor [] 0#32, bindEditor 3, .drain,
    .scan .sent]

def announced : List Event :=
  announcing ++ [.deliver true, .finish .sent] ++ pollAgain

def resizing : List Event :=
  announced ++ [.create 7#32 320#32 240#32 (some 1280#32), .geom 7#32, .drain, .scan .sent]

def reconnected : List Event :=
  resizing ++ [.deliver true, .finish .sent, frameDone] ++ pollAgain ++
    [.hostGone 3, bindEditor 3, .drain, .scan .sent, .deliver true, .finish .sent, frameDone,
      .title 7#32 editor .sent]

theorem hosts_told_in_order_reconnected :
    ((reconnected.foldl next {}).log 0).length = 6 ∧
      ((reconnected.foldl next {}).log 1).length = 6 ∧
      HostSent.InOrder ((reconnected.foldl next {}).log 0) ∧
      HostSent.InOrder ((reconnected.foldl next {}).log 1) := by
  have run : (machine.restrict Careful).Run reconnected.reverse (reconnected.foldl next {}) :=
    .of_script (m := machine.restrict Careful) (s := {}) rfl reconnected (by decide +kernel)
  exact ⟨by decide +kernel, by decide +kernel, hosts_told_in_order run 0, hosts_told_in_order run 1⟩

/-- The threads can do this, and some host is then told something out of order. -/
def Disorders (script : List Event) : Prop :=
  ∃ s, machine.Run script.reverse s ∧ ∃ conn, ¬HostSent.InOrder (s.log conn)

/-- A window has a new title before it is announced again, a frame overtakes its canvas, a frame
follows a canvas that did not arrive, and a window is taken for one that went away. -/
theorem not_hosts_told_in_order :
    Disorders (announced ++ [.hostGone 3, bindEditor 3, .title 7#32 editor .sent]) ∧
      Disorders (resizing ++ [frameDone]) ∧
      Disorders (resizing ++ [.deliver false, .finish .sent, frameDone]) ∧
      Disorders (announcing ++ [.gone 7#32 .sent, .create 7#32 640#32 480#32 (some 2560#32),
        .announce 7#32 editor [] 0#32, .deliver true, .finish .sent,
        .title 7#32 editor .sent]) := by
  have disorders : ∀ script, machine.Admits {} script → ∀ conn,
      ¬HostSent.InOrder ((script.foldl next {}).log conn) → Disorders script :=
    fun script admitted conn broken =>
      ⟨_, .of_script (m := machine) (s := {}) rfl script admitted, conn, broken⟩
  exact ⟨disorders _ (by decide +kernel) 1 (by decide +kernel),
    disorders _ (by decide +kernel) 0 (by decide +kernel),
    disorders _ (by decide +kernel) 0 (by decide +kernel),
    disorders _ (by decide +kernel) 0 (by decide +kernel)⟩

end CanvasServer

end Xios
