import Xios.App.ConnectionLaws

/-! The app's table of surfaces on any stream at all. -/

namespace Xios

/-- What the app is told about surfaces. -/
inductive TableEvent where
  -- A surface is there to be shown.
  | introduced (id : BitVec 32)
  -- A surface is taken back.
  | dropped (id : BitVec 32)
  -- A frame of a surface is shown.
  | shown (id : BitVec 32)
  deriving DecidableEq

/-- What the app knows once it is told something more. -/
def StreamView.tell (v : StreamView) : TableEvent → StreamView
  | .introduced id => { v with held := insert id v.held }
  | .dropped id => { v with held := v.held.erase id }
  | .shown id => { v with current := id }

def StreamView.after (told : List TableEvent) : StreamView :=
  told.foldr (fun event v => v.tell event) .opening

namespace XSurfaceConn

abbrev ids (c : XSurfaceConn) : List (BitVec 32) :=
  c.surfaces.map SurfaceItem.id

/-- What a pass through the read loop is told about surfaces. -/
def tells (c : XSurfaceConn) : DrainAnswer → Option TableEvent
  -- The port of an introduction is there.
  | .port (.arrived _) => c.pendingSurface.map fun m => .introduced m.windowId
  | .recv (.data bytes) =>
    match c.fenceRx with
    -- The token of a frame is complete.
    | some rx =>
      if rx.got + bytes.length < rx.expected.toNat then none else some (.shown rx.surfaceId)
    -- A header is complete.
    | none =>
      if c.cursorRx.isSome ∨ 0 < c.skip ∨ (c.rxbuf ++ bytes).length < msgSize then none
      else if (XiosMsg.decode (c.rxbuf ++ bytes)).type = msgSurfaceDrop then
        some (.dropped (XiosMsg.decode (c.rxbuf ++ bytes)).windowId)
      else none
  | _ => none

def acts (geometry : Nat → SurfaceGeometry) (c : XSurfaceConn) (answer : DrainAnswer) :
    Option TableEvent :=
  match c.drain geometry answer with
  | .fail _ => none
  | .loop _ | .done _ _ => c.tells answer

/-- The system answers the call that the loop makes, in whatever way. -/
def Answers (c : XSurfaceConn) : DrainAnswer → Prop
  | .port _ => c.pendingSurface.isSome = true
  | .recv (.data bytes) =>
    c.pendingSurface = none ∧ bytes ≠ [] ∧ bytes.length ≤ c.requested
  | .recv _ => c.pendingSurface = none

instance (c : XSurfaceConn) : (answer : DrainAnswer) → Decidable (c.Answers answer)
  | .port _ => inferInstanceAs (Decidable (_ = true))
  | .recv (.data _) => inferInstanceAs (Decidable (_ ∧ _))
  | .recv .eof | .recv .again | .recv .intr | .recv .error =>
    inferInstanceAs (Decidable (_ = none))

end XSurfaceConn

/-- The app's connection to a server that sends anything, with what the app was told. -/
structure AppTable where
  stream : AppStream
  -- What it acted on, newest first.
  told : List TableEvent := []

namespace AppTable

def next (geometry : Nat → SurfaceGeometry) (s : AppTable) (answer : DrainAnswer) : AppTable where
  stream := s.stream.next geometry answer
  told := (s.stream.conn.acts geometry answer).toList ++ s.told

/-- All ways in which the app can be answered after a handshake that told it of some outputs. -/
def machine (geometry : Nat → SurfaceGeometry) (outputs : List Nat) :
    Machine AppTable DrainAnswer where
  start s := s = { stream := { conn := .connected geometry outputs } }
  enabled s answer := s.stream.failed = none ∧ s.stream.conn.Answers answer
  next := next geometry

instance (geometry : Nat → SurfaceGeometry) (outputs : List Nat) (s : AppTable)
    (answer : DrainAnswer) : Decidable ((machine geometry outputs).enabled s answer) :=
  inferInstanceAs (Decidable (_ ∧ _))

end AppTable

namespace XSurfaceConn

/--
The table is in order, given what the app knows.

A surface that was taken back is in the table exactly as long as it is on display.
-/
structure InOrder (outputs : Nat) (c : XSurfaceConn) (v : StreamView) : Prop where
  -- Ids are not zero, and no id occurs twice.
  nonzero : 0#32 ∉ c.ids
  apart : c.ids.Nodup
  few : c.surfaces.length ≤ xsurfaceMaxSurfaces
  -- The surface that was shown last is on display, and still held.
  current : c.currentSurfaceId = v.current
  shown : c.currentSurfaceId ∈ c.ids
  -- The table has the outputs, what was introduced and not taken back, and what is on display.
  listed : ∀ id, id ∈ c.ids ↔
    isOutput outputs id = true ∨ id ∈ v.held ∨ id = c.currentSurfaceId

/-- What holds of the table between two passes through the read loop. -/
private structure Tabled (outputs : Nat) (c : XSurfaceConn) (v : StreamView) : Prop where
  holds : c.Holds outputs v
  few : c.surfaces.length ≤ xsurfaceMaxSurfaces
  -- The surface on display is in the table, as is the one that is shown next.
  shown : v.current ∈ c.ids
  fence : ∀ rx, c.fenceRx = some rx → rx.surfaceId ∈ c.ids
  -- A surface that waits for its port is new.
  fresh : ∀ m, c.pendingSurface = some m → dynamicSurfaceIdBase ≤ m.windowId ∧ m.windowId ∉ c.ids

variable {outputs : Nat} {c c' : XSurfaceConn} {v : StreamView}

private theorem Tabled.inOrder (tabled : c.Tabled outputs v)
    (small : outputs ≤ outputQueueMaxBuffers) : c.InOrder outputs v := by
  obtain ⟨holds, few, shown, -, -⟩ := tabled
  -- Whatever is in the table is an output or was introduced as a client surface.
  have retained : ∀ id, v.Retains ∧ id = v.current → id = c.currentSurfaceId := by
    rintro id ⟨-, rfl⟩
    exact holds.current.symm
  refine ⟨?_, holds.apart, few, holds.current, holds.current ▸ shown, ?_⟩
  · intro zero
    obtain output | held | ⟨retains, same⟩ := (holds.ids 0#32).mp zero
    · obtain ⟨i, member, named⟩ := List.any_eq_true.mp output
      simp only [List.mem_range] at member
      simp only [decide_eq_true_eq] at named
      have inside : i < 3 := lt_of_lt_of_le member small
      have numbers := congrArg BitVec.toNat named
      simp only [primarySurfaceId, BitVec.toNat_add, BitVec.toNat_ofNat] at numbers
      omega
    · exact absurd (holds.dynamic _ held) (by decide)
    · have dynamic := retains.1
      rw [← same] at dynamic
      exact absurd dynamic (by decide)
  · intro id
    rw [holds.ids]
    constructor
    · exact fun member => member.imp_right fun later => later.imp_right (retained id)
    · rintro (output | held | rfl)
      · exact .inl output
      · exact .inr (.inl held)
      · rw [holds.current]
        exact (holds.ids _).mp shown

private theorem Tabled.of_eq (tabled : c.Tabled outputs v) (surfaces : c'.surfaces = c.surfaces)
    (current : c'.currentSurfaceId = c.currentSurfaceId)
    (fence : ∀ rx, c'.fenceRx = some rx → rx.surfaceId ∈ c.ids)
    (fresh : ∀ m, c'.pendingSurface = some m →
      dynamicSurfaceIdBase ≤ m.windowId ∧ m.windowId ∉ c.ids) : c'.Tabled outputs v where
  holds := tabled.holds.of_eq surfaces current
  few := by
    rw [surfaces]
    exact tabled.few
  shown := by
    rw [ids, surfaces]
    exact tabled.shown
  fence := by
    rw [ids, surfaces]
    exact fence
  fresh := by
    rw [ids, surfaces]
    exact fresh

variable {id : BitVec 32}

private theorem mem_ids_of_found (found : ¬(c.findSurface id).isNone = true) : id ∈ c.ids := by
  rw [ids, ← findSurface_isSome]
  cases lookup : c.findSurface id with
  | none => simp [lookup] at found
  | some item => rfl

variable {step : DrainStep}

/-- A header fails, changes no surface, or drops one the app has. -/
private theorem acceptHeader_cases {m : XiosMsg} (accepted : c.acceptHeader m = step) :
    (∃ reason, step = .fail reason) ∨
    (∃ c', step = .loop c' ∧ m.type ≠ msgSurfaceDrop ∧ c'.surfaces = c.surfaces ∧
      c'.currentSurfaceId = c.currentSurfaceId ∧
      (c'.fenceRx = c.fenceRx ∨ ∃ rx, c'.fenceRx = some rx ∧ rx.surfaceId ∈ c.ids) ∧
      (c'.pendingSurface = c.pendingSurface ∨
        ∃ m', c'.pendingSurface = some m' ∧ dynamicSurfaceIdBase ≤ m'.windowId ∧
          m'.windowId ∉ c.ids)) ∨
    (m.type = msgSurfaceDrop ∧ m.windowId ∈ c.ids ∧ dynamicSurfaceIdBase ≤ m.windowId ∧
      step = .loop (if m.windowId = c.currentSurfaceId then
        { c with
          surfaces := c.surfaces.modify (c.surfaces.findIdx fun item => item.id = m.windowId)
            fun item => { item with retired := true } }
        else c.removeSurface m.windowId)) := by
  subst accepted
  unfold acceptHeader
  by_cases magic : m.magic = msgMagic
  swap
  · exact .inl ⟨_, by rw [if_pos magic]⟩
  rw [if_neg (not_not.mpr magic)]
  by_cases dirty : m.type = msgDirty
  · have other : m.type ≠ msgSurfaceDrop := by rw [dirty]; decide
    rw [if_pos dirty]
    simp only
    split
    · exact .inl ⟨_, rfl⟩
    · rename_i valid
      have known : m.windowId ∈ c.ids := mem_ids_of_found fun missing => valid (.inl missing)
      exact .inr (.inl ⟨_, rfl, other, rfl, rfl, .inr ⟨_, rfl, known⟩, .inl rfl⟩)
  rw [if_neg dirty]
  by_cases surface : m.type = msgSurface
  · have other : m.type ≠ msgSurfaceDrop := by rw [surface]; decide
    rw [if_pos surface]
    split
    · exact .inl ⟨_, rfl⟩
    · rename_i valid
      simp only [not_or] at valid
      obtain ⟨dynamic, -, -, -, -, -, unknown⟩ := valid
      rw [findSurface_isSome] at unknown
      exact .inr (.inl ⟨_, rfl, other, rfl, rfl, .inl rfl,
        .inr ⟨m, rfl, BitVec.not_lt.mp dynamic, unknown⟩⟩)
  rw [if_neg surface]
  by_cases drop : m.type = msgSurfaceDrop
  · rw [if_pos drop]
    split
    · exact .inl ⟨_, rfl⟩
    · rename_i valid
      simp only [not_or] at valid
      obtain ⟨-, found, dynamic⟩ := valid
      refine .inr (.inr ⟨drop, mem_ids_of_found found, BitVec.not_lt.mp dynamic, ?_⟩)
      split <;> rfl
  rw [if_neg drop]
  -- What is said about the pointer leaves the table alone.
  by_cases cursor : m.type = msgCursor
  · rw [if_pos cursor]
    exact .inr (.inl ⟨_, rfl, drop, rfl, rfl, .inl rfl, .inl rfl⟩)
  rw [if_neg cursor]
  by_cases image : m.type = msgCursorImage
  · rw [if_pos image]
    split
    · exact .inr (.inl ⟨_, rfl, drop, rfl, rfl, .inl rfl, .inl rfl⟩)
    · split
      · exact .inl ⟨_, rfl⟩
      · exact .inr (.inl ⟨_, rfl, drop, rfl, rfl, .inl rfl, .inl rfl⟩)
  · rw [if_neg image]
    exact .inl ⟨_, rfl⟩

private theorem Tabled.drop_retired (tabled : c.Tabled outputs v) (shown : id = v.current)
    (dynamic : dynamicSurfaceIdBase ≤ id) (unheld : id ∉ v.held) :
    (c.surfaces.map fun item => if item.id = id then { item with retired := true } else item) =
      c.surfaces := by
  have retains : v.Retains := by
    rw [shown] at dynamic unheld
    exact ⟨dynamic, unheld⟩
  have same : ∀ item ∈ c.surfaces,
      (if item.id = id then { item with retired := true } else item) = item := by
    intro item member
    split
    · rename_i named
      have retired := (tabled.holds.retired item member).mpr ⟨retains, named.trans shown⟩
      rw [← retired]
    · rfl
  rw [List.map_congr_left same, List.map_id']

private theorem ids_retire (surfaces : List SurfaceItem) (id : BitVec 32) :
    (surfaces.map fun item => if item.id = id then { item with retired := true } else item).map
      SurfaceItem.id = surfaces.map SurfaceItem.id := by
  rw [List.map_map]
  refine List.map_congr_left fun item _ => ?_
  simp only [Function.comp_apply]
  split <;> rfl

private theorem Tabled.drop_shown (tabled : c.Tabled outputs v)
    (idle : c.fenceRx = none) (ready : c.pendingSurface = none)
    (dynamic : dynamicSurfaceIdBase ≤ id) (shown : id = c.currentSurfaceId)
    (surfaces : c'.surfaces =
      c.surfaces.map fun item => if item.id = id then { item with retired := true } else item)
    (rest : c'.currentSurfaceId = c.currentSurfaceId ∧ c'.fenceRx = c.fenceRx ∧
      c'.pendingSurface = c.pendingSurface) : c'.Tabled outputs (v.tell (.dropped id)) := by
  obtain ⟨current, fence, pending⟩ := rest
  have displayed : id = v.current := shown.trans tabled.holds.current
  have same : c'.ids = c.ids := by rw [ids, surfaces, ids_retire]
  refine ⟨?_, ?_, ?_, ?_, ?_⟩
  · by_cases held : id ∈ v.held
    · exact tabled.holds.retire held displayed surfaces current
    · -- It has been taken back before.
      rw [StreamView.tell, Finset.erase_eq_of_notMem held]
      refine tabled.holds.of_eq ?_ current
      rw [surfaces, tabled.drop_retired displayed dynamic held]
  · rw [surfaces, List.length_map]
    exact tabled.few
  · rw [same]
    exact tabled.shown
  · rw [fence, idle]
    exact fun _ some => by cases some
  · rw [pending, ready]
    exact fun _ some => by cases some

private theorem Tabled.drop_other (tabled : c.Tabled outputs v)
    (small : outputs ≤ outputQueueMaxBuffers) (idle : c.fenceRx = none)
    (ready : c.pendingSurface = none) (dynamic : dynamicSurfaceIdBase ≤ id) (known : id ∈ c.ids)
    (other : id ≠ c.currentSurfaceId) :
    (c.removeSurface id).Tabled outputs (v.tell (.dropped id)) := by
  rw [tabled.holds.current] at other
  -- What is neither an output nor on display was introduced and not taken back.
  have held : id ∈ v.held := by
    obtain output | held | ⟨-, shown⟩ := (tabled.holds.ids id).mp known
    · exact absurd dynamic (static_of_isOutput small output)
    · exact held
    · exact absurd shown other
  obtain ⟨item, named, perm⟩ := removeSurface_perm known
  obtain ⟨-, members⟩ := mem_ids_of_perm tabled.holds.apart perm
  have size := perm.length_eq
  have few := tabled.few
  rw [List.length_cons] at size
  refine ⟨tabled.holds.removeSurface small held other rfl ?_, by omega, ?_, ?_, ?_⟩
  · rw [removeSurface_eq]
  · rw [ids, members, named]
    exact ⟨tabled.shown, other.symm⟩
  · rw [removeSurface_eq]
    simp [idle]
  · rw [removeSurface_eq]
    simp [ready]

private theorem length_removeSurface (c : XSurfaceConn) (id : BitVec 32) :
    (c.removeSurface id).surfaces.length ≤ c.surfaces.length := by
  unfold XSurfaceConn.removeSurface
  split
  · simp
  · exact le_rfl

private theorem length_showFrame (c : XSurfaceConn) (rx : FenceRx) :
    (c.showFrame rx).surfaces.length ≤ c.surfaces.length := by
  unfold XSurfaceConn.showFrame
  simp only
  split
  · exact length_removeSurface _ _
  · exact le_rfl

private theorem showFrame_again {rx : FenceRx} (same : c.currentSurfaceId = rx.surfaceId) :
    (c.showFrame rx).surfaces = c.surfaces := by
  simp [XSurfaceConn.showFrame, same]

private theorem Tabled.showFrame (tabled : c.Tabled outputs v)
    (small : outputs ≤ outputQueueMaxBuffers) {rx : FenceRx} (ready : c.pendingSurface = none)
    (known : rx.surfaceId ∈ c.ids) :
    (c.showFrame rx).Tabled outputs (v.tell (.shown rx.surfaceId)) := by
  obtain ⟨fence, -, -, pending, -⟩ := showFrame_rest c rx
  have shows : (c.showFrame rx).Holds outputs (v.tell (.shown rx.surfaceId)) ∧
      rx.surfaceId ∈ (c.showFrame rx).ids := by
    obtain output | held | ⟨-, same⟩ := (tabled.holds.ids _).mp known
    · have holds : (c.showFrame rx).Holds outputs (v.tell (.shown rx.surfaceId)) :=
        tabled.holds.showFrame small (.inl output)
      exact ⟨holds, (holds.ids _).mpr (.inl output)⟩
    · have holds : (c.showFrame rx).Holds outputs (v.tell (.shown rx.surfaceId)) :=
        tabled.holds.showFrame small (.inr held)
      exact ⟨holds, (holds.ids _).mpr (.inr (.inl held))⟩
    · -- It is on display already, and stays even if it was taken back.
      have kept : (c.showFrame rx).surfaces = c.surfaces :=
        showFrame_again (tabled.holds.current.trans same.symm)
      have view : v.tell (.shown rx.surfaceId) = v := by rw [same]; rfl
      rw [view, ids, kept]
      refine ⟨tabled.holds.of_eq kept ?_, known⟩
      rw [showFrame_current, same, tabled.holds.current]
  refine ⟨shows.1, (length_showFrame c rx).trans tabled.few, shows.2, ?_, ?_⟩
  · rw [fence]
    exact fun _ some => by cases some
  · rw [pending, ready]
    exact fun _ some => by cases some

private theorem addSurface_new {flags : BitVec 32} {geometry : SurfaceGeometry} {surface : Nat}
    (unknown : id ∉ c.ids) (added : c.addSurface id flags geometry surface = some c') :
    c.surfaces.length < xsurfaceMaxSurfaces ∧
      c' = { c with surfaces := c.surfaces ++ [{ surface, id, flags, geometry }] } := by
  have absent : c.surfaces.findIdx? (fun item => item.id = id) = none := by
    simpa [List.findIdx?_eq_none_iff] using unknown
  unfold XSurfaceConn.addSurface at added
  split at added
  · cases added
  · rw [absent] at added
    simp only at added
    split at added
    · cases added
    · rename_i room
      exact ⟨not_le.mp room, (Option.some.inj added).symm⟩

private theorem Tabled.addSurface (tabled : c.Tabled outputs v)
    (small : outputs ≤ outputQueueMaxBuffers) {flags : BitVec 32} {geometry : SurfaceGeometry}
    {surface : Nat} (dynamic : dynamicSurfaceIdBase ≤ id) (unknown : id ∉ c.ids)
    (added : c.addSurface id flags geometry surface = some c') :
    Tabled outputs { c' with pendingSurface := none } (v.tell (.introduced id)) := by
  obtain ⟨space, rfl⟩ := addSurface_new unknown added
  have room : v.Room outputs id := by
    refine ⟨fun held => ?_, fun shown => ?_, ?_⟩
    · exact unknown ((tabled.holds.ids id).mpr (.inr (.inl held)))
    · exact unknown (shown ▸ tabled.shown)
    · rwa [← tabled.holds.size]
  have older : ∀ item : SurfaceItem, ∀ x ∈ c.ids, x ∈ (c.surfaces ++ [item]).map
      SurfaceItem.id := by
    intro item x member
    rw [List.map_append]
    exact List.mem_append_left _ member
  refine ⟨tabled.holds.addSurface room dynamic rfl rfl rfl small rfl, ?_, ?_, ?_, ?_⟩
  · rw [List.length_append, List.length_singleton]
    exact space
  · exact older _ _ tabled.shown
  · exact fun rx receiving => older _ _ (tabled.fence rx receiving)
  · exact fun _ some => by cases some

private theorem Tabled.acceptHeader (tabled : c.Tabled outputs v)
    (small : outputs ≤ outputQueueMaxBuffers) (idle : c.fenceRx = none)
    (ready : c.pendingSurface = none) {m : XiosMsg} (accepted : c.acceptHeader m = step) :
    (∃ reason, step = .fail reason) ∨
      ∃ c', step = .loop c' ∧ c'.Tabled outputs
        (if m.type = msgSurfaceDrop then v.tell (.dropped m.windowId) else v) := by
  obtain failed | ⟨c', rfl, other, surfaces, current, fence, pending⟩ |
    ⟨drop, known, dynamic, rfl⟩ := acceptHeader_cases accepted
  · exact .inl failed
  · refine .inr ⟨c', rfl, ?_⟩
    rw [if_neg other]
    refine tabled.of_eq surfaces current (fun rx receiving => ?_) fun m' waits => ?_
    · obtain same | ⟨rx', begun, known⟩ := fence
      · exact tabled.fence rx (same ▸ receiving)
      · rw [begun] at receiving
        cases receiving
        exact known
    · obtain same | ⟨m'', begun, fresh⟩ := pending
      · exact tabled.fresh m' (same ▸ waits)
      · rw [begun] at waits
        cases waits
        exact fresh
  · refine .inr ⟨_, rfl, ?_⟩
    rw [if_pos drop]
    by_cases shown : m.windowId = c.currentSurfaceId
    · rw [if_pos shown]
      exact tabled.drop_shown idle ready dynamic shown
        (retire_surfaces tabled.holds.apart m.windowId) ⟨rfl, rfl, rfl⟩
    · rw [if_neg shown]
      exact tabled.drop_other small idle ready dynamic known shown

/-- The table follows what each received record tells. -/
private theorem Tabled.receive (tabled : c.Tabled outputs v)
    (small : outputs ≤ outputQueueMaxBuffers) (ready : c.pendingSurface = none)
    {bytes : List UInt8} (received : c.receive bytes = step) :
    (∃ reason, step = .fail reason) ∨
      ∃ c', (step = .loop c' ∨ step = .done c' true) ∧
        c'.Tabled outputs ((c.tells (.recv (.data bytes))).elim v v.tell) := by
  subst received
  unfold XSurfaceConn.receive XSurfaceConn.tells
  cases fence : c.fenceRx with
  | some rx =>
    simp only
    split
    · -- The token is still incomplete.
      refine .inr ⟨_, .inl rfl, tabled.of_eq rfl rfl (fun rx' same => ?_) tabled.fresh⟩
      cases same
      exact tabled.fence rx fence
    · -- The frame is shown.
      have surfaces : ∀ token, Tabled outputs { c with fence := { c.fence with token } } v :=
        fun token => tabled.of_eq rfl rfl tabled.fence tabled.fresh
      exact .inr ⟨_, .inr rfl, (surfaces _).showFrame small ready (tabled.fence rx fence)⟩
  | none =>
    have nothing : ∀ rx, (none : Option FenceRx) = some rx → rx.surfaceId ∈ c.ids :=
      fun _ same => by cases same
    cases cursor : c.cursorRx with
    | some rx =>
      simp only [Option.isSome_some, true_or, if_true, Option.elim_none]
      split
      · exact .inr ⟨_, .inl rfl, tabled.of_eq rfl rfl nothing tabled.fresh⟩
      · exact .inr ⟨_, .inl rfl, tabled.of_eq rfl rfl nothing tabled.fresh⟩
    | none =>
      simp only [Option.isSome_none, Bool.false_eq_true, false_or]
      by_cases skipping : 0 < c.skip
      · rw [if_pos skipping, if_pos (.inl skipping)]
        exact .inr ⟨_, .inl rfl, tabled.of_eq rfl rfl nothing tabled.fresh⟩
      rw [if_neg skipping]
      by_cases short : (c.rxbuf ++ bytes).length < msgSize
      · rw [if_pos short, if_pos (.inr short)]
        exact .inr ⟨_, .inl rfl, tabled.of_eq rfl rfl nothing tabled.fresh⟩
      rw [if_neg short, if_neg (not_or.mpr ⟨skipping, short⟩)]
      have emptied : Tabled outputs { c with rxbuf := [], fenceRx := none, cursorRx := none } v :=
        tabled.of_eq rfl rfl nothing tabled.fresh
      obtain failed | ⟨c', step, later⟩ := emptied.acceptHeader small rfl ready rfl
      · exact .inl failed
      · refine .inr ⟨c', .inl step, ?_⟩
        split at later <;> rename_i kind
        · rw [if_pos kind]
          exact later
        · rw [if_neg kind]
          exact later

variable {answer : DrainAnswer}

private theorem Tabled.drain (tabled : c.Tabled outputs v)
    (small : outputs ≤ outputQueueMaxBuffers) (geometry : Nat → SurfaceGeometry)
    (answers : c.Answers answer) :
    (∃ reason, c.drain geometry answer = .fail reason) ∨
      ∃ c', (c.drain geometry answer = .loop c' ∨
          ∃ dirty, c.drain geometry answer = .done c' dirty) ∧
        c'.Tabled outputs ((c.tells answer).elim v v.tell) := by
  cases answer with
  | port result =>
    obtain ⟨m, waits⟩ := Option.isSome_iff_exists.mp answers
    have drained : c.drain geometry (.port result) = importPending geometry c m result := by
      simp only [XSurfaceConn.drain, waits]
    rw [drained]
    cases result with
    | timedOut => exact .inr ⟨c, .inr ⟨false, rfl⟩, tabled⟩
    | failed => exact .inl ⟨_, rfl⟩
    | arrived surface =>
      obtain ⟨dynamic, unknown⟩ := tabled.fresh m waits
      rw [importPending, XSurfaceConn.tells, waits]
      split
      · exact .inl ⟨_, rfl⟩
      · cases added : c.addSurface m.windowId m.d (wireGeometry m) surface with
        | none => exact .inl ⟨_, rfl⟩
        | some c' =>
          exact .inr ⟨_, .inl rfl, tabled.addSurface small dynamic unknown added⟩
  | recv result =>
    have ready : c.pendingSurface = none := by
      cases result with
      | data bytes => exact answers.1
      | eof | again | intr | error => exact answers
    cases result with
    | data bytes =>
      have drained : c.drain geometry (.recv (.data bytes)) = c.receive bytes := by
        simp only [XSurfaceConn.drain, ready]
      rw [drained]
      obtain failed | ⟨c', step, later⟩ := tabled.receive small ready rfl
      · exact .inl failed
      · exact .inr ⟨c', step.imp_right fun done => ⟨true, done⟩, later⟩
    | again => exact .inr ⟨c, .inr ⟨false, by simp only [XSurfaceConn.drain, ready]⟩, tabled⟩
    | intr => exact .inr ⟨c, .inl (by simp only [XSurfaceConn.drain, ready]), tabled⟩
    | eof | error => exact .inl ⟨.closed, by simp only [XSurfaceConn.drain, ready]⟩

private theorem tabled_connected (geometry : Nat → SurfaceGeometry) {outputs : List Nat}
    (begun : outputs ≠ []) (small : outputs.length ≤ outputQueueMaxBuffers) :
    (connected geometry outputs).Tabled outputs.length .opening where
  holds := AppStream.holds_connected geometry small
  few := by
    have size : (connected geometry outputs).surfaces.length = outputs.length := by
      simp [connected]
    have room : outputQueueMaxBuffers ≤ xsurfaceMaxSurfaces := by decide
    omega
  shown := by
    rw [ids, AppStream.ids_connected]
    exact List.mem_map.mpr ⟨0, List.mem_range.mpr (List.length_pos_iff.mpr begun), rfl⟩
  fence _ receiving := by cases receiving
  fresh _ waits := by cases waits

variable {geometry : Nat → SurfaceGeometry}

private theorem next_eq {s : AppTable}
    (step : s.stream.conn.drain geometry answer = .loop c' ∨
      ∃ dirty, s.stream.conn.drain geometry answer = .done c' dirty) :
    (s.next geometry answer).stream.conn = c' ∧
      StreamView.after (s.next geometry answer).told =
        (s.stream.conn.tells answer).elim (.after s.told) (StreamView.after s.told).tell := by
  have acted : s.stream.conn.acts geometry answer = s.stream.conn.tells answer := by
    obtain step | ⟨dirty, step⟩ := step <;> simp [acts, step]
  have reached : (s.next geometry answer).stream.conn = c' := by
    obtain step | ⟨dirty, step⟩ := step <;> simp [AppTable.next, AppStream.next, step]
  refine ⟨reached, ?_⟩
  rw [AppTable.next, acted]
  cases s.stream.conn.tells answer <;> rfl

private theorem tabled_of_run {outputs : List Nat} (begun : outputs ≠ [])
    (small : outputs.length ≤ outputQueueMaxBuffers) {trace : List DrainAnswer} {s : AppTable}
    (run : (AppTable.machine geometry outputs).Run trace s) :
    s.stream.failed = none → s.stream.conn.Tabled outputs.length (.after s.told) := by
  refine run.invariant (fun _ s => s.stream.failed = none →
    s.stream.conn.Tabled outputs.length (.after s.told)) ?_ ?_
  · rintro s rfl _
    exact tabled_connected geometry begun small
  · intro _ s answer tabled allowed alive
    obtain ⟨reason, failed⟩ | ⟨c', step, later⟩ :=
      (tabled allowed.1).drain small geometry allowed.2
    · simp [AppTable.machine, AppTable.next, AppStream.next, failed] at alive
    · have reached := next_eq (s := s) step
      rw [show (AppTable.machine geometry outputs).next s answer = s.next geometry answer from rfl,
        reached.1, reached.2]
      exact later

private theorem dynamic_of_dropped (answers : c.Answers answer)
    (acted : c.acts geometry answer = some (.dropped id)) : dynamicSurfaceIdBase ≤ id := by
  have told : c.tells answer = some (.dropped id) := by
    unfold acts at acted
    split at acted
    · cases acted
    · exact acted
    · exact acted
  -- Only a header can say so, and it is accepted.
  cases answer with
  | port result =>
    cases result with
    | arrived surface =>
      obtain ⟨m, -, other⟩ := Option.map_eq_some_iff.mp told
      cases other
    | timedOut | failed => cases told
  | recv result =>
    cases result with
    | eof | again | intr | error => cases told
    | data bytes =>
      have ready : c.pendingSurface = none := answers.1
      unfold tells at told
      cases fence : c.fenceRx with
      | some rx =>
        simp only [fence] at told
        split at told <;> cases told
      | none =>
        simp only [fence] at told
        split at told
        · cases told
        · rename_i full
          split at told
          · rename_i drop
            cases told
            simp only [not_or, Bool.not_eq_true, Option.isSome_eq_false_iff,
              Option.isNone_iff_eq_none] at full
            obtain ⟨cursor, skip, whole⟩ := full
            have read : c.drain geometry (.recv (.data bytes)) = acceptHeader
                { c with rxbuf := [] } (XiosMsg.decode (c.rxbuf ++ bytes)) := by
              simp only [XSurfaceConn.drain, ready, receive, fence, cursor]
              rw [if_neg skip, if_neg whole]
            obtain ⟨reason, failed⟩ | ⟨c', -, other, -⟩ | ⟨-, -, dynamic, -⟩ :=
              acceptHeader_cases read.symm
            · simp [acts, failed] at acted
            · exact absurd drop other
            · exact dynamic
          · cases told

end XSurfaceConn

/--
The table is in order however the app is answered, and surfaces leave it for two reasons only.

One is that a surface is taken back that is not on display, the other that another surface is shown
in place of one that was taken back.
-/
theorem surface_table {geometry : Nat → SurfaceGeometry} {outputs : List Nat}
    (begun : outputs ≠ []) (small : outputs.length ≤ outputQueueMaxBuffers)
    {trace : List DrainAnswer} {s : AppTable}
    (run : (AppTable.machine geometry outputs).Run trace s) (alive : s.stream.failed = none) :
    s.stream.conn.InOrder outputs.length (.after s.told) ∧
    ∀ answer, s.stream.conn.Answers answer → (s.next geometry answer).stream.failed = none →
      ∀ id ∈ s.stream.conn.ids,
        (id ∉ (s.next geometry answer).stream.conn.ids ↔
          s.stream.conn.acts geometry answer = some (.dropped id) ∧
              id ≠ s.stream.conn.currentSurfaceId ∨
            (∃ other, other ≠ id ∧ s.stream.conn.acts geometry answer = some (.shown other)) ∧
              id = s.stream.conn.currentSurfaceId ∧ (StreamView.after s.told).Retains) := by
  have tabled := XSurfaceConn.tabled_of_run begun small run alive
  refine ⟨tabled.inOrder small, fun answer answers lives id known => ?_⟩
  have later : (s.next geometry answer).stream.conn.Tabled outputs.length
      (.after (s.next geometry answer).told) :=
    XSurfaceConn.tabled_of_run begun small (run.step answer ⟨alive, answers⟩) lives
  have order := later.inOrder small
  have listed := (tabled.inOrder small).listed id
  have current := tabled.holds.current
  rw [order.listed, order.current]
  rw [listed] at known
  cases acted : s.stream.conn.acts geometry answer with
  | none =>
    have same : StreamView.after (s.next geometry answer).told = .after s.told := by
      rw [AppTable.next, acted]
      rfl
    rw [same, ← current]
    simp [known]
  | some event =>
    have told : StreamView.after (s.next geometry answer).told =
        (StreamView.after s.told).tell event := by
      rw [AppTable.next, acted]
      rfl
    rw [told]
    cases event with
    | introduced x =>
      -- A surface that comes takes no other one with it.
      simp only [StreamView.tell, Finset.mem_insert, ← current]
      grind
    | dropped x =>
      have dynamic := XSurfaceConn.dynamic_of_dropped answers acted
      have client : isOutput outputs.length x ≠ true := fun output =>
        static_of_isOutput small output dynamic
      simp only [StreamView.tell, Finset.mem_erase, ← current]
      grind
    | shown x =>
      -- What was on display and is no longer held was taken back.
      have gone : id = s.stream.conn.currentSurfaceId → isOutput outputs.length id ≠ true →
          id ∉ (StreamView.after s.told).held → (StreamView.after s.told).Retains := by
        intro shown client unheld
        rw [shown, current] at client unheld
        obtain output | held | ⟨retains, -⟩ := (tabled.holds.ids _).mp tabled.shown
        · exact absurd output client
        · exact absurd held unheld
        · exact retains
      have client : (StreamView.after s.told).Retains →
          isOutput outputs.length s.stream.conn.currentSurfaceId ≠ true ∧
            s.stream.conn.currentSurfaceId ∉ (StreamView.after s.told).held := by
        rintro ⟨dynamic, unheld⟩
        rw [current]
        exact ⟨fun output => static_of_isOutput small output dynamic, unheld⟩
      simp only [StreamView.tell]
      grind

/-- A client surface is introduced, shown, and taken back before the output is announced again. -/
private def retiringScript : List DrainAnswer :=
  let surface : XiosMsg :=
    { magic := msgMagic, type := msgSurface, windowId := dynamicSurfaceIdBase, a := 1#32, b := 1#32
      c := 4#32 }
  let frame (id : BitVec 32) : XiosMsg :=
    { magic := msgMagic, type := msgDirty, windowId := id
      length := BitVec.ofNat 32 gpuFenceTokenSize, a := 1#32, c := 1#32 }
  let drop : XiosMsg :=
    { magic := msgMagic, type := msgSurfaceDrop, windowId := dynamicSurfaceIdBase }
  [.recv (.data (surface.encode.take 20)), .recv .again, .recv (.data (surface.encode.drop 20)),
    .port .timedOut, .port (.arrived 9), .recv (.data (frame dynamicSurfaceIdBase).encode),
    .recv (.data (List.replicate 32 0)), .recv (.data drop.encode),
    .recv (.data (frame primarySurfaceId).encode)]

theorem surface_table_retiring :
    let geometry : Nat → SurfaceGeometry := fun _ => ⟨1#32, 1#32, 4#32⟩
    let s := retiringScript.foldl (AppTable.next geometry)
      { stream := { conn := .connected geometry [7] } }
    let s' := s.next geometry (.recv (.data (List.replicate 32 0)))
    (s.stream.conn.InOrder 1 (.after s.told) ∧
      (dynamicSurfaceIdBase ∉ s'.stream.conn.ids ↔
        s.stream.conn.acts geometry (.recv (.data (List.replicate 32 0))) =
              some (.dropped dynamicSurfaceIdBase) ∧
            dynamicSurfaceIdBase ≠ s.stream.conn.currentSurfaceId ∨
          (∃ other, other ≠ dynamicSurfaceIdBase ∧
              s.stream.conn.acts geometry (.recv (.data (List.replicate 32 0))) =
                some (.shown other)) ∧
            dynamicSurfaceIdBase = s.stream.conn.currentSurfaceId ∧
              (StreamView.after s.told).Retains)) ∧
      s.stream.conn.ids = [1#32, 256#32] ∧ s'.stream.conn.ids = [1#32] := by
  intro geometry s s'
  have run : (AppTable.machine geometry [7]).Run retiringScript.reverse s :=
    Machine.Run.of_script rfl retiringScript (by decide +kernel)
  have table := surface_table (show ([7] : List Nat) ≠ [] by decide) (by decide) run
    (by decide +kernel)
  refine ⟨⟨table.1, ?_⟩, by decide +kernel, by decide +kernel⟩
  exact table.2 _ (by decide +kernel) (by decide +kernel) _ (by decide +kernel)

end Xios
