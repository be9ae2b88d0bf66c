import Xios.App.StreamView
import Xios.Lib.SwapTable

/-! The app reads the presentation stream as the protocol says. -/

namespace Xios

theorem static_of_isOutput {outputs : Nat} (few : outputs ≤ outputQueueMaxBuffers)
    {id : BitVec 32} (output : isOutput outputs id = true) : ¬dynamicSurfaceIdBase ≤ id := by
  obtain ⟨i, member, named⟩ := List.any_eq_true.mp output
  simp only [List.mem_range] at member
  simp only [decide_eq_true_eq] at named
  have small : i < 3 := lt_of_lt_of_le member few
  rw [← named, BitVec.le_def]
  simp only [primarySurfaceId, dynamicSurfaceIdBase, BitVec.toNat_add, BitVec.toNat_ofNat]
  omega

/-- A view in which all client surfaces have ids of their own. -/
def StreamView.Dynamic (v : StreamView) : Prop :=
  ∀ id ∈ v.held, dynamicSurfaceIdBase ≤ id

namespace XSurfaceConn

variable {outputs : Nat} {c : XSurfaceConn} {v : StreamView}
/-- The app knows exactly the surfaces that it was told of. -/
structure Holds (outputs : Nat) (c : XSurfaceConn) (v : StreamView) : Prop where
  -- No id occurs twice.
  apart : (c.surfaces.map SurfaceItem.id).Nodup
  -- The surfaces are the outputs, those that were introduced, and the one on display.
  ids : ∀ id, id ∈ c.surfaces.map SurfaceItem.id ↔
    isOutput outputs id = true ∨ id ∈ v.held ∨ v.Retains ∧ id = v.current
  -- The surface on display is the only one that can be retired.
  retired : ∀ item ∈ c.surfaces, item.retired = true ↔ v.Retains ∧ item.id = v.current
  -- There are as many as the protocol says.
  size : c.surfaces.length = v.kept outputs
  -- The right one is on display.
  current : c.currentSurfaceId = v.current
  -- Client surfaces have ids of their own.
  dynamic : v.Dynamic

variable {id : BitVec 32}

theorem findSurface_isSome :
    (c.findSurface id).isSome = true ↔ id ∈ c.surfaces.map SurfaceItem.id := by
  simp [findSurface, List.find?_isSome]

theorem removeSurface_perm (known : id ∈ c.surfaces.map SurfaceItem.id) :
    ∃ item, item.id = id ∧ c.surfaces.Perm (item :: (c.removeSurface id).surfaces) := by
  obtain ⟨item, member, named⟩ := List.mem_map.mp known
  cases found : c.surfaces.findIdx? fun item => item.id = id with
  | none =>
    rw [List.findIdx?_eq_none_iff] at found
    exact absurd named (by simpa using found item member)
  | some index =>
    cases ends : c.surfaces.getLast? with
    | none =>
      rw [List.getLast?_eq_none_iff] at ends
      rw [ends] at member
      cases member
    | some last =>
      obtain ⟨inside, here, -⟩ := List.findIdx?_eq_some_iff_getElem.mp found
      refine ⟨c.surfaces[index], by simpa using here, ?_⟩
      have removed : (c.removeSurface id).surfaces = (c.surfaces.set index last).dropLast := by
        simp [removeSurface, found, ends]
      rw [removed]
      exact perm_set_getLast_dropLast (List.getElem?_eq_getElem inside) ends

variable {c' : XSurfaceConn}

theorem Holds.of_eq (holds : c.Holds outputs v) (surfaces : c'.surfaces = c.surfaces)
    (current : c'.currentSurfaceId = c.currentSurfaceId) : c'.Holds outputs v := by
  obtain ⟨apart, ids, retired, size, shown, dynamic⟩ := holds
  refine ⟨?_, ?_, ?_, ?_, ?_, dynamic⟩
  · rwa [surfaces]
  · rwa [surfaces]
  · rwa [surfaces]
  · rwa [surfaces]
  · rwa [current]

theorem Holds.unknown (holds : c.Holds outputs v) (few : outputs ≤ outputQueueMaxBuffers)
    (dynamic : dynamicSurfaceIdBase ≤ id) (unheld : id ∉ v.held) (other : id ≠ v.current) :
    id ∉ c.surfaces.map SurfaceItem.id := by
  rw [holds.ids]
  rintro (output | held | ⟨-, shown⟩)
  · exact static_of_isOutput few output dynamic
  · exact unheld held
  · exact other shown

/-- A surface that is added to the table is one more the app holds. -/
theorem Holds.addSurface (holds : c.Holds outputs v) (room : v.Room outputs id)
    (dynamic : dynamicSurfaceIdBase ≤ id) {item : SurfaceItem} (named : item.id = id)
    (fresh : item.retired = false) (added : c'.surfaces = c.surfaces ++ [item])
    (few : outputs ≤ outputQueueMaxBuffers) (current : c'.currentSurfaceId = c.currentSurfaceId) :
    c'.Holds outputs { v with held := insert id v.held } := by
  obtain ⟨unheld, other, space⟩ := room
  -- The surface on display is another one.
  have retains : StreamView.Retains { v with held := insert id v.held } ↔ v.Retains := by
    simp [StreamView.Retains, Ne.symm other]
  have unknown := holds.unknown few dynamic unheld other
  refine ⟨?_, ?_, ?_, ?_, ?_, ?_⟩
  · rw [added, List.map_append, List.map_singleton, named]
    exact List.nodup_append.mpr ⟨holds.apart, List.nodup_singleton _, by
      intro x member y last
      rw [List.mem_singleton.mp last]
      exact fun same => unknown (same ▸ member)⟩
  · intro x
    rw [added, List.map_append, List.mem_append, holds.ids, retains, Finset.mem_insert]
    simp only [List.map_cons, List.map_nil, List.mem_singleton, named]
    tauto
  · intro x member
    rw [retains]
    rw [added] at member
    rcases List.mem_append.mp member with older | newest
    · exact holds.retired x older
    · rw [List.mem_singleton.mp newest, fresh, named]
      simp [other]
  · rw [added, List.length_append, holds.size]
    simp only [StreamView.kept, retains, Finset.card_insert_of_notMem unheld,
      List.length_singleton]
    omega
  · rw [current]
    exact holds.current
  · intro x member
    rcases Finset.mem_insert.mp member with same | older
    · rw [same]
      exact dynamic
    · exact holds.dynamic x older

theorem mem_ids_of_perm {l rest : List SurfaceItem} {item : SurfaceItem}
    (apart : (l.map SurfaceItem.id).Nodup) (perm : l.Perm (item :: rest)) :
    (rest.map SurfaceItem.id).Nodup ∧
      ∀ id, id ∈ rest.map SurfaceItem.id ↔ id ∈ l.map SurfaceItem.id ∧ id ≠ item.id := by
  have ids := perm.map SurfaceItem.id
  have unique := ids.nodup_iff.mp apart
  rw [List.map_cons, List.nodup_cons] at unique
  refine ⟨unique.2, ?_⟩
  intro id
  rw [ids.mem_iff, List.map_cons, List.mem_cons]
  constructor
  · intro member
    refine ⟨.inr member, ?_⟩
    intro same
    rw [same] at member
    exact unique.1 member
  · rintro ⟨same | member, other⟩
    · exact absurd same other
    · exact member

/-- A surface that is dropped and not shown leaves the table at once. -/
theorem Holds.removeSurface (holds : c.Holds outputs v) (few : outputs ≤ outputQueueMaxBuffers)
    (held : id ∈ v.held) (other : id ≠ v.current)
    (removed : c'.surfaces = (c.removeSurface id).surfaces)
    (current : c'.currentSurfaceId = c.currentSurfaceId) :
    c'.Holds outputs { v with held := v.held.erase id } := by
  have known : id ∈ c.surfaces.map SurfaceItem.id := (holds.ids id).mpr (.inr (.inl held))
  obtain ⟨item, named, perm⟩ := removeSurface_perm known
  rw [← removed] at perm
  obtain ⟨apart, members⟩ := mem_ids_of_perm holds.apart perm
  have retains : StreamView.Retains { v with held := v.held.erase id } ↔ v.Retains := by
    simp [StreamView.Retains, Ne.symm other]
  refine ⟨apart, ?_, ?_, ?_, ?_, ?_⟩
  · intro x
    rw [members, holds.ids, retains, Finset.mem_erase, named]
    constructor
    · rintro ⟨output | held' | shown, different⟩
      · exact .inl output
      · exact .inr (.inl ⟨different, held'⟩)
      · exact .inr (.inr shown)
    · rintro (output | ⟨different, held'⟩ | ⟨retained, shown⟩)
      · refine ⟨.inl output, ?_⟩
        rintro rfl
        exact static_of_isOutput few output (holds.dynamic _ held)
      · exact ⟨.inr (.inl held'), different⟩
      · refine ⟨.inr (.inr ⟨retained, shown⟩), ?_⟩
        rintro rfl
        exact other shown
  · intro x member
    rw [retains]
    exact holds.retired x (perm.mem_iff.mpr (List.mem_cons_of_mem _ member))
  · have size := perm.length_eq
    have positive : 0 < v.held.card := Finset.card_pos.mpr ⟨id, held⟩
    rw [holds.size, List.length_cons] at size
    simp only [StreamView.kept, retains, Finset.card_erase_of_mem held] at size ⊢
    omega
  · rw [current]
    exact holds.current
  · intro x member
    exact holds.dynamic x (Finset.mem_of_mem_erase member)

theorem retire_surfaces {surfaces : List SurfaceItem}
    (apart : (surfaces.map SurfaceItem.id).Nodup) (id : BitVec 32) :
    (surfaces.modify (surfaces.findIdx fun item => item.id = id)
        fun item => { item with retired := true }) =
      surfaces.map fun item => if item.id = id then { item with retired := true } else item := by
  have single : surfaces.Pairwise fun x y =>
      ¬(decide (x.id = id) = true ∧ decide (y.id = id) = true) := by
    refine (List.pairwise_map.mp apart).imp ?_
    intro x y apart both
    simp only [decide_eq_true_eq] at both
    exact apart (both.1.trans both.2.symm)
  have changed := modify_findIdx_eq_map (f := fun item : SurfaceItem =>
    { item with retired := true }) single
  simpa only [decide_eq_true_eq] using changed

/-- The surface that is shown stays in the table, but is retired. -/
theorem Holds.retire
    (holds : c.Holds outputs v) (held : id ∈ v.held) (shown : id = v.current)
    (retired : c'.surfaces = c.surfaces.map fun item =>
      if item.id = id then { item with retired := true } else item)
    (current : c'.currentSurfaceId = c.currentSurfaceId) :
    c'.Holds outputs { v with held := v.held.erase id } := by
  have kept : (c'.surfaces.map SurfaceItem.id) = c.surfaces.map SurfaceItem.id := by
    rw [retired, List.map_map]
    refine List.map_congr_left fun item _ => ?_
    simp only [Function.comp_apply]
    split <;> rfl
  have before : ¬v.Retains := fun retains => retains.2 (shown ▸ held)
  have after : StreamView.Retains { v with held := v.held.erase id } := by
    refine ⟨?_, ?_⟩
    · rw [← shown]
      exact holds.dynamic id held
    · simp [← shown]
  refine ⟨?_, ?_, ?_, ?_, ?_, ?_⟩
  · rw [kept]
    exact holds.apart
  · intro x
    rw [kept, holds.ids]
    simp only [before, after, false_and, or_false, true_and, Finset.mem_erase]
    rw [← shown]
    by_cases same : x = id
    · simp [same, held]
    · simp [same]
  · intro x member
    simp only [after, true_and]
    rw [retired] at member
    obtain ⟨item, member, same⟩ := List.mem_map.mp member
    have fresh : item.retired = false := by
      rw [← Bool.not_eq_true, holds.retired item member]
      exact fun gone => before gone.1
    rw [← same]
    split
    · rename_i named
      simp [named, shown]
    · rename_i named
      rw [fresh]
      simpa [← shown] using named
  · have positive : 0 < v.held.card := Finset.card_pos.mpr ⟨id, held⟩
    have size := holds.size
    rw [retired, List.length_map]
    simp only [StreamView.kept, before, after, if_true, if_false,
      Finset.card_erase_of_mem held] at size ⊢
    omega
  · rw [current]
    exact holds.current
  · intro x member
    exact holds.dynamic x (Finset.mem_of_mem_erase member)

theorem removeSurface_eq (c : XSurfaceConn) (id : BitVec 32) :
    c.removeSurface id = { c with surfaces := (c.removeSurface id).surfaces } := by
  unfold removeSurface
  split <;> rfl

theorem removeSurface_surfaces (same : c'.surfaces = c.surfaces) (id : BitVec 32) :
    (c'.removeSurface id).surfaces = (c.removeSurface id).surfaces := by
  unfold removeSurface
  rw [same]
  split
  · rfl
  · exact same

theorem showFrame_current (c : XSurfaceConn) (rx : FenceRx) :
    (c.showFrame rx).currentSurfaceId = rx.surfaceId := by
  unfold showFrame
  simp only
  split
  · rw [removeSurface_eq]
  · rfl

theorem showFrame_rest (c : XSurfaceConn) (rx : FenceRx) :
    (c.showFrame rx).fenceRx = none ∧ (c.showFrame rx).cursorRx = c.cursorRx ∧
      (c.showFrame rx).skip = c.skip ∧ (c.showFrame rx).pendingSurface = c.pendingSurface ∧
      (c.showFrame rx).rxbuf = c.rxbuf := by
  unfold showFrame
  simp only
  split
  · rw [removeSurface_eq]
    exact ⟨rfl, rfl, rfl, rfl, rfl⟩
  · exact ⟨rfl, rfl, rfl, rfl, rfl⟩

variable {rx : FenceRx}

theorem showFrame_removes (other : c.currentSurfaceId ≠ rx.surfaceId)
    (retired : (c.findSurface c.currentSurfaceId).any SurfaceItem.retired = true) :
    (c.showFrame rx).surfaces = (c.removeSurface c.currentSurfaceId).surfaces := by
  unfold findSurface at retired
  simp only [showFrame, findSurface, ne_eq, other, not_false_eq_true, retired, and_self, if_true]
  refine removeSurface_surfaces ?_ _
  rfl

theorem showFrame_keeps
    (fresh : (c.findSurface c.currentSurfaceId).any SurfaceItem.retired = false) :
    (c.showFrame rx).surfaces = c.surfaces := by
  unfold findSurface at fresh
  simp [showFrame, findSurface, fresh]

theorem Holds.retired_current (holds : c.Holds outputs v) :
    (c.findSurface c.currentSurfaceId).any SurfaceItem.retired = decide v.Retains := by
  rw [holds.current]
  cases lookup : c.findSurface v.current with
  | none =>
    have lost : ¬v.Retains := fun retains => by
      have found := findSurface_isSome.mpr ((holds.ids _).mpr (.inr (.inr ⟨retains, rfl⟩)))
      simp [lookup] at found
    simp [lost]
  | some item =>
    have named : item.id = v.current := by simpa using List.find?_some lookup
    have retired := holds.retired item (List.mem_of_find?_eq_some lookup)
    rw [Bool.eq_iff_iff, Option.any_some, retired]
    simp [named]

/-- A frame makes its surface the current one, and a retired one before it goes. -/
theorem Holds.showFrame (holds : c.Holds outputs v) (few : outputs ≤ outputQueueMaxBuffers)
    (known : isOutput outputs rx.surfaceId = true ∨ rx.surfaceId ∈ v.held) :
    (c.showFrame rx).Holds outputs { v with current := rx.surfaceId } := by
  -- The new surface on display was not taken back.
  have after : ¬StreamView.Retains { v with current := rx.surfaceId } := by
    rintro ⟨dynamic, unheld⟩
    rcases known with output | held
    · exact static_of_isOutput few output dynamic
    · exact unheld held
  have shown : ∀ {surfaces : List SurfaceItem}, (surfaces.map SurfaceItem.id).Nodup →
      (∀ id, id ∈ surfaces.map SurfaceItem.id ↔ isOutput outputs id = true ∨ id ∈ v.held) →
      (∀ item ∈ surfaces, item.retired = false) →
      surfaces.length = outputs + v.held.card → ∀ c' : XSurfaceConn, c'.surfaces = surfaces →
      c'.currentSurfaceId = rx.surfaceId →
      c'.Holds outputs { v with current := rx.surfaceId } := by
    intro surfaces apart ids fresh size c' same current
    subst same
    refine ⟨apart, ?_, ?_, ?_, current, holds.dynamic⟩
    · intro id
      rw [ids]
      simp [after]
    · intro item member
      simp [after, fresh item member]
    · simp [StreamView.kept, after, size]
  by_cases retains : v.Retains
  · -- The surface that was on display is the retired one.
    have listed : v.current ∈ c.surfaces.map SurfaceItem.id :=
      (holds.ids _).mpr (.inr (.inr ⟨retains, rfl⟩))
    have other : c.currentSurfaceId ≠ rx.surfaceId := by
      rw [holds.current]
      intro same
      rw [← same] at known
      rcases known with output | held
      · exact static_of_isOutput few output retains.1
      · exact retains.2 held
    obtain ⟨item, named, perm⟩ := removeSurface_perm listed
    obtain ⟨apart, members⟩ := mem_ids_of_perm holds.apart perm
    have removed := showFrame_removes other (by simp [holds.retired_current, retains])
    rw [holds.current] at removed
    refine shown apart ?_ ?_ ?_ _ removed (showFrame_current c rx)
    · intro id
      rw [members, holds.ids, named]
      constructor
      · rintro ⟨output | held | ⟨-, same⟩, different⟩
        · exact .inl output
        · exact .inr held
        · exact absurd same different
      · rintro (output | held)
        · refine ⟨.inl output, ?_⟩
          rintro rfl
          exact static_of_isOutput few output retains.1
        · refine ⟨.inr (.inl held), ?_⟩
          rintro rfl
          exact retains.2 held
    · intro x member
      rw [← Bool.not_eq_true, holds.retired x (perm.mem_iff.mpr (List.mem_cons_of_mem _ member))]
      rintro ⟨-, same⟩
      have listed' := List.mem_map_of_mem (f := SurfaceItem.id) member
      rw [members, named] at listed'
      exact listed'.2 same
    · have size := perm.length_eq
      rw [holds.size, List.length_cons] at size
      simp only [StreamView.kept, retains, if_true] at size
      omega
  · -- Nothing is retired.
    have fresh : ∀ item ∈ c.surfaces, item.retired = false := by
      intro item member
      rw [← Bool.not_eq_true, holds.retired item member]
      exact fun gone => retains gone.1
    have kept : (c.showFrame rx).surfaces = c.surfaces :=
      showFrame_keeps (by simp [holds.retired_current, retains])
    refine shown holds.apart ?_ fresh ?_ _ kept (showFrame_current c rx)
    · intro id
      rw [holds.ids]
      simp [retains]
    · rw [holds.size]
      simp [StreamView.kept, retains]

theorem Holds.mem_held (holds : c.Holds outputs v) (few : outputs ≤ outputQueueMaxBuffers)
    (id : BitVec 32) :
    (∃ item ∈ c.surfaces, item.id = id ∧ dynamicSurfaceIdBase ≤ id ∧ item.retired = false) ↔
      id ∈ v.held := by
  constructor
  · rintro ⟨item, member, named, dynamic, fresh⟩
    rcases (holds.ids id).mp (List.mem_map.mpr ⟨item, member, named⟩) with output | held | shown
    · exact absurd dynamic (static_of_isOutput few output)
    · exact held
    · rw [← named, ← holds.retired item member, fresh] at shown
      cases shown
  · intro held
    obtain ⟨item, member, named⟩ := List.mem_map.mp ((holds.ids id).mpr (.inr (.inl held)))
    refine ⟨item, member, named, holds.dynamic id held, ?_⟩
    rw [← Bool.not_eq_true, holds.retired item member, named]
    rintro ⟨retains, shown⟩
    exact retains.2 (shown ▸ held)

/-- No payload is being received. -/
structure Idle (c : XSurfaceConn) : Prop where
  fence : c.fenceRx = none
  cursor : c.cursorRx = none
  -- Nothing else.
  skip : c.skip = 0

/-- The app is in the given phase of the protocol, with part of the frame that the phase expects. -/
inductive Matches (outputs : Nat) (c : XSurfaceConn) : StreamPhase → List UInt8 → Prop where
  -- A header is incomplete.
  | header {v : StreamView} (holds : c.Holds outputs v) (idle : c.Idle)
      (ready : c.pendingSurface = none) (partly : c.rxbuf.length < msgSize) :
      Matches outputs c (.header v) c.rxbuf
  -- An introduction is complete but for its port.
  | pending {v : StreamView} {m : XiosMsg} (holds : c.Holds outputs v) (idle : c.Idle)
      (waiting : c.pendingSurface = some m) (introduces : v.Introduces outputs m)
      (empty : c.rxbuf = []) :
      Matches outputs c (.header { v with held := insert m.windowId v.held }) []
  -- A token is incomplete.
  | token {v : StreamView} {m : XiosMsg} {rx : FenceRx} {got : List UInt8}
      (holds : c.Holds outputs v) (ready : c.pendingSurface = none) (empty : c.rxbuf = [])
      (cursor : c.cursorRx = none) (skip : c.skip = 0) (receiving : c.fenceRx = some rx)
      (announces : v.Announces outputs m) (surface : rx.surfaceId = m.windowId)
      (size : rx.expected = BitVec.ofNat 32 gpuFenceTokenSize) (count : rx.got = got.length)
      (partly : got.length < gpuFenceTokenSize) : Matches outputs c (.token v m) got
  -- The pixels of the pointer are incomplete.
  | pixels {v : StreamView} {m : XiosMsg} {valid : m.Draws} {rx : CursorRx} {got : List UInt8}
      (holds : c.Holds outputs v) (ready : c.pendingSurface = none) (empty : c.rxbuf = [])
      (fence : c.fenceRx = none) (skip : c.skip = 0) (receiving : c.cursorRx = some rx)
      (size : rx.expected = m.length) (arrived : rx.pixels = got)
      (partly : got.length < m.length.toNat) : Matches outputs c (.pixels v m valid) got

theorem Matches.next_header (holds : c.Holds outputs v) (idle : c.Idle)
    (ready : c.pendingSurface = none) (empty : c.rxbuf = []) :
    c.Matches outputs (.header v) [] := by
  have waits : c.Matches outputs (.header v) c.rxbuf :=
    .header holds idle ready (by rw [empty]; exact Nat.succ_pos _)
  rwa [empty] at waits

theorem Matches.waits_header {got : List UInt8} (agree : c.Matches outputs (.header v) got)
    (ready : c.pendingSurface = none) : c.Holds outputs v ∧ c.Idle ∧ c.rxbuf = got := by
  cases agree with
  | header holds idle _ _ => exact ⟨holds, idle, rfl⟩
  | pending _ _ waiting _ _ =>
    rw [ready] at waiting
    cases waiting

/-- The app has taken in a header, and possibly waits for the port of a surface. -/
def Accepted (outputs : Nat) (phase : StreamPhase) (out : List XiosMsg) (step : DrainStep) : Prop :=
  ∃ c, (step = .loop c ∨ step = .done c true) ∧ c.Matches outputs phase [] ∧
    c.pendingSurface.toList = out

section

variable {m : XiosMsg}

theorem Holds.accept_announcement (holds : c.Holds outputs v) (idle : c.Idle)
    (ready : c.pendingSurface = none) (empty : c.rxbuf = []) (announces : v.Announces outputs m) :
    Accepted outputs (.token v m) [] (c.acceptHeader m) := by
  obtain ⟨magic, type, known, length, value⟩ := announces
  have found : (c.findSurface m.windowId).isNone = false := by
    rw [Option.isNone_eq_false_iff, findSurface_isSome, holds.ids]
    rcases known with output | held
    · exact .inl output
    · exact .inr (.inl held)
  have step : c.acceptHeader m = .loop { c with
      fenceRx := some
        { expected := m.length, surfaceId := m.windowId, dirtySeq := m.b ++ m.a
          value := m.d ++ m.c } } := by
    simp [acceptHeader, magic, type, found, length, value]
  refine ⟨_, .inl step, ?_, by simp [ready]⟩
  exact .token (holds.of_eq rfl rfl) ready empty idle.cursor idle.skip rfl
    ⟨magic, type, known, length, value⟩ rfl length rfl (Nat.succ_pos _)

theorem acceptHeader_surface (magic : m.magic = msgMagic) (type : m.type = msgSurface)
    (dynamic : dynamicSurfaceIdBase ≤ m.windowId) (length : m.length = 0#32)
    (width : 0 < m.a.toInt) (height : 0 < m.b.toInt) (stride : 0 < m.c.toInt)
    (flags : m.d &&& ~~~surfaceFlagFlipY = 0#32)
    (unknown : m.windowId ∉ c.surfaces.map SurfaceItem.id) :
    c.acceptHeader m = .loop { c with pendingSurface := some m } := by
  have other : msgSurface ≠ msgDirty := by decide
  have absent : (c.findSurface m.windowId).isSome = false := by
    rwa [← Bool.not_eq_true, findSurface_isSome]
  simp only [acceptHeader, magic, type, other, ne_eq, not_true_eq_false, if_false, if_true]
  rw [if_neg]
  simp only [not_or, not_le, not_not, Bool.not_eq_true]
  exact ⟨BitVec.not_lt.mpr dynamic, length, width, height, stride, flags, absent⟩

theorem Holds.accept_introduction (holds : c.Holds outputs v)
    (few : outputs ≤ outputQueueMaxBuffers) (idle : c.Idle) (empty : c.rxbuf = [])
    (introduces : v.Introduces outputs m) :
    Accepted outputs (.header { v with held := insert m.windowId v.held }) [m]
      (c.acceptHeader m) := by
  obtain ⟨magic, type, dynamic, length, width, height, stride, flags, room⟩ := introduces
  have unknown := holds.unknown few dynamic room.1 room.2.1
  have step := acceptHeader_surface magic type dynamic length width height stride flags unknown
  refine ⟨_, .inl step, ?_, rfl⟩
  exact .pending (holds.of_eq rfl rfl) ⟨idle.fence, idle.cursor, idle.skip⟩ rfl
    ⟨magic, type, dynamic, length, width, height, stride, flags, room⟩ empty

theorem Holds.accept_drop (holds : c.Holds outputs v) (few : outputs ≤ outputQueueMaxBuffers)
    (idle : c.Idle) (ready : c.pendingSurface = none) (empty : c.rxbuf = [])
    (takes : v.TakesBack m) :
    Accepted outputs (.header { v with held := v.held.erase m.windowId }) []
      (c.acceptHeader m) := by
  obtain ⟨magic, type, length, held⟩ := takes
  have dynamic := BitVec.not_lt.mpr (holds.dynamic m.windowId held)
  have found : (c.findSurface m.windowId).isNone = false := by
    rw [Option.isNone_eq_false_iff, findSurface_isSome, holds.ids]
    exact .inr (.inl held)
  have kinds : msgSurfaceDrop ≠ msgDirty ∧ msgSurfaceDrop ≠ msgSurface := by decide
  by_cases shown : m.windowId = c.currentSurfaceId
  · have step : c.acceptHeader m = .loop { c with
        surfaces := c.surfaces.modify (c.surfaces.findIdx fun item => item.id = m.windowId)
          fun item => { item with retired := true } } := by
      simp only [acceptHeader, magic, type, kinds, length, found, dynamic, ne_eq,
        not_true_eq_false, if_false, if_true, or_self, Bool.false_eq_true]
      rw [if_pos shown]
    refine ⟨_, .inl step, ?_, by simp [ready]⟩
    have changed := retire_surfaces holds.apart m.windowId
    exact .next_header (holds.retire held (shown.trans holds.current) changed rfl)
      ⟨idle.fence, idle.cursor, idle.skip⟩ ready empty
  · have step : c.acceptHeader m = .loop (c.removeSurface m.windowId) := by
      simp only [acceptHeader, magic, type, kinds, length, found, dynamic, ne_eq,
        not_true_eq_false, if_false, if_true, or_self, Bool.false_eq_true]
      rw [if_neg shown]
    rw [removeSurface_eq] at step
    refine ⟨_, .inl step, ?_, by simp [ready]⟩
    have other : m.windowId ≠ v.current := by
      rw [← holds.current]
      exact shown
    exact .next_header (holds.removeSurface few held other rfl rfl)
      ⟨idle.fence, idle.cursor, idle.skip⟩ ready empty

theorem Holds.accept_pointer (holds : c.Holds outputs v) (idle : c.Idle)
    (ready : c.pendingSurface = none) (empty : c.rxbuf = []) (points : m.Points) :
    Accepted outputs (.header v) [] (c.acceptHeader m) := by
  obtain ⟨magic, type, length⟩ := points
  rcases type with type | type
  · have kinds : msgCursor ≠ msgDirty ∧ msgCursor ≠ msgSurface ∧ msgCursor ≠ msgSurfaceDrop := by
      decide
    have step : c.acceptHeader m = .loop { c with
        cursor :=
          { x := m.a, y := m.b, shape := m.c, visible := m.d &&& 1#32
            seq := c.cursor.seq + 1#32 } } := by
      simp [acceptHeader, magic, type, kinds, length]
    refine ⟨_, .inl step, ?_, by simp [ready]⟩
    exact .next_header (holds.of_eq rfl rfl) ⟨idle.fence, idle.cursor, idle.skip⟩ ready empty
  · have kinds : msgCursorImage ≠ msgDirty ∧ msgCursorImage ≠ msgSurface ∧
        msgCursorImage ≠ msgSurfaceDrop ∧ msgCursorImage ≠ msgCursor := by
      decide
    have step : c.acceptHeader m = .loop { c with
        image := { c.image with width := 0#32, height := 0#32, seq := c.image.seq + 1#32 } } := by
      simp [acceptHeader, magic, type, kinds, length]
    refine ⟨_, .inl step, ?_, by simp [ready]⟩
    exact .next_header (holds.of_eq rfl rfl) ⟨idle.fence, idle.cursor, idle.skip⟩ ready empty

theorem Holds.accept_image (holds : c.Holds outputs v) (idle : c.Idle)
    (ready : c.pendingSurface = none) (empty : c.rxbuf = []) (draws : m.Draws) :
    Accepted outputs (.pixels v m draws) [] (c.acceptHeader m) := by
  obtain ⟨magic, type, width, height, narrow, low, length, positive⟩ := id draws
  have kinds : msgCursorImage ≠ msgDirty ∧ msgCursorImage ≠ msgSurface ∧
      msgCursorImage ≠ msgSurfaceDrop ∧ msgCursorImage ≠ msgCursor := by
    decide
  have nonempty : m.length ≠ 0#32 := by
    intro zero
    rw [zero] at positive
    exact absurd positive (by decide)
  have step : c.acceptHeader m = .loop { c with
      cursorRx := some
        { expected := m.length, width := m.a, height := m.b, hotX := m.c, hotY := m.d } } := by
    simp only [acceptHeader, magic, type, kinds, ne_eq, not_true_eq_false, if_false, if_true,
      nonempty]
    rw [if_neg]
    simp only [not_or, not_le, not_lt, not_not]
    exact ⟨width, height, narrow, low, length⟩
  refine ⟨_, .inl step, ?_, by simp [ready]⟩
  exact .pixels (holds.of_eq rfl rfl) ready empty idle.fence idle.skip rfl rfl rfl positive

theorem Holds.accept_header (holds : c.Holds outputs v) (few : outputs ≤ outputQueueMaxBuffers)
    (idle : c.Idle) (ready : c.pendingSurface = none) (empty : c.rxbuf = [])
    {frame : List UInt8} {phase : StreamPhase} {out : List XiosMsg}
    (went : (streamReader outputs).finish (.header v) frame = .more phase out) :
    Accepted outputs phase out (c.acceptHeader (XiosMsg.decode frame)) := by
  simp only [streamReader] at went
  split_ifs at went with announces introduces takes points draws
  · cases went
    exact holds.accept_announcement idle ready empty announces
  · cases went
    exact holds.accept_introduction few idle empty introduces
  · cases went
    exact holds.accept_drop few idle ready empty takes
  · cases went
    exact holds.accept_pointer idle ready empty points
  · cases went
    exact holds.accept_image idle ready empty draws

end

variable {phase : StreamPhase} {got : List UInt8}

theorem Matches.partly (agree : c.Matches outputs phase got) :
    got.length < (streamReader outputs).want phase := by
  cases agree with
  | header _ _ _ partly => exact partly
  | pending => exact (streamReader outputs).positive _
  | token _ _ _ _ _ _ _ _ _ _ partly => exact partly
  | pixels _ _ _ _ _ _ _ _ partly => exact partly

theorem Matches.requested (agree : c.Matches outputs phase got) (ready : c.pendingSurface = none) :
    c.requested = (streamReader outputs).want phase - got.length := by
  cases agree with
  | header _ idle _ _ => simp [XSurfaceConn.requested, idle.fence, idle.cursor, idle.skip, streamReader]
  | pending _ _ waiting =>
    rw [ready] at waiting
    cases waiting
  | token _ _ _ _ _ receiving _ _ size count _ =>
    simp [XSurfaceConn.requested, receiving, size, count, streamReader, gpuFenceTokenSize]
  | pixels _ _ _ fence _ receiving size arrived _ =>
    simp [XSurfaceConn.requested, fence, receiving, size, arrived, streamReader]

theorem receive_token {rx : FenceRx} (receiving : c.fenceRx = some rx) (bytes : List UInt8) :
    ∃ fence, c.receive bytes =
      if rx.got + bytes.length < rx.expected.toNat then
        .loop { c with fence, fenceRx := some { rx with got := rx.got + bytes.length } }
      else .done (showFrame { c with fence } { rx with got := rx.got + bytes.length }) true := by
  refine ⟨{ c.fence with
    token :=
      c.fence.token.take rx.got ++ bytes ++ c.fence.token.drop (rx.got + bytes.length) }, ?_⟩
  simp only [receive, receiving]

theorem receive_pixels {rx : CursorRx} (fence : c.fenceRx = none) (receiving : c.cursorRx = some rx)
    (bytes : List UInt8) :
    ∃ image, c.receive bytes =
      if (rx.pixels ++ bytes).length < rx.expected.toNat then
        .loop { c with cursorRx := some { rx with pixels := rx.pixels ++ bytes } }
      else .loop { c with image, cursorRx := none } := by
  refine ⟨{ pixels := rx.pixels ++ bytes, width := rx.width, height := rx.height, hotX := rx.hotX
            hotY := rx.hotY, seq := c.image.seq + 1#32 }, ?_⟩
  simp only [receive, fence, receiving]

variable {bytes : List UInt8}

theorem receive_header (idle : c.Idle) (full : (c.rxbuf ++ bytes).length = msgSize) :
    c.receive bytes =
      acceptHeader { c with rxbuf := [] } (XiosMsg.decode (c.rxbuf ++ bytes)) := by
  simp only [receive, idle.fence, idle.cursor, idle.skip, lt_self_iff_false, if_false]
  rw [if_neg (by rw [full]; exact lt_irrefl _)]

theorem Matches.receive_partly (agree : c.Matches outputs phase got)
    (ready : c.pendingSurface = none)
    (short : (got ++ bytes).length < (streamReader outputs).want phase) :
    ∃ c', c.receive bytes = .loop c' ∧ c'.Matches outputs phase (got ++ bytes) ∧
      c'.pendingSurface = none := by
  cases agree with
  | @header v holds idle _ _ =>
    have short' : (c.rxbuf ++ bytes).length < msgSize := short
    refine ⟨{ c with rxbuf := c.rxbuf ++ bytes }, ?_, ?_, ready⟩
    · simp only [receive, idle.fence, idle.cursor, idle.skip, lt_self_iff_false, if_false]
      rw [if_pos short']
    · have waits : Matches outputs { c with rxbuf := c.rxbuf ++ bytes } (.header v)
          { c with rxbuf := c.rxbuf ++ bytes }.rxbuf :=
        .header (holds.of_eq rfl rfl) ⟨idle.fence, idle.cursor, idle.skip⟩ ready short'
      exact waits
  | pending _ _ waiting =>
    rw [ready] at waiting
    cases waiting
  | @token v m rx got holds _ empty cursor skip receiving announces surface size count _ =>
    have short' : rx.got + bytes.length < rx.expected.toNat := by
      rw [size, count, ← List.length_append]
      exact short
    obtain ⟨fence, step⟩ := receive_token receiving bytes
    rw [if_pos short'] at step
    refine ⟨_, step, ?_, ready⟩
    exact .token (holds.of_eq rfl rfl) ready empty cursor skip rfl announces surface size
      (by simp [count]) short
  | @pixels v m valid rx got holds _ empty fence skip receiving size arrived _ =>
    have short' : (rx.pixels ++ bytes).length < rx.expected.toNat := by
      rw [size, arrived]
      exact short
    obtain ⟨image, step⟩ := receive_pixels fence receiving bytes
    rw [if_pos short'] at step
    refine ⟨_, step, ?_, ready⟩
    exact .pixels (holds.of_eq rfl rfl) ready empty fence skip rfl size (by simp [arrived]) short

/-- Once a record is complete, the app accepts what the reader of the stream accepts. -/
theorem Matches.receive_full (few : outputs ≤ outputQueueMaxBuffers) {phase' : StreamPhase}
    (agree : c.Matches outputs phase got) (ready : c.pendingSurface = none)
    (full : (got ++ bytes).length = (streamReader outputs).want phase) {out : List XiosMsg}
    (went : (streamReader outputs).finish phase (got ++ bytes) = .more phase' out) :
    Accepted outputs phase' out (c.receive bytes) := by
  cases agree with
  | @header v holds idle _ _ =>
    rw [receive_header idle full]
    have holds' : Holds outputs { c with rxbuf := [] } v := holds.of_eq rfl rfl
    exact holds'.accept_header few ⟨idle.fence, idle.cursor, idle.skip⟩ ready rfl went
  | pending _ _ waiting =>
    rw [ready] at waiting
    cases waiting
  | @token v m rx got holds _ empty cursor skip receiving announces surface size count _ =>
    cases went
    have full' : ¬rx.got + bytes.length < rx.expected.toNat := by
      rw [size, count, ← List.length_append, full]
      exact lt_irrefl _
    obtain ⟨fence, step⟩ := receive_token receiving bytes
    rw [if_neg full'] at step
    have known : isOutput outputs rx.surfaceId = true ∨ rx.surfaceId ∈ v.held := by
      rw [surface]
      exact announces.2.2.1
    have before : Holds outputs { c with fence } v := holds.of_eq rfl rfl
    have shown : Holds outputs
        (showFrame { c with fence } { rx with got := rx.got + bytes.length })
        { v with current := m.windowId } := by
      rw [← surface]
      exact before.showFrame few known
    obtain ⟨none, cursor', skip', ready', empty'⟩ :=
      showFrame_rest { c with fence } { rx with got := rx.got + bytes.length }
    refine ⟨_, .inr step, ?_, by rw [ready', ready]; rfl⟩
    exact .next_header shown ⟨none, cursor'.trans cursor, skip'.trans skip⟩ (ready'.trans ready)
      (empty'.trans empty)
  | @pixels v m valid rx got holds _ empty fence skip receiving size arrived _ =>
    cases went
    have full' : ¬(rx.pixels ++ bytes).length < rx.expected.toNat := by
      rw [size, arrived, full]
      exact lt_irrefl _
    obtain ⟨image, step⟩ := receive_pixels fence receiving bytes
    rw [if_neg full'] at step
    refine ⟨_, .inl step, ?_, by simp [ready]⟩
    exact .next_header (holds.of_eq rfl rfl) ⟨fence, rfl, skip⟩ ready empty

theorem Holds.importPort (few : outputs ≤ outputQueueMaxBuffers) {m : XiosMsg}
    (holds : c.Holds outputs v) (idle : c.Idle) (empty : c.rxbuf = [])
    (introduces : v.Introduces outputs m) {geometry : Nat → SurfaceGeometry} {surface : Nat}
    (fits : wireGeometry m = geometry surface) :
    ∃ c', importPending geometry c m (.arrived surface) = .loop c' ∧ c'.pendingSurface = none ∧
      c'.Matches outputs (.header { v with held := insert m.windowId v.held }) [] := by
  obtain ⟨-, -, dynamic, -, -, -, -, flags, room⟩ := introduces
  have unknown : c.surfaces.findIdx? (fun item => item.id = m.windowId) = none := by
    have absent := holds.unknown few dynamic room.1 room.2.1
    simpa [List.findIdx?_eq_none_iff] using absent
  have named : m.windowId ≠ 0#32 := by
    intro zero
    rw [zero] at dynamic
    exact absurd dynamic (by decide)
  have space : ¬xsurfaceMaxSurfaces ≤ c.surfaces.length := by
    rw [holds.size]
    exact Nat.not_le.mpr room.2.2
  have step : importPending geometry c m (.arrived surface) = .loop { c with
      surfaces := c.surfaces ++
        [{ surface, id := m.windowId, flags := m.d, geometry := wireGeometry m }]
      pendingSurface := none } := by
    simp [importPending, fits, XSurfaceConn.addSurface, named, flags, unknown, space]
  refine ⟨_, step, rfl, ?_⟩
  exact .next_header (holds.addSurface room dynamic rfl rfl rfl few rfl)
    ⟨idle.fence, idle.cursor, idle.skip⟩ rfl empty

end XSurfaceConn

namespace AppStream

open XSurfaceConn

/--
The app stands where the protocol does after the bytes read so far.

It has received the ports of all surfaces introduced so far but the one that it waits for.
-/
def Tracks (outputs : Nat) (wire : List UInt8) (ports : List Nat) (s : AppStream) : Prop :=
  (s.failed = none ∨ s.failed = some .closed) ∧ s.consumed <+: wire ∧ s.imported <+: ports ∧
    ∃ done phase got, (streamReader outputs).parse (.header .opening) s.consumed =
        ⟨done ++ s.conn.pendingSurface.toList, some (phase, got), []⟩ ∧
      s.conn.Matches outputs phase got ∧ done.length = s.imported.length

/-- Every introduction comes with the port of an allocation of the same geometry. -/
def Paired (geometry : Nat → SurfaceGeometry) (introduced : List XiosMsg) (ports : List Nat) :
    Prop :=
  ∃ used, used <+: ports ∧
    List.Forall₂ (fun m surface => wireGeometry m = geometry surface) introduced used

/-- The next port is that of the introduction that the app waits for. -/
theorem Paired.next {geometry : Nat → SurfaceGeometry} {introduced done : List XiosMsg}
    {ports imported : List Nat} {m : XiosMsg} {surface : Nat}
    (paired : Paired geometry introduced ports) (waiting : done ++ [m] <+: introduced)
    (same : done.length = imported.length) (arrived : imported ++ [surface] <+: ports) :
    wireGeometry m = geometry surface := by
  obtain ⟨used, part, fits⟩ := paired
  obtain ⟨later, split⟩ := waiting
  subst split
  have size := fits.length_eq
  simp only [List.length_append, List.length_singleton] at size
  have first : imported ++ [surface] <+: used :=
    List.prefix_of_prefix_length_le arrived part (by simp; omega)
  obtain ⟨rest, split⟩ := first
  subst split
  have dropped := List.forall₂_drop done.length fits
  rw [List.append_assoc, List.drop_left, same, List.append_assoc, List.drop_left] at dropped
  cases dropped with
  | cons head _ => exact head

section

variable {outputs : Nat} {geometry : Nat → SurfaceGeometry} {wire : List UInt8}
  {ports : List Nat} {introduced : List XiosMsg} {pending : StreamPhase × List UInt8}

/-- The app takes the next bytes of a stream it can follow to the end. -/
theorem Tracks.receive (few : outputs ≤ outputQueueMaxBuffers)
    (whole : (streamReader outputs).parse (.header .opening) wire = ⟨introduced, some pending, []⟩)
    {s : AppStream} (tracks : s.Tracks outputs wire ports) (alive : s.failed = none)
    (ready : s.conn.pendingSurface = none) {bytes : List UInt8}
    (asked : bytes.length ≤ s.conn.requested) (part : s.consumed ++ bytes <+: wire) :
    (s.next geometry (.recv (.data bytes))).Tracks outputs wire ports ∧
      (s.next geometry (.recv (.data bytes))).failed = none := by
  obtain ⟨-, -, imported, done, phase, got, parsed, agree, count⟩ := tracks
  rw [ready, Option.toList_none, List.append_nil] at parsed
  have extended := (streamReader outputs).parse_append_of_waiting parsed bytes
  have short := agree.partly
  rw [agree.requested ready] at asked
  by_cases complete : (got ++ bytes).length < (streamReader outputs).want phase
  · obtain ⟨c', step, agree', ready'⟩ := agree.receive_partly ready complete
    have step' : s.conn.drain geometry (.recv (.data bytes)) = .loop c' := by
      simpa [drain, ready] using step
    simp only [AppStream.next, step', Tracks, alive, answerBytes, answerPorts, List.append_nil]
    refine ⟨⟨.inl trivial, part, imported, done, phase, got ++ bytes, ?_, agree', count⟩, trivial⟩
    rw [extended, Reader.parse_short _ complete, ready']
    simp [Reader.Outcome.prepend]
  · have full : (got ++ bytes).length = (streamReader outputs).want phase := by
      rw [List.length_append] at complete ⊢
      omega
    -- The protocol does not stop here, since it does not stop on the whole stream.
    obtain ⟨out', phase', got', parsed', -⟩ := Reader.parse_of_prefix _ whole part
    cases decided : (streamReader outputs).finish phase (got ++ bytes) with
    | stop out =>
      have stopped := (streamReader outputs).parse_stop full decided []
      rw [List.append_nil] at stopped
      rw [extended, stopped] at parsed'
      cases parsed'
    | more next out =>
      have went := (streamReader outputs).parse_more full decided []
      rw [List.append_nil, Reader.parse_nil] at went
      obtain ⟨c', step, agree', delivered⟩ := agree.receive_full few ready full decided
      have moved : s.next geometry (.recv (.data bytes)) =
          { s with conn := c', consumed := s.consumed ++ bytes } := by
        rcases step with step | step
        · simp [AppStream.next, drain, ready, step, answerBytes, answerPorts]
        · simp [AppStream.next, drain, ready, step, answerBytes, answerPorts]
      rw [moved]
      refine ⟨⟨.inl alive, part, imported, done, next, [], ?_, agree', count⟩, alive⟩
      rw [extended, went, delivered]
      simp [Reader.Outcome.prepend]

theorem Tracks.importPort (few : outputs ≤ outputQueueMaxBuffers)
    (whole : (streamReader outputs).parse (.header .opening) wire = ⟨introduced, some pending, []⟩)
    (paired : Paired geometry introduced ports) {s : AppStream} (tracks : s.Tracks outputs wire ports)
    (alive : s.failed = none) {m : XiosMsg} (waiting : s.conn.pendingSurface = some m)
    {surface : Nat} (arrived : s.imported ++ [surface] <+: ports) :
    (s.next geometry (.port (.arrived surface))).Tracks outputs wire ports ∧
      (s.next geometry (.port (.arrived surface))).failed = none ∧
      (s.next geometry (.port (.arrived surface))).conn.pendingSurface = none := by
  obtain ⟨-, part, -, done, phase, got, parsed, agree, count⟩ := tracks
  rw [waiting, Option.toList_some] at parsed
  obtain ⟨out', phase', got', parsed', earlier⟩ := Reader.parse_of_prefix _ whole part
  rw [parsed] at parsed'
  have same : done ++ [m] = out' := congrArg Reader.Outcome.out parsed'
  have fits := paired.next (same ▸ earlier) count arrived
  cases agree with
  | pending holds idle waiting' introduces empty =>
    rw [waiting] at waiting'
    cases waiting'
    obtain ⟨c', step, ready, agree'⟩ := holds.importPort few idle empty introduces fits
    have step' : s.conn.drain geometry (.port (.arrived surface)) = .loop c' := by
      simpa [drain, waiting] using step
    simp only [AppStream.next, step', Tracks, alive, answerBytes, answerPorts, List.append_nil]
    refine ⟨⟨.inl trivial, part, arrived, done ++ [m], _, [], ?_, agree', by simp [count]⟩,
      trivial, ready⟩
    rw [parsed, ready]
    simp
  | header _ _ ready _ =>
    rw [waiting] at ready
    cases ready
  | token _ ready =>
    rw [waiting] at ready
    cases ready
  | pixels _ ready =>
    rw [waiting] at ready
    cases ready

/-- Every pass through the read loop keeps the app where the protocol is. -/
theorem Tracks.next (few : outputs ≤ outputQueueMaxBuffers)
    (whole : (streamReader outputs).parse (.header .opening) wire = ⟨introduced, some pending, []⟩)
    (paired : Paired geometry introduced ports) {s : AppStream} (tracks : s.Tracks outputs wire ports)
    {answer : DrainAnswer} (allowed : s.Allowed wire ports answer) :
    (s.next geometry answer).Tracks outputs wire ports := by
  obtain ⟨alive, asked⟩ := allowed
  cases waiting : s.conn.pendingSurface with
  | some m =>
    cases answer with
    | recv result => simp [waiting] at asked
    | port result =>
      cases result with
      | arrived surface =>
        simp only [waiting] at asked
        exact (tracks.importPort few whole paired alive waiting asked).1
      | timedOut =>
        have same : s.next geometry (.port .timedOut) = s := by
          simp [AppStream.next, drain, waiting, importPending, answerBytes, answerPorts]
        rwa [same]
      | failed => simp [waiting] at asked
  | none =>
    cases answer with
    | port result => simp [waiting] at asked
    | recv result =>
      cases result with
      | data bytes =>
        simp only [waiting] at asked
        exact (tracks.receive few whole alive waiting asked.2.1 asked.2.2).1
      | eof =>
        obtain ⟨-, rest⟩ := tracks
        exact ⟨.inr (by simp [AppStream.next, drain, waiting]),
          by simpa [AppStream.next, drain, waiting, answerBytes, answerPorts] using rest⟩
      | error =>
        obtain ⟨-, rest⟩ := tracks
        exact ⟨.inr (by simp [AppStream.next, drain, waiting]),
          by simpa [AppStream.next, drain, waiting, answerBytes, answerPorts] using rest⟩
      | again =>
        have same : s.next geometry (.recv .again) = s := by
          simp [AppStream.next, drain, waiting, answerBytes, answerPorts]
        rwa [same]
      | intr =>
        have same : s.next geometry (.recv .intr) = s := by
          simp [AppStream.next, drain, waiting, answerBytes, answerPorts]
        rwa [same]

theorem ids_connected (geometry : Nat → SurfaceGeometry) (outputs : List Nat) :
    (connected geometry outputs).surfaces.map SurfaceItem.id =
      (List.range outputs.length).map fun i => primarySurfaceId + BitVec.ofNat 32 i := by
  refine List.ext_getElem (by simp [connected]) ?_
  intro i _ _
  simp [connected]

theorem holds_connected (geometry : Nat → SurfaceGeometry) {outputs : List Nat}
    (few : outputs.length ≤ outputQueueMaxBuffers) :
    (connected geometry outputs).Holds outputs.length .opening := by
  have static : ¬StreamView.opening.Retains := by decide
  refine ⟨?_, ?_, ?_, ?_, rfl, ?_⟩
  · rw [ids_connected]
    refine List.Nodup.map_on ?_ List.nodup_range
    intro i first j second same
    have bounded : i < 3 ∧ j < 3 :=
      ⟨lt_of_lt_of_le (List.mem_range.mp first) few, lt_of_lt_of_le (List.mem_range.mp second) few⟩
    have numbers := congrArg BitVec.toNat same
    simp only [primarySurfaceId, BitVec.toNat_add, BitVec.toNat_ofNat] at numbers
    omega
  · intro id
    rw [ids_connected]
    simp only [static, false_and, or_false]
    simp [isOutput, StreamView.opening]
  · intro item member
    simp only [static, false_and, iff_false, Bool.not_eq_true]
    obtain ⟨i, inside, same⟩ := List.mem_iff_getElem.mp member
    rw [← same]
    simp [connected]
  · rw [StreamView.kept, if_neg static]
    simp [connected, StreamView.opening]
  · simp [StreamView.Dynamic, StreamView.opening]

theorem tracks_of_run {outputs : List Nat} (few : outputs.length ≤ outputQueueMaxBuffers)
    (whole : (streamReader outputs.length).parse (.header .opening) wire =
      ⟨introduced, some pending, []⟩)
    (paired : Paired geometry introduced ports) {trace : List DrainAnswer} {s : AppStream}
    (run : (machine geometry outputs wire ports).Run trace s) :
    s.Tracks outputs.length wire ports := by
  refine run.invariant (fun _ s => s.Tracks outputs.length wire ports) ?_ ?_
  · intro s begun
    rw [begun]
    refine ⟨.inl rfl, List.nil_prefix, List.nil_prefix, [], .header .opening, [],
      Reader.parse_nil _ _, ?_, rfl⟩
    exact .next_header (holds_connected geometry few) ⟨rfl, rfl, rfl⟩ rfl rfl
  · exact fun _ _ _ tracks allowed => tracks.next few whole paired allowed

theorem Tracks.exists_port
    (whole : (streamReader outputs).parse (.header .opening) wire = ⟨introduced, some pending, []⟩)
    (paired : Paired geometry introduced ports) {s : AppStream}
    (tracks : s.Tracks outputs wire ports) {m : XiosMsg}
    (waiting : s.conn.pendingSurface = some m) :
    ∃ surface, s.imported ++ [surface] <+: ports := by
  obtain ⟨-, part, imported, done, phase, got, parsed, -, count⟩ := tracks
  rw [waiting, Option.toList_some] at parsed
  obtain ⟨out', phase', got', parsed', earlier⟩ := Reader.parse_of_prefix _ whole part
  rw [parsed] at parsed'
  have same : done ++ [m] = out' := congrArg Reader.Outcome.out parsed'
  obtain ⟨used, before, fits⟩ := paired
  have size := earlier.length_le
  rw [← same, fits.length_eq, List.length_append, List.length_singleton] at size
  have total := before.length_le
  obtain ⟨rest, split⟩ := imported
  cases rest with
  | nil =>
    have lengths := congrArg List.length split
    simp only [List.append_nil] at lengths
    omega
  | cons surface later => exact ⟨surface, later, by simpa using split⟩

section

variable {produced : List Nat} (few : produced.length ≤ outputQueueMaxBuffers)
  (whole : (streamReader produced.length).parse (.header .opening) wire =
    ⟨introduced, some pending, []⟩) (paired : Paired geometry introduced ports)

include few whole paired

theorem exists_settled {trace : List DrainAnswer} {s : AppStream}
    (run : (machine geometry produced wire ports).Run trace s) (alive : s.failed = none) :
    ∃ trace' s', (machine geometry produced wire ports).Run trace' s' ∧ s'.failed = none ∧
      s'.consumed = s.consumed ∧ s'.conn.pendingSurface = none := by
  cases waiting : s.conn.pendingSurface with
  | none => exact ⟨trace, s, run, alive, rfl, waiting⟩
  | some m =>
    have tracks := tracks_of_run few whole paired run
    obtain ⟨surface, arrived⟩ := tracks.exists_port whole paired waiting
    have step := run.step (.port (.arrived surface)) ⟨alive, by simpa [waiting] using arrived⟩
    obtain ⟨-, alive', ready⟩ := tracks.importPort few whole paired alive waiting arrived
    refine ⟨_, _, step, alive', ?_, ready⟩
    change (s.next geometry (.port (.arrived surface))).consumed = s.consumed
    simp only [AppStream.next, answerBytes, List.append_nil]
    split <;> rfl

/-- The app can read the whole stream. -/
theorem exists_consumed : ∃ trace s, (machine geometry produced wire ports).Run trace s ∧
    s.failed = none ∧ s.consumed = wire ∧ s.conn.pendingSurface = none := by
  -- The induction is on what has not been read, which arrives byte by byte.
  have reads : ∀ (rest : List UInt8) (trace : List DrainAnswer) (s : AppStream),
      (machine geometry produced wire ports).Run trace s → s.failed = none →
      s.consumed ++ rest = wire →
      ∃ trace s, (machine geometry produced wire ports).Run trace s ∧ s.failed = none ∧
        s.consumed = wire ∧ s.conn.pendingSurface = none := by
    intro rest
    induction rest with
    | nil =>
      intro trace s run alive split
      obtain ⟨trace', s', run', alive', same, ready⟩ := exists_settled few whole paired run alive
      exact ⟨trace', s', run', alive', by rw [same, ← split, List.append_nil], ready⟩
    | cons byte rest ih =>
      intro trace s run alive split
      obtain ⟨trace', s', run', alive', same, ready⟩ := exists_settled few whole paired run alive
      have tracks := tracks_of_run few whole paired run'
      have part : s'.consumed ++ [byte] <+: wire := ⟨rest, by rw [same, ← split]; simp⟩
      have asked : [byte].length ≤ s'.conn.requested := by
        obtain ⟨-, -, -, done, phase, got, -, agree, -⟩ := tracks
        have short := agree.partly
        rw [agree.requested ready, List.length_singleton]
        omega
      have step := run'.step (.recv (.data [byte]))
        ⟨alive', by simpa [ready] using ⟨asked, part⟩⟩
      refine ih _ _ step (tracks.receive few whole alive' ready asked part).2 ?_
      change (s'.next geometry (.recv (.data [byte]))).consumed ++ rest = wire
      have consumed : (s'.next geometry (.recv (.data [byte]))).consumed =
          s'.consumed ++ [byte] := by
        simp only [AppStream.next, answerBytes]
        split <;> rfl
      rw [consumed, same, ← split]
      simp
  exact reads wire [] { conn := connected geometry produced } (.start rfl) rfl rfl

end

end

end AppStream

end Xios
