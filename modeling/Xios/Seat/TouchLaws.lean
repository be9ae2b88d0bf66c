import Xios.Seat.Touch

/-! What clients are told about each touch, from its beginning to its end. -/

namespace Xios

namespace TouchSeat

variable {owner : Nat → Nat} {st : TouchSeat}

/-- A client has an active touch point of some number. -/
def Touches (owner : Nat → Nat) (st : TouchSeat) (client : Nat) (id : Int) : Prop :=
  ∃ i, (st.points i).active = true ∧ (st.points i).id = id ∧
    (st.points i).surface.map owner = some client

/-- Clients know exactly which of their touches go on. -/
structure Told (owner : Nat → Nat) (st : TouchSeat) : Prop where
  opens : ∀ client id, id ∈ openTouches (st.log client) ↔ st.Touches owner client id
  well : ∀ client, WellTouched (st.log client)

@[simp] theorem log_send_self (st : TouchSeat) (client : Nat) (event : TouchSent) :
    (st.send client event).log client = event :: st.log client :=
  Function.update_self ..

variable {client : Nat}

theorem log_send_of_ne (st : TouchSeat) {other : Nat} (different : other ≠ client)
    (event : TouchSent) : (st.send client event).log other = st.log other :=
  Function.update_of_ne different ..

theorem Told.frame (told : st.Told owner) (client : Nat) : (st.send client .frame).Told owner where
  opens := by
    intro other id
    by_cases same : other = client
    · rw [same, log_send_self]
      exact told.opens client id
    · rw [log_send_of_ne st same]
      exact told.opens other id
  well := by
    intro other
    by_cases same : other = client
    · rw [same, log_send_self]
      exact told.well client
    · rw [log_send_of_ne st same]
      exact told.well other

variable {id : Int}

theorem Told.motion (told : st.Told owner) (touches : st.Touches owner client id) :
    (st.send client (.motion id)).Told owner where
  opens := by
    intro other number
    by_cases same : other = client
    · rw [same, log_send_self]
      exact told.opens client number
    · rw [log_send_of_ne st same]
      exact told.opens other number
  well := by
    intro other
    by_cases same : other = client
    · rw [same, log_send_self]
      exact ⟨(told.opens client id).mpr touches, told.well client⟩
    · rw [log_send_of_ne st same]
      exact told.well other

variable {later : TouchSeat}

theorem Told.cancelled (told : st.Told owner) (client : Nat)
    (log : later.log = Function.update st.log client (.cancel :: st.log client))
    (ended : ∀ id, ¬later.Touches owner client id)
    (others : ∀ other, other ≠ client → ∀ id,
      (later.Touches owner other id ↔ st.Touches owner other id)) : later.Told owner where
  opens := by
    intro other id
    rw [log]
    by_cases same : other = client
    · rw [same, Function.update_self]
      simpa [openTouches] using ended id
    · rw [Function.update_of_ne same, others other same]
      exact told.opens other id
  well := by
    intro other
    rw [log]
    by_cases same : other = client
    · rw [same, Function.update_self]
      exact told.well client
    · rw [Function.update_of_ne same]
      exact told.well other

theorem active_endPoints (st : TouchSeat) (ended : TouchPoint → Bool) (i : Fin maxTouchPoints) :
    ((st.endPoints ended).points i).active = true ↔
      (st.points i).active = true ∧ ended (st.points i) = false := by
  unfold endPoints
  cases gone : ended (st.points i) <;> simp [gone]

theorem point_endPoints (st : TouchSeat) (ended : TouchPoint → Bool) (i : Fin maxTouchPoints) :
    ((st.endPoints ended).points i).id = (st.points i).id ∧
      ((st.endPoints ended).points i).surface = (st.points i).surface := by
  unfold endPoints
  dsimp only
  split <;> exact ⟨rfl, rfl⟩

theorem touches_endPoints (st : TouchSeat) (ended : TouchPoint → Bool) (client : Nat) (id : Int) :
    (st.endPoints ended).Touches owner client id ↔
      ∃ i, (st.points i).active = true ∧ (st.points i).id = id ∧
        (st.points i).surface.map owner = some client ∧ ended (st.points i) = false := by
  constructor
  · rintro ⟨i, active, number, own⟩
    obtain ⟨was, kept⟩ := (st.active_endPoints ended i).mp active
    obtain ⟨sameId, sameSurface⟩ := st.point_endPoints ended i
    rw [sameId] at number
    rw [sameSurface] at own
    exact ⟨i, was, number, own, kept⟩
  · rintro ⟨i, was, number, own, kept⟩
    obtain ⟨sameId, sameSurface⟩ := st.point_endPoints ended i
    refine ⟨i, (st.active_endPoints ended i).mpr ⟨was, kept⟩, ?_, ?_⟩
    · rw [sameId]
      exact number
    · rw [sameSurface]
      exact own

theorem Told.cancelClientOf (told : st.Told owner) (s : Nat) :
    (st.cancelClientOf owner s).Told owner := by
  apply told.cancelled (owner s) rfl
  · intro id touches
    obtain ⟨i, -, -, own, kept⟩ := (touches_endPoints _ _ _ _).mp touches
    exact absurd own (by simpa using kept)
  · intro other different id
    unfold TouchSeat.cancelClientOf
    rw [touches_endPoints]
    constructor
    · rintro ⟨i, active, number, own, -⟩
      exact ⟨i, active, number, own⟩
    · rintro ⟨i, active, number, own⟩
      refine ⟨i, active, number, own, ?_⟩
      show decide ((st.points i).surface.map owner = some (owner s)) = false
      rw [own]
      simpa using different

theorem Told.surfaceGone (told : st.Told owner) {s : Nat} (alone : st.Alone owner s) :
    (st.touchSurfaceGone owner s).Told owner := by
  unfold touchSurfaceGone
  split
  · rename_i there
    apply told.cancelled (owner s) rfl
    · intro id touches
      obtain ⟨i, active, -, own, kept⟩ := (touches_endPoints _ _ _ _).mp touches
      have elsewhere : decide ((st.points i).surface = some s) = false := kept
      exact absurd (alone there i active own) (by simpa using elsewhere)
    · intro other different id
      rw [touches_endPoints]
      constructor
      · rintro ⟨i, active, number, own, -⟩
        exact ⟨i, active, number, own⟩
      · rintro ⟨i, active, number, own⟩
        refine ⟨i, active, number, own, ?_⟩
        show decide ((st.points i).surface = some s) = false
        have elsewhere : (st.points i).surface ≠ some s := by
          intro same
          rw [same] at own
          exact different (Option.some.inj own).symm
        simpa using elsewhere
  · exact told

theorem Sane.endPoints (sane : st.Sane) (ended : TouchPoint → Bool) :
    (st.endPoints ended).Sane where
  distinct := by
    intro i j first second same
    rw [(st.point_endPoints ended i).1, (st.point_endPoints ended j).1] at same
    exact sane.distinct i j ((st.active_endPoints ended i).mp first).1
      ((st.active_endPoints ended j).mp second).1 same
  live := by
    intro i active
    rw [(st.point_endPoints ended i).2]
    exact sane.live i ((st.active_endPoints ended i).mp active).1

theorem Sane.send (sane : st.Sane) (client : Nat) (event : TouchSent) :
    (st.send client event).Sane :=
  ⟨sane.distinct, sane.live⟩

theorem Sane.surfaceGone (sane : st.Sane) (s : Nat) : (st.touchSurfaceGone owner s).Sane := by
  unfold touchSurfaceGone
  split
  · exact (sane.send _ _).endPoints _
  · exact sane

/-- Touch points that are left were there before, on other surfaces than the one that is gone. -/
theorem left_of_surfaceGone (st : TouchSeat) (s : Nat) (i : Fin maxTouchPoints)
    (active : ((st.touchSurfaceGone owner s).points i).active = true) :
    (st.points i).active = true ∧ (st.points i).surface ≠ some s ∧
      ((st.touchSurfaceGone owner s).points i).id = (st.points i).id ∧
      ((st.touchSurfaceGone owner s).points i).surface = (st.points i).surface := by
  unfold touchSurfaceGone at active ⊢
  split
  · rename_i there
    rw [if_pos there] at active
    obtain ⟨was, kept⟩ := (active_endPoints _ _ i).mp active
    exact ⟨was, of_decide_eq_false kept, point_endPoints _ _ i⟩
  · rename_i absent
    rw [if_neg absent] at active
    exact ⟨active, fun same => absent ⟨i, active, same⟩, rfl, rfl⟩

theorem Alone.surfaceGone {s t : Nat} (alone : st.Alone owner t) :
    (st.touchSurfaceGone owner s).Alone owner t := by
  rintro ⟨i, active, surface⟩ j active' own
  obtain ⟨was, -, -, same⟩ := left_of_surfaceGone st s i active
  obtain ⟨was', -, -, same'⟩ := left_of_surfaceGone st s j active'
  rw [same'] at own ⊢
  exact alone ⟨i, was, same ▸ surface⟩ j was' own

theorem cancelPoint_sound (told : st.Told owner) (sane : st.Sane) (i : Fin maxTouchPoints) :
    (st.cancelPoint owner i).Told owner := by
  unfold cancelPoint
  split
  · rename_i active
    obtain ⟨s, surface, -⟩ := sane.live i active
    rw [surface]
    exact told.cancelClientOf s
  · exact told

theorem Sane.cancelPoint (sane : st.Sane) (i : Fin maxTouchPoints) :
    (st.cancelPoint owner i).Sane := by
  unfold TouchSeat.cancelPoint
  split
  · rename_i active
    obtain ⟨s, surface, -⟩ := sane.live i active
    rw [surface]
    exact (sane.send _ _).endPoints _
  · exact sane

theorem cancelPoints_sane (owner : Nat → Nat) (chosen : TouchSeat → Fin maxTouchPoints → Bool)
    (points : List (Fin maxTouchPoints)) (sane : st.Sane) :
    (points.foldl (fun st i => if chosen st i then st.cancelPoint owner i else st) st).Sane := by
  induction points generalizing st with
  | nil => exact sane
  | cons i points ih =>
    rw [List.foldl_cons]
    split
    · exact ih (sane.cancelPoint i)
    · exact ih sane

theorem cancelPoints_told (chosen : TouchSeat → Fin maxTouchPoints → Bool)
    (points : List (Fin maxTouchPoints)) (told : st.Told owner) (sane : st.Sane) :
    (points.foldl (fun st i => if chosen st i then st.cancelPoint owner i else st) st).Told
      owner := by
  induction points generalizing st with
  | nil => exact told
  | cons i points ih =>
    rw [List.foldl_cons]
    split
    · exact ih (cancelPoint_sound told sane i) (sane.cancelPoint i)
    · exact ih told sane

theorem Sane.cancelAll (sane : st.Sane) : (st.touchCancelAll owner).Sane := by
  unfold touchCancelAll
  simpa using cancelPoints_sane owner (fun _ _ => true) (List.finRange maxTouchPoints) sane

theorem Told.cancelAll (told : st.Told owner) (sane : st.Sane) :
    (st.touchCancelAll owner).Told owner := by
  unfold touchCancelAll
  simpa using cancelPoints_told (fun _ _ => true) (List.finRange maxTouchPoints) told sane

theorem Sane.clientDropped (sane : st.Sane) (client : Nat) :
    (st.inputClientDropped owner client).Sane := by
  unfold inputClientDropped
  simpa using cancelPoints_sane owner (fun st i => (st.points i).inputClient = client)
    (List.finRange maxTouchPoints) sane

theorem Told.clientDropped (told : st.Told owner) (sane : st.Sane) (client : Nat) :
    (st.inputClientDropped owner client).Told owner := by
  unfold inputClientDropped
  simpa using cancelPoints_told (fun st i => (st.points i).inputClient = client)
    (List.finRange maxTouchPoints) told sane

variable {i : Fin maxTouchPoints}

theorem touchPointById_eq_some (found : st.touchPointById id = some i) :
    (st.points i).active = true ∧ (st.points i).id = id := by
  have matching := List.find?_some found
  simpa using matching

theorem touchPointById_eq_none (missing : st.touchPointById id = none) (i : Fin maxTouchPoints)
    (active : (st.points i).active = true) : (st.points i).id ≠ id := by
  have none := List.find?_eq_none.mp missing i (List.mem_finRange i)
  simpa [active] using none

theorem place_of_touchDown (chosen : ((st.touchPointById id).or
      ((List.finRange maxTouchPoints).find? fun i => !(st.points i).active)) = some i) :
    st.touchPointById id = some i ∨
      (st.touchPointById id = none ∧ (st.points i).active = false) := by
  cases found : st.touchPointById id with
  | some j =>
    rw [found] at chosen
    exact .inl chosen
  | none =>
    rw [found] at chosen
    have free := List.find?_some (show _ = some i from chosen)
    exact .inr ⟨rfl, by simpa using free⟩

@[simp] theorem point_setPoint_self (st : TouchSeat) (i : Fin maxTouchPoints)
    (f : TouchPoint → TouchPoint) : (st.setPoint i f).points i = f (st.points i) :=
  Function.update_self ..

theorem point_setPoint_of_ne (st : TouchSeat) {j : Fin maxTouchPoints} (different : j ≠ i)
    (f : TouchPoint → TouchPoint) : (st.setPoint i f).points j = st.points j :=
  Function.update_of_ne different ..

theorem Sane.touchDown (sane : st.Sane) (id : Int) {hit : Nat} (there : st.destroyed hit = false) :
    (st.touchDown owner id hit).Sane := by
  unfold TouchSeat.touchDown
  dsimp only
  split
  · exact sane
  · rename_i i chosen
    have place := place_of_touchDown chosen
    apply Sane.send
    apply Sane.send
    -- No other active touch point has the number.
    have others (j : Fin maxTouchPoints) (different : j ≠ i)
        (active : (st.points j).active = true) : (st.points j).id ≠ id := by
      rcases place with found | ⟨missing, -⟩
      · obtain ⟨on, number⟩ := touchPointById_eq_some found
        intro same
        exact different (sane.distinct j i active on (same.trans number.symm))
      · exact touchPointById_eq_none missing j active
    constructor
    · intro j l first second same
      by_cases own : j = i
      · subst own
        by_cases equal : l = j
        · exact equal.symm
        · rw [point_setPoint_self, point_setPoint_of_ne st equal] at same
          rw [point_setPoint_of_ne st equal] at second
          exact absurd same.symm (others l equal second)
      · rw [point_setPoint_of_ne st own] at first same
        by_cases equal : l = i
        · subst equal
          rw [point_setPoint_self] at same
          exact absurd same (others j own first)
        · rw [point_setPoint_of_ne st equal] at second same
          exact sane.distinct j l first second same
    · intro j active
      by_cases own : j = i
      · subst own
        rw [point_setPoint_self]
        exact ⟨hit, rfl, there⟩
      · rw [point_setPoint_of_ne st own] at active ⊢
        exact sane.live j active

theorem touches_placed {hit : Nat} (free : (st.points i).active = false)
    (active : (later.points i).active = true) (number : (later.points i).id = id)
    (surface : (later.points i).surface = some hit)
    (rest : ∀ j, j ≠ i → later.points j = st.points j) (client : Nat) (other : Int) :
    later.Touches owner client other ↔
      st.Touches owner client other ∨ (client = owner hit ∧ other = id) := by
  constructor
  · rintro ⟨j, on, same, own⟩
    by_cases new : j = i
    · rw [new] at same own
      rw [surface] at own
      exact .inr ⟨(Option.some.inj own).symm, same.symm.trans number⟩
    · rw [rest j new] at on same own
      exact .inl ⟨j, on, same, own⟩
  · rintro (⟨j, on, same, own⟩ | ⟨rfl, rfl⟩)
    · have old : j ≠ i := by
        intro new
        rw [new, free] at on
        nomatch on
      refine ⟨j, ?_⟩
      rw [rest j old]
      exact ⟨on, same, own⟩
    · refine ⟨i, active, number, ?_⟩
      rw [surface]
      rfl

theorem touches_freed (sane : st.Sane) (active : (st.points i).active = true)
    (own : (st.points i).surface.map owner = some client) (free : (later.points i).active = false)
    (rest : ∀ j, j ≠ i → later.points j = st.points j) (other : Nat) (number : Int) :
    later.Touches owner other number ↔
      st.Touches owner other number ∧ ¬(other = client ∧ number = (st.points i).id) := by
  constructor
  · rintro ⟨j, on, same, belongs⟩
    have old : j ≠ i := by
      intro new
      rw [new, free] at on
      nomatch on
    rw [rest j old] at on same belongs
    refine ⟨⟨j, on, same, belongs⟩, ?_⟩
    rintro ⟨-, equal⟩
    exact old (sane.distinct j i on active (same.trans equal))
  · rintro ⟨⟨j, on, same, belongs⟩, different⟩
    have old : j ≠ i := by
      intro new
      rw [new] at same belongs
      rw [own] at belongs
      exact different ⟨(Option.some.inj belongs).symm, same.symm⟩
    refine ⟨j, ?_⟩
    rw [rest j old]
    exact ⟨on, same, belongs⟩

/-- A new touch is told to the client of its surface as one that was not down. -/
theorem Told.touchDown (told : st.Told owner) (hit : Nat) (unused : st.touchPointById id = none) :
    (st.touchDown owner id hit).Told owner := by
  unfold TouchSeat.touchDown
  dsimp only
  split
  · exact told
  · rename_i i chosen
    have free : (st.points i).active = false := by
      rcases place_of_touchDown chosen with found | ⟨-, free⟩
      · rw [unused] at found
        nomatch found
      · exact free
    have self := st.point_setPoint_self i fun point =>
      { point with active := true, id, surface := some hit }
    have rest (j : Fin maxTouchPoints) (different : j ≠ i) :=
      st.point_setPoint_of_ne different fun point =>
        { point with active := true, id, surface := some hit }
    have log : (st.setPoint i fun point =>
        { point with active := true, id, surface := some hit }).log = st.log := rfl
    generalize st.setPoint i (fun point => { point with active := true, id, surface := some hit }) =
      begun at self rest log ⊢
    apply Told.frame
    -- The new touch is added to the others of the client.
    have touches : ∀ client number, (begun.send (owner hit) (.down hit id)).Touches owner client
        number ↔ st.Touches owner client number ∨ (client = owner hit ∧ number = id) :=
      touches_placed free (congrArg TouchPoint.active self) (congrArg TouchPoint.id self)
        (congrArg TouchPoint.surface self) rest
    have before : id ∉ openTouches (st.log (owner hit)) := by
      rw [told.opens]
      rintro ⟨j, active, same, -⟩
      exact touchPointById_eq_none unused j active same
    constructor
    · -- Only the log of the client of the surface gets longer.
      intro client number
      rw [touches]
      by_cases same : client = owner hit
      · rw [same, log_send_self, log]
        show number ∈ id :: openTouches (st.log (owner hit)) ↔ _
        rw [List.mem_cons, told.opens]
        simp [or_comm]
      · rw [log_send_of_ne _ same, log, told.opens]
        simp [same]
    · intro client
      by_cases same : client = owner hit
      · rw [same, log_send_self, log]
        exact ⟨before, told.well (owner hit)⟩
      · rw [log_send_of_ne _ same, log]
        exact told.well client

theorem Sane.touchFollow (sane : st.Sane) (id : Int) (phase : TouchPhase) :
    (st.touchFollow owner id phase).Sane := by
  unfold TouchSeat.touchFollow
  split
  · exact sane
  · rename_i i _
    split
    · exact sane
    · rename_i s _
      split
      · exact (sane.send _ _).send _ _
      · have sent : ((st.send (owner s) (.up id)).send (owner s) .frame).Sane :=
          (sane.send _ _).send _ _
        generalize (st.send (owner s) (.up id)).send (owner s) .frame = told at sent ⊢
        -- The touch points that are still active are as they were.
        have was (j : Fin maxTouchPoints)
            (active : ((told.setPoint i fun point => { point with active := false }).points
              j).active = true) :
            (told.points j).active = true ∧
              (told.setPoint i fun point => { point with active := false }).points j =
                told.points j := by
          by_cases ended : j = i
          · rw [ended, point_setPoint_self] at active
            nomatch active
          · rw [point_setPoint_of_ne told ended] at active
            exact ⟨active, point_setPoint_of_ne told ended _⟩
        constructor
        · intro j l first second same
          rw [(was j first).2, (was l second).2] at same
          exact sent.distinct j l (was j first).1 (was l second).1 same
        · intro j active
          rw [(was j active).2]
          exact sent.live j (was j active).1
      · exact sane

/-- A touch that moves or ends is told to the client that was told of its beginning. -/
theorem Told.touchFollow (told : st.Told owner) (sane : st.Sane) (id : Int) (phase : TouchPhase) :
    (st.touchFollow owner id phase).Told owner := by
  unfold TouchSeat.touchFollow
  split
  · exact told
  · rename_i i found
    obtain ⟨active, number⟩ := touchPointById_eq_some found
    split
    · exact told
    · rename_i s surface
      have own : (st.points i).surface.map owner = some (owner s) := by
        rw [surface]
        rfl
      have touches : st.Touches owner (owner s) id := ⟨i, active, number, own⟩
      split
      · exact (told.motion touches).frame (owner s)
      · -- The touch has ended for the client and for the touch point.
        have later : ∀ other n, (((st.send (owner s) (.up id)).send (owner s) .frame).setPoint i
            fun point => { point with active := false }).Touches owner other n ↔
            st.Touches owner other n ∧ ¬(other = owner s ∧ n = (st.points i).id) := by
          apply touches_freed sane active own
          · rw [point_setPoint_self]
          · intro j different
            exact point_setPoint_of_ne _ different _
        have log : (((st.send (owner s) (.up id)).send (owner s) .frame).setPoint i
            fun point => { point with active := false }).log =
            ((st.send (owner s) (.up id)).send (owner s) .frame).log := rfl
        generalize (((st.send (owner s) (.up id)).send (owner s) .frame).setPoint i
            fun point => { point with active := false }) = done at later log ⊢
        constructor
        · intro other n
          rw [later, log]
          by_cases same : other = owner s
          · rw [same, log_send_self, log_send_self]
            show n ∈ (openTouches (st.log (owner s))).filter (· ≠ id) ↔ _
            rw [List.mem_filter, told.opens, number]
            simp
          · rw [log_send_of_ne _ same, log_send_of_ne _ same, told.opens]
            simp [same]
        · intro other
          rw [log]
          by_cases same : other = owner s
          · rw [same, log_send_self, log_send_self]
            exact ⟨(told.opens _ id).mpr touches, told.well (owner s)⟩
          · rw [log_send_of_ne _ same, log_send_of_ne _ same]
            exact told.well other
      · exact told

theorem dismissed_sound {gone : List Nat} (told : st.Told owner)
    (alone : ∀ s ∈ gone, st.Alone owner s) : (gone.foldl (touchSurfaceGone owner) st).Told owner := by
  induction gone generalizing st with
  | nil => exact told
  | cons s gone ih =>
    exact ih (told.surfaceGone (alone s List.mem_cons_self)) fun t here =>
      (alone t (List.mem_cons_of_mem s here)).surfaceGone

theorem left_of_dismissed (st : TouchSeat) (gone : List Nat) (i : Fin maxTouchPoints)
    (active : ((gone.foldl (touchSurfaceGone owner) st).points i).active = true) :
    (st.points i).active = true ∧ (∀ s ∈ gone, (st.points i).surface ≠ some s) ∧
      ((gone.foldl (touchSurfaceGone owner) st).points i).id = (st.points i).id := by
  induction gone generalizing st with
  | nil => exact ⟨active, nofun, rfl⟩
  | cons s gone ih =>
    obtain ⟨was, others, number⟩ := ih _ active
    obtain ⟨was', other, number', surface⟩ := left_of_surfaceGone st s i was
    refine ⟨was', ?_, number.trans number'⟩
    rintro t (_ | ⟨_, here⟩)
    · exact other
    · rw [← surface]
      exact others t here

theorem Sane.dismissed (sane : st.Sane) (owner : Nat → Nat) (gone : List Nat) :
    (gone.foldl (touchSurfaceGone owner) st).Sane := by
  induction gone generalizing st with
  | nil => exact sane
  | cons s gone ih => exact ih (sane.surfaceGone s)

theorem destroyed_surfaceGone (st : TouchSeat) (owner : Nat → Nat) (s : Nat) :
    (st.touchSurfaceGone owner s).destroyed = st.destroyed := by
  unfold touchSurfaceGone
  split <;> rfl

theorem destroyed_dismissed (st : TouchSeat) (owner : Nat → Nat) (gone : List Nat) :
    (gone.foldl (touchSurfaceGone owner) st).destroyed = st.destroyed := by
  induction gone generalizing st with
  | nil => rfl
  | cons s gone ih => rw [List.foldl_cons, ih, destroyed_surfaceGone]

theorem Sane.handleTouch (sane : st.Sane) (id : Int) (phase : TouchPhase) {hit : Option Nat}
    (there : ∀ s ∈ hit, st.destroyed s = false) (dismissed : List Nat) :
    (st.handleTouch owner id phase hit dismissed).Sane := by
  unfold TouchSeat.handleTouch
  split
  · exact sane.cancelAll
  · dsimp only
    split
    · exact sane.dismissed owner dismissed
    · apply (sane.dismissed owner dismissed).touchDown
      rw [destroyed_dismissed]
      exact there _ rfl
  · exact sane.touchFollow id phase

theorem noted (st : TouchSeat) (i : Fin maxTouchPoints) (client : Nat) :
    (st.Sane → (st.setPoint i fun point => { point with inputClient := client }).Sane) ∧
      (st.Told owner →
        (st.setPoint i fun point => { point with inputClient := client }).Told owner) := by
  -- The app that sent the touch is not a part of what is told.
  have same (j : Fin maxTouchPoints) :
      ((st.setPoint i fun point => { point with inputClient := client }).points j).active =
          (st.points j).active ∧
        ((st.setPoint i fun point => { point with inputClient := client }).points j).id =
          (st.points j).id ∧
        ((st.setPoint i fun point => { point with inputClient := client }).points j).surface =
          (st.points j).surface := by
    by_cases own : j = i
    · rw [own, point_setPoint_self]
      exact ⟨rfl, rfl, rfl⟩
    · rw [point_setPoint_of_ne st own]
      exact ⟨rfl, rfl, rfl⟩
  constructor
  · intro sane
    constructor
    · intro j l
      rw [(same j).1, (same l).1, (same j).2.1, (same l).2.1]
      exact sane.distinct j l
    · intro j
      rw [(same j).1, (same j).2.2]
      exact sane.live j
  · intro told
    refine ⟨?_, told.well⟩
    intro other id
    refine (told.opens other id).trans ?_
    apply exists_congr
    intro j
    rw [(same j).1, (same j).2.1, (same j).2.2]

/-- Every event keeps the touch points sane. -/
theorem Sane.next (sane : st.Sane) {event : Event} (possible : st.Possible event) :
    (st.next owner event).Sane := by
  cases event with
  | touch client id phase hit dismissed =>
    have handled : (st.handleTouch owner id phase hit dismissed).Sane :=
      sane.handleTouch id phase possible dismissed
    simp only [TouchSeat.next]
    split
    · split
      · exact handled
      · exact (@noted owner _ _ client).1 handled
    · exact handled
  | unmapped s => exact sane.surfaceGone s
  | destroyed s =>
    -- None of the touch points that are left is on the surface.
    have gone : (st.touchSurfaceGone owner s).Sane := sane.surfaceGone s
    refine ⟨gone.distinct, ?_⟩
    intro i active
    obtain ⟨t, surface, there⟩ := gone.live i active
    refine ⟨t, surface, ?_⟩
    have other : t ≠ s := by
      rintro rfl
      obtain ⟨-, elsewhere, -, same⟩ := left_of_surfaceGone st t i active
      exact elsewhere (same ▸ surface)
    rw [destroyed_surfaceGone] at there
    exact (Function.update_of_ne other ..).trans there
  | sessionLocked => exact sane.cancelAll
  | clientDropped client => exact sane.clientDropped client

/-- Clients are told right of an event that is tidy. -/
theorem Told.next (told : st.Told owner) (sane : st.Sane) {event : Event}
    (tidy : st.Tidy owner event) : (st.next owner event).Told owner := by
  cases event with
  | touch client id phase hit dismissed =>
    have handled : (st.handleTouch owner id phase hit dismissed).Told owner := by
      unfold TouchSeat.handleTouch
      split
      · exact told.cancelAll sane
      · obtain ⟨alone, unused⟩ := tidy rfl
        have before := dismissed_sound told alone
        split
        · exact before
        · refine before.touchDown _ (List.find?_eq_none.mpr fun i _ => ?_)
          simp only [decide_eq_true_eq, not_and]
          intro active number
          obtain ⟨was, others, same⟩ := left_of_dismissed st dismissed i active
          obtain ⟨s, here, surface⟩ := unused rfl i was (same ▸ number)
          exact others s here surface
      · exact told.touchFollow sane id phase
    simp only [TouchSeat.next]
    split
    · split
      · exact handled
      · exact (noted _ _ client).2 handled
    · exact handled
  | unmapped s => exact told.surfaceGone tidy
  | destroyed s =>
    have gone := told.surfaceGone tidy
    exact ⟨gone.opens, gone.well⟩
  | sessionLocked => exact told.cancelAll sane
  | clientDropped client => exact told.clientDropped sane client

def tidyMachine (owner : Nat → Nat) : Machine TouchSeat Event :=
  (machine owner).restrict (Tidy owner)

/-- In every run the active touch points have different numbers and are on surfaces that exist,
and if the events are tidy, every client is told of each touch from its beginning to its end. -/
theorem touches_well_told {trace : List Event} (run : (machine owner).Run trace st) :
    ((tidyMachine owner).Run trace st → ∀ client, WellTouched (st.log client)) ∧ st.Sane := by
  have start : ({} : TouchSeat).Sane := ⟨nofun, nofun⟩
  constructor
  · intro tidy client
    have both : st.Sane ∧ st.Told owner := by
      apply tidy.invariant fun _ st => st.Sane ∧ st.Told owner
      · intro st begun
        rw [show st = {} from begun]
        refine ⟨start, ?_, fun _ => trivial⟩
        intro client id
        constructor
        · exact nofun
        · rintro ⟨i, active, -⟩
          nomatch active
      · intro _ st event held allowed
        exact ⟨held.1.next allowed.1, held.2.next held.1 allowed.2⟩
    exact both.2.well client
  · apply run.invariant fun _ st => st.Sane
    · intro st begun
      rw [show st = {} from begun]
      exact start
    · intro _ st event sane possible
      exact sane.next possible

/-- Two clients with two surfaces each. -/
def pairs (s : Nat) : Nat :=
  s / 2

def fingers : List Event :=
  [.touch 9 1 .down (some 0) [], .touch 9 2 .down (some 2) [], .touch 9 1 .motion none [],
    .destroyed 0, .touch 9 1 .up none [], .touch 9 1 .down (some 3) [], .touch 9 2 .up none [],
    .clientDropped 9]

def twice : List Event :=
  [.touch 9 1 .down (some 0) [], .touch 9 1 .down (some 2) [], .touch 9 1 .up none [],
    .touch 9 1 .down (some 0) []]

instance (st : TouchSeat) : DecidablePred st.Possible
  | .touch _ _ _ hit _ => inferInstanceAs (Decidable (∀ s ∈ hit, st.destroyed s = false))
  | .unmapped _ | .destroyed _ | .sessionLocked | .clientDropped _ => .isTrue trivial

instance (owner : Nat → Nat) (st : TouchSeat) (event : Event) :
    Decidable ((machine owner).enabled st event) :=
  inferInstanceAs (Decidable (st.Possible event))

instance (owner : Nat → Nat) (st : TouchSeat) (event : Event) :
    Decidable ((tidyMachine owner).enabled st event) :=
  inferInstanceAs (Decidable (st.Possible event ∧ st.Tidy owner event))

theorem touches_well_told_fingers :
    (∀ client, WellTouched ((fingers.foldl (next pairs) {}).log client)) ∧
      (fingers.foldl (next pairs) {}).Sane := by
  have possible := Machine.Run.of_script (m := machine pairs) (s := {}) rfl fingers (by decide)
  have tidy := Machine.Run.of_script (m := tidyMachine pairs) (s := {}) rfl fingers (by decide)
  exact ⟨(touches_well_told possible).1 tidy, (touches_well_told possible).2⟩

theorem not_touches_well_told :
    ¬ ∀ (owner : Nat → Nat) (trace : List Event) (st : TouchSeat), (machine owner).Run trace st →
      (∀ client, WellTouched (st.log client)) ∧ st.Sane := by
  intro told
  have run := Machine.Run.of_script (m := machine pairs) (s := {}) rfl twice (by decide)
  exact absurd ((told pairs _ _ run).1 0) (by decide)

end TouchSeat

end Xios
