import Mathlib.Data.List.Nodup
import Xios.Seat.Pen

/-! Each pen tool is told of strokes from their beginning to their end. -/

namespace Xios

theorem toolPhase_append (log : List ToolEvent) (event : ToolEvent) :
    toolPhase (log ++ [event]) = (toolPhase log).bind fun phase => phase.advance event := by
  simp [toolPhase, List.foldlM_append]

namespace PenState

/-- Where the events of the tools are, if one of them is within a stroke. -/
structure Tells (st : PenState) (current : Option Nat) (phase : ToolPhase) : Prop where
  -- That tool is in some phase, and the pen is away for the others.
  phases : ∀ seat ∈ st.seats, seat.tool = true →
    toolPhase (st.log seat.id) = some (if current = some seat.id then phase else .away)
  -- The events of all tools, even of those that are gone, form groups.
  bracketed : ∀ id, Bracketed (st.log id)
  -- Seats have different numbers.
  apart : (st.seats.map (·.id)).Nodup
  -- Only tools that were created have been told anything.
  created : ∀ seat ∈ st.seats, seat.id < st.created
  fresh : ∀ id, st.created ≤ id → st.log id = []

@[simp] theorem log_send_self (st : PenState) (tool : Nat) (event : ToolEvent) :
    (st.send tool event).log tool = st.log tool ++ [event] :=
  Function.update_self ..

theorem log_send_of_ne (st : PenState) {tool other : Nat} (different : other ≠ tool)
    (event : ToolEvent) : (st.send tool event).log other = st.log other :=
  Function.update_of_ne different ..

variable {st : PenState} {current : Option Nat}

theorem Tells.away (tells : st.Tells current .away) (other : Option Nat) : st.Tells other .away :=
  { tells with
    phases := by
      intro seat member tool
      have away := tells.phases seat member tool
      simpa using away }

variable {phase : ToolPhase}

theorem Tells.idle (tells : st.Tells none phase) (other : ToolPhase) : st.Tells none other :=
  { tells with
    phases := by
      intro seat member tool
      have away := tells.phases seat member tool
      simpa using away }

variable {seat : TabletSeat}

theorem Tells.send {next : ToolPhase} (tells : st.Tells (some seat.id) phase)
    (member : seat ∈ st.seats) (tool : seat.tool = true) {event : ToolEvent}
    (allowed : phase.advance event = some next) : (st.send seat.id event).Tells (some seat.id) next where
  phases := by
    intro other there alive
    have before := tells.phases other there alive
    by_cases same : other.id = seat.id
    · rw [same, if_pos rfl] at before ⊢
      rw [log_send_self, toolPhase_append, before]
      exact allowed
    · have different : some seat.id ≠ some other.id := by
        intro equal
        exact same (Option.some.inj equal).symm
      rw [if_neg different] at before ⊢
      rw [log_send_of_ne st same]
      exact before
  bracketed := by
    intro id
    by_cases same : id = seat.id
    · have before := tells.phases seat member tool
      rw [if_pos rfl] at before
      rw [same, log_send_self, Bracketed, toolPhase_append, before]
      show (phase.advance event).isSome = true
      rw [allowed]
      rfl
    · rw [log_send_of_ne st same]
      exact tells.bracketed id
  apart := tells.apart
  created := tells.created
  fresh := by
    intro id outside
    have inside := tells.created seat member
    have beyond : st.created ≤ id := outside
    rw [log_send_of_ne st (by omega)]
    exact tells.fresh id beyond

theorem Tells.withStroke (tells : st.Tells current phase) (focus : Option Nat) (down : Bool)
    (penClient : Nat) : ({ st with focus, down, penClient } : PenState).Tells current phase :=
  ⟨tells.phases, tells.bracketed, tells.apart, tells.created, tells.fresh⟩

variable (surfaces : PenSurfaces)

/-- Exactly the tool of the current stroke is told that the tip is down. -/
structure Sound (st : PenState) : Prop where
  tells : st.Tells ((st.strokeSeat surfaces).map (·.id)) .touching
  -- In a stroke the tip is down.
  down : st.focus.isSome = true → st.down = true

variable {surfaces}

theorem mem_of_strokeSeat (found : st.strokeSeat surfaces = some seat) :
    seat ∈ st.seats ∧ seat.tool = true := by
  obtain ⟨s, _, filtered⟩ := Option.bind_eq_some_iff.mp found
  obtain ⟨first, tool⟩ := Option.filter_eq_some_iff.mp filtered
  exact ⟨List.mem_of_find?_eq_some first, tool⟩

theorem Tells.axes (surfaces : PenSurfaces) (tells : st.Tells (some seat.id) phase)
    (member : seat ∈ st.seats) (tool : seat.tool = true)
    (inside : phase = .near ∨ phase = .touching) (s : Nat) (record : PencilRecord) :
    (st.penSendAxes surfaces seat.id s record).Tells (some seat.id) phase := by
  -- None of the axes leads out of either phase.
  have move (x y : Int) : phase.advance (.motion x y) = some phase := by
    rcases inside with rfl | rfl <;> rfl
  have press (value : Nat) : phase.advance (.pressure value) = some phase := by
    rcases inside with rfl | rfl <;> rfl
  have lean (x y : Int) : phase.advance (.tilt x y) = some phase := by
    rcases inside with rfl | rfl <;> rfl
  have moved := tells.send member tool (move (surfaces.localCoords s record.x record.y).1
    (surfaces.localCoords s record.x record.y).2)
  have pressed := moved.send member tool (press (min record.pressure 65535))
  exact pressed.send member tool (lean record.tiltx record.tilty)

theorem Sound.penLeave (sound : st.Sound surfaces) :
    (st.penLeave surfaces).Tells none .away ∧ (st.penLeave surfaces).focus = none ∧
      (st.penLeave surfaces).seats = st.seats := by
  have tells := sound.tells
  unfold strokeSeat at tells
  unfold PenState.penLeave
  cases focus : st.focus with
  | none =>
    simp only [focus, Option.bind_none, Option.map_none] at tells ⊢
    exact ⟨(tells.idle .away), trivial, trivial⟩
  | some s =>
    have down := sound.down (by rw [focus]; rfl)
    simp only [focus, Option.bind_some] at tells ⊢
    cases found : st.tabletSeatForClient (surfaces.client s) with
    | none =>
      rw [found] at tells
      exact ⟨(tells.idle .away).withStroke none false st.penClient, trivial, rfl⟩
    | some seat =>
      rw [found] at tells
      have member : seat ∈ st.seats := List.mem_of_find?_eq_some found
      cases tool : seat.tool with
      | false =>
        have untold : (some seat).filter (·.tool) = none := by simp [tool]
        rw [untold] at tells
        simp only [tool, Bool.false_eq_true, ↓reduceIte]
        exact ⟨(tells.idle .away).withStroke none false st.penClient, trivial, trivial⟩
      | true =>
        -- The tip is lifted, and then the pen goes away.
        have told : (some seat).filter (·.tool) = some seat := by simp [tool]
        rw [told] at tells
        simp only [tool, down, ↓reduceIte]
        have lifted : (st.send seat.id .up).Tells (some seat.id) .lifted :=
          tells.send member tool rfl
        have away : ((st.send seat.id .up).send seat.id .proximityOut).Tells (some seat.id) .away :=
          lifted.send member tool rfl
        have done : (((st.send seat.id .up).send seat.id .proximityOut).send seat.id
            .frame).Tells (some seat.id) .away :=
          away.send member tool rfl
        exact ⟨(done.away none).withStroke none false st.penClient, trivial, rfl⟩

theorem sound_of_away (tells : st.Tells none .away) (idle : st.focus = none) : st.Sound surfaces where
  tells := by
    rw [strokeSeat, idle]
    exact tells.idle .touching
  down := by
    intro stroke
    rw [idle] at stroke
    nomatch stroke

theorem Sound.left (sound : st.Sound surfaces) : (st.penLeave surfaces).Sound surfaces := by
  obtain ⟨tells, idle, -⟩ := sound.penLeave
  exact sound_of_away tells idle

theorem sound_of_untold (tells : st.Tells none .away) {s : Nat} (focus : st.focus = some s)
    (down : st.down = true)
    (untold : (st.tabletSeatForClient (surfaces.client s)).filter (·.tool) = none) :
    st.Sound surfaces where
  tells := by
    rw [strokeSeat, focus, Option.bind_some, untold]
    exact tells.idle .touching
  down := fun _ => down

/-- A stroke brings the tool near and touches, each once. -/
theorem Sound.handlePencilDown (sound : st.Sound surfaces)
    (record : PencilRecord) (hit : Option Nat)
    (orderly : ∀ s ∈ hit, ∀ seat ∈ st.tabletSeatForClient (surfaces.client s), seat.tool = true →
      st.focus ≠ some s ∧ seat.tablet = true) :
    (st.handlePencilDown surfaces record hit).Sound surfaces := by
  unfold PenState.handlePencilDown
  by_cases same : hit = st.focus
  · -- The stroke goes on, and there is no tool to be told so.
    rw [if_pos same]
    cases hit with
    | none => exact sound
    | some s =>
      have down := sound.down (by rw [← same]; rfl)
      have still : ({ st with focus := some s, down := true } : PenState) = st := by
        rw [same, ← down]
      simp only [still]
      cases found : st.tabletSeatForClient (surfaces.client s) with
      | none => exact sound
      | some seat =>
        have silent : ¬(seat.tool = true ∧ seat.tablet = true) := by
          intro both
          exact (orderly s rfl seat found both.1).1 same.symm
        simp only [silent, ↓reduceIte]
        exact sound
  · rw [if_neg same]
    obtain ⟨tells, idle, seats⟩ := sound.penLeave
    generalize st.penLeave surfaces = left at tells idle seats ⊢
    cases hit with
    | none => exact sound_of_away tells idle
    | some s =>
      have begun := tells.withStroke (some s) true left.penClient
      have entering : decide (left.focus ≠ some s) = true := by simp [idle]
      have lookup : ({ left with focus := some s, down := true } : PenState).tabletSeatForClient
          (surfaces.client s) = st.tabletSeatForClient (surfaces.client s) := by
        rw [tabletSeatForClient, seats]
        rfl
      simp only [entering, ↓reduceIte]
      rw [lookup]
      cases found : st.tabletSeatForClient (surfaces.client s) with
      | none => exact sound_of_untold begun rfl rfl (by rw [lookup, found]; rfl)
      | some seat =>
        rw [found] at lookup
        cases tool : seat.tool with
        | false =>
          simp only [tool, Bool.false_eq_true, false_and, ↓reduceIte]
          exact sound_of_untold begun rfl rfl (by simp [lookup, tool])
        | true =>
          have tablet := (orderly s rfl seat found tool).2
          simp only [tool, tablet, and_self, ↓reduceIte]
          have member : seat ∈ left.seats := by
            rw [seats]
            exact List.mem_of_find?_eq_some found
          -- The pen comes near, the axes follow, and the tip goes down.
          have near := (begun.away (some seat.id)).send member tool
            (show ToolPhase.away.advance (.proximityIn s) = some .near from rfl)
          have axes := near.axes surfaces member tool (.inl rfl) s record
          have touching := axes.send member tool
            (show ToolPhase.near.advance .down = some .touching from rfl)
          have framed := touching.send member tool
            (show ToolPhase.touching.advance .frame = some .touching from rfl)
          refine ⟨?_, fun _ => rfl⟩
          have stroke : (({ left with focus := some s, down := true } : PenState).strokeSeat
              surfaces).map (·.id) = some seat.id := by
            rw [strokeSeat, Option.bind_some, lookup]
            simp [tool]
          exact stroke ▸ framed

theorem Sound.motion (sound : st.Sound surfaces) (stroke : st.strokeSeat surfaces = some seat)
    (s : Nat) (record : PencilRecord) :
    ((st.penSendAxes surfaces seat.id s record).send seat.id .frame).Sound surfaces := by
  obtain ⟨member, tool⟩ := mem_of_strokeSeat stroke
  have tells := sound.tells
  rw [stroke] at tells
  have axes := tells.axes surfaces member tool (.inr rfl) s record
  have framed := axes.send member tool
    (show ToolPhase.touching.advance .frame = some .touching from rfl)
  refine ⟨?_, sound.down⟩
  have same : (((st.penSendAxes surfaces seat.id s record).send seat.id .frame).strokeSeat
      surfaces).map (·.id) = some seat.id := congrArg (Option.map (·.id)) stroke
  exact same ▸ framed

theorem Sound.handlePencil (sound : st.Sound surfaces) (client : Nat) (record : PencilRecord)
    (hit : Option Nat) (orderly : st.Orderly surfaces (.tablet client record hit)) :
    (st.handlePencil surfaces record hit).Sound surfaces := by
  unfold PenState.handlePencil
  split
  · exact sound.left
  · rename_i down
    exact sound.handlePencilDown record hit (orderly down)
  · split
    · exact sound
    · rename_i s focus
      split
      · -- No tool is told of this stroke, and none is told of its end.
        rename_i untold
        have stroke : st.strokeSeat surfaces = none := by
          rw [strokeSeat, focus]
          exact untold
        split
        · have tells := sound.tells
          rw [stroke] at tells
          exact sound_of_away ((tells.idle .away).withStroke none false st.penClient) rfl
        · exact sound
      · rename_i seat told
        have stroke : st.strokeSeat surfaces = some seat := by
          rw [strokeSeat, focus]
          exact told
        split
        · exact sound.motion stroke s record
        · split
          · exact sound.left
          · exact sound

theorem strokeSeat_modifySeat (surfaces : PenSurfaces) (st : PenState) (id : Nat)
    {f : TabletSeat → TabletSeat} (client : ∀ seat, (f seat).client = seat.client) :
    (st.modifySeat id f).strokeSeat surfaces =
      st.focus.bind fun s => ((st.tabletSeatForClient (surfaces.client s)).map fun seat =>
        if seat.id = id then f seat else seat).filter (·.tool) := by
  unfold strokeSeat
  show st.focus.bind _ = _
  congr 1
  funext s
  unfold tabletSeatForClient modifySeat
  rw [List.find?_map]
  congr 2
  apply congrArg (List.find? · st.seats)
  funext seat
  simp only [Function.comp]
  split
  · rw [client]
  · rfl

theorem Tells.same_of_id (tells : st.Tells current phase) {other : TabletSeat}
    (member : seat ∈ st.seats) (there : other ∈ st.seats) (number : seat.id = other.id) :
    seat = other :=
  List.inj_on_of_nodup_map tells.apart member there number

theorem Sound.modifySeat (sound : st.Sound surfaces) (id : Nat) {f : TabletSeat → TabletSeat}
    (client : ∀ seat, (f seat).client = seat.client) (number : ∀ seat, (f seat).id = seat.id)
    (tool : ∀ seat, (f seat).tool = true → seat.tool = true) :
    (st.modifySeat id f).Sound surfaces := by
  let g (seat : TabletSeat) : TabletSeat := if seat.id = id then f seat else seat
  have same (seat : TabletSeat) : (g seat).id = seat.id := by
    simp only [g]
    split
    · exact number seat
    · rfl
  have before (seat : TabletSeat) (alive : (g seat).tool = true) : seat.tool = true := by
    simp only [g] at alive
    split at alive
    · exact tool seat alive
    · exact alive
  have after := st.strokeSeat_modifySeat surfaces id client
  -- The seat of the stroke is the same one, unless it has lost its tool.
  have stroke (old : TabletSeat) (there : old ∈ st.seats) (alive : (g old).tool = true) :
      ((st.modifySeat id f).strokeSeat surfaces).map (·.id) = some old.id ↔
        (st.strokeSeat surfaces).map (·.id) = some old.id := by
    rw [after]
    constructor
    · intro found
      obtain ⟨seat, here, equal⟩ := Option.map_eq_some_iff.mp found
      obtain ⟨s, focus, filtered⟩ := Option.bind_eq_some_iff.mp here
      obtain ⟨mapped, lives⟩ := Option.filter_eq_some_iff.mp filtered
      obtain ⟨first, lookup, rfl⟩ := Option.map_eq_some_iff.mp mapped
      have told : st.strokeSeat surfaces = some first := by
        rw [strokeSeat, focus, Option.bind_some, lookup]
        exact Option.filter_eq_some_iff.mpr ⟨rfl, before first lives⟩
      rw [told, ← equal]
      exact congrArg some (same first).symm
    · intro found
      obtain ⟨seat, here, equal⟩ := Option.map_eq_some_iff.mp found
      obtain rfl := sound.tells.same_of_id (mem_of_strokeSeat here).1 there equal
      obtain ⟨s, focus, filtered⟩ := Option.bind_eq_some_iff.mp here
      have lookup := (Option.filter_eq_some_iff.mp filtered).1
      rw [focus, Option.bind_some, lookup]
      have told : (some (g seat)).filter (·.tool) = some (g seat) :=
        Option.filter_eq_some_iff.mpr ⟨rfl, alive⟩
      exact (congrArg (Option.map (·.id)) told).trans (congrArg some (same seat))
  have numbers : (st.seats.map g).map (·.id) = st.seats.map (·.id) := by
    rw [List.map_map]
    exact List.map_congr_left fun seat _ => same seat
  refine ⟨?_, sound.down⟩
  exact {
    phases := by
      intro seat member alive
      obtain ⟨old, there, rfl⟩ := List.mem_map.mp member
      have told := sound.tells.phases old there (before old alive)
      rw [← if_congr (stroke old there alive) rfl rfl] at told
      rw [same old]
      exact told
    bracketed := sound.tells.bracketed
    apart := by
      show ((st.seats.map g).map (·.id)).Nodup
      rw [numbers]
      exact sound.tells.apart
    created := by
      intro seat member
      obtain ⟨old, there, rfl⟩ := List.mem_map.mp member
      rw [same old]
      exact sound.tells.created old there
    fresh := sound.tells.fresh }

theorem strokeSeat_getTabletSeat {client : Nat} {allocated : Bool}
    (orderly : st.Orderly surfaces (.getTabletSeat client allocated)) :
    (st.tabletMgrGetTabletSeat client allocated).strokeSeat surfaces = st.strokeSeat surfaces := by
  unfold tabletMgrGetTabletSeat
  split
  · rfl
  · rename_i made
    rw [not_or, Nat.not_le, Bool.not_eq_false] at made
    -- The new seat comes last, and is the first one of its client at most outside the stroke.
    refine Option.bind_congr fun s focus => congrArg (Option.filter _) ?_
    unfold tabletSeatForClient
    rw [List.find?_append, List.find?_singleton]
    by_cases same : surfaces.client s = client
    · obtain ⟨seat, found⟩ :=
        Option.isSome_iff_exists.mp (orderly made.2 made.1 s focus same)
      unfold tabletSeatForClient at found
      rw [same, found]
      rfl
    · rw [if_neg (by simpa using Ne.symm same), Option.or_none]

theorem strokeSeat_seatDestroy {id : Nat} (orderly : st.Orderly surfaces (.seatDestroyed id)) :
    (st.tabletSeatResDestroy id).strokeSeat surfaces =
      (st.strokeSeat surfaces).filter fun seat => seat.id ≠ id := by
  unfold tabletSeatResDestroy
  dsimp only
  split
  · rename_i inside
    generalize at_ : (st.seats.findIdx fun seat => decide (seat.id = id)) = index at inside orderly
    have others : ∀ seat ∈ st.seats.take index, seat.id ≠ id := by
      intro seat here same
      obtain ⟨place, short, rfl⟩ := List.mem_iff_getElem.mp here
      rw [List.length_take] at short
      rw [List.getElem_take] at same
      have earlier : place < st.seats.findIdx fun seat => decide (seat.id = id) := by omega
      have first := List.not_of_lt_findIdx earlier
      simp [same] at first
    have parts : st.seats = st.seats.take index ++ st.seats[index] :: st.seats.drop (index + 1) := by
      rw [List.getElem_cons_drop, List.take_append_drop]
    cases focus : st.focus with
    | none => simp [strokeSeat, focus]
    | some s =>
      have kept := orderly s focus
      rw [at_] at kept
      have after := SwapTable.find?_takeOut (fun seat => decide (seat.client = surfaces.client s))
        (st.seats.take index) st.seats[index] (st.seats.drop (index + 1))
      rw [← parts, List.length_take, Nat.min_eq_left (Nat.le_of_lt inside)] at after
      simp only [strokeSeat, focus, Option.bind_some, tabletSeatForClient, after] at kept ⊢
      cases found : (st.seats.take index).find? fun seat => decide (seat.client = surfaces.client s) with
      | some first =>
        -- The seat of the stroke comes before the one that is destroyed, and stays where it is.
        have other := others first (List.mem_of_find?_eq_some found)
        have before : (st.seats.find? fun seat => decide (seat.client = surfaces.client s)) =
            some first := by
          rw [parts, List.find?_append, found, Option.some_or]
        rw [before, Option.some_or]
        cases tool : first.tool <;> simp [Option.filter, tool, other]
      | none =>
        rw [Option.none_or]
        refine kept fun seat here same => ?_
        have absent := List.find?_eq_none.mp found seat here
        exact absent (decide_eq_true same)
  · rename_i outside
    cases stroke : st.strokeSeat surfaces with
    | none => rfl
    | some seat =>
      have other : seat.id ≠ id := fun same => outside
        (List.findIdx_lt_length_of_exists ⟨seat, (mem_of_strokeSeat stroke).1, by simpa using same⟩)
      simp [Option.filter, other]

theorem Sound.getTabletSeat (sound : st.Sound surfaces) (client : Nat)
    (allocated : Bool) (orderly : st.Orderly surfaces (.getTabletSeat client allocated)) :
    (st.tabletMgrGetTabletSeat client allocated).Sound surfaces := by
  have tells := sound.tells
  have owned : ∀ id, (st.strokeSeat surfaces).map (·.id) = some id → id < st.created := by
    intro id stroke
    obtain ⟨seat, found, rfl⟩ := Option.map_eq_some_iff.mp stroke
    exact tells.created seat (mem_of_strokeSeat found).1
  suffices rows : (st.tabletMgrGetTabletSeat client allocated).Tells
      ((st.strokeSeat surfaces).map (·.id)) .touching by
    refine ⟨strokeSeat_getTabletSeat orderly ▸ rows, ?_⟩
    unfold tabletMgrGetTabletSeat
    split
    · exact sound.down
    · exact sound.down
  unfold tabletMgrGetTabletSeat
  split
  · exact tells
  · exact {
      phases := by
        intro seat member alive
        rcases List.mem_append.mp member with there | new
        · exact tells.phases seat there alive
        · -- The new tool has not been told anything, and the stroke is not its own.
          rw [List.mem_singleton] at new
          subst new
          have other : ¬(st.strokeSeat surfaces).map (·.id) = some st.created := by
            intro stroke
            exact absurd (owned _ stroke) (Nat.lt_irrefl _)
          rw [if_neg other, tells.fresh st.created (Nat.le_refl _)]
          rfl
      bracketed := tells.bracketed
      apart := by
        rw [List.map_append]
        apply List.Nodup.append tells.apart (List.nodup_singleton _)
        intro id old new
        obtain ⟨seat, there, rfl⟩ := List.mem_map.mp old
        have number : seat.id = st.created := List.mem_singleton.mp new
        have below := tells.created seat there
        omega
      created := by
        intro seat member
        show seat.id < st.created + 1
        rcases List.mem_append.mp member with there | new
        · have below := tells.created seat there
          omega
        · rw [List.mem_singleton.mp new]
          exact Nat.lt_succ_self _
      fresh := by
        intro id outside
        have beyond : st.created + 1 ≤ id := outside
        exact tells.fresh id (by omega) }

/-- A seat that is destroyed hears nothing more, and no other one is told of its stroke. -/
theorem Sound.seatDestroy (sound : st.Sound surfaces) (id : Nat)
    (orderly : st.Orderly surfaces (.seatDestroyed id)) : (st.tabletSeatResDestroy id).Sound surfaces := by
  have tells := sound.tells
  suffices rows : (st.tabletSeatResDestroy id).Tells
      (((st.strokeSeat surfaces).filter fun seat => seat.id ≠ id).map (·.id)) .touching by
    refine ⟨strokeSeat_seatDestroy orderly ▸ rows, ?_⟩
    unfold tabletSeatResDestroy
    dsimp only
    split
    · exact sound.down
    · exact sound.down
  -- For every other seat the stroke is its own exactly if it was.
  have stroke (seat : TabletSeat) (other : seat.id ≠ id) :
      ((st.strokeSeat surfaces).filter fun seat => seat.id ≠ id).map (·.id) = some seat.id ↔
        (st.strokeSeat surfaces).map (·.id) = some seat.id := by
    cases st.strokeSeat surfaces with
    | none => rfl
    | some current =>
      by_cases gone : current.id = id
      · simp only [gone, ne_eq, not_true_eq_false, decide_false, Option.filter_some,
          Bool.false_eq_true, ↓reduceIte, Option.map_none, reduceCtorEq, Option.map_some,
          Option.some.injEq, false_iff]
        exact fun equal => other equal.symm
      · simp [gone]
  have kept : ∀ seat ∈ st.seats, seat.id ≠ id → seat.tool = true →
      toolPhase (st.log seat.id) =
        some (if ((st.strokeSeat surfaces).filter fun seat => seat.id ≠ id).map (·.id) =
          some seat.id then .touching else .away) := by
    intro seat member other alive
    rw [tells.phases seat member alive]
    exact congrArg some (if_congr (stroke seat other).symm rfl rfl)
  unfold tabletSeatResDestroy
  dsimp only
  split
  · -- The others stay in the table, though not in their order.
    rename_i inside
    have taken := SwapTable.perm_takeOut inside
    have number : (st.seats[st.seats.findIdx fun seat => decide (seat.id = id)]).id = id := by
      have found := List.findIdx_getElem (w := inside)
      simpa using found
    generalize st.seats[st.seats.findIdx fun seat => decide (seat.id = id)] = gone at taken number
    have apart := (taken.map (·.id)).nodup_iff.mp tells.apart
    rw [List.map_cons, List.nodup_cons] at apart
    exact {
      phases := by
        intro seat member alive
        have other : seat.id ≠ id := by
          intro same
          exact apart.1 (List.mem_map.mpr ⟨seat, member, same.trans number.symm⟩)
        exact kept seat (taken.mem_iff.mpr (.tail _ member)) other alive
      bracketed := tells.bracketed
      apart := apart.2
      created := fun seat member => tells.created seat (taken.mem_iff.mpr (.tail _ member))
      fresh := tells.fresh }
  · rename_i outside
    have absent : ∀ seat ∈ st.seats, seat.id ≠ id := by
      intro seat member same
      exact outside (List.findIdx_lt_length_of_exists ⟨seat, member, by simpa using same⟩)
    exact { tells with
      phases := fun seat member alive => kept seat member (absent seat member) alive }

/-- An orderly event is handled well. -/
theorem Sound.next (sound : st.Sound surfaces) (event : PenEvent)
    (orderly : st.Orderly surfaces event) : (st.next surfaces event).Sound surfaces := by
  cases event with
  | tablet client record hit =>
    have handled := sound.handlePencil client record hit orderly
    simp only [PenState.next]
    split
    · exact ⟨handled.tells.withStroke _ _ client, handled.down⟩
    · exact handled
  | surfaceGone s =>
    simp only [PenState.next, penSurfaceGone]
    split
    · exact sound.left
    · exact sound
  | sessionLocked => exact sound.left
  | inputClientDropped client =>
    simp only [PenState.next]
    split
    · exact ⟨sound.left.tells.withStroke _ _ 0, sound.left.down⟩
    · exact sound
  | getTabletSeat client allocated => exact sound.getTabletSeat client allocated orderly
  | toolDestroyed id =>
    exact sound.modifySeat id (fun _ => rfl) (fun _ => rfl) fun _ alive => nomatch alive
  | tabletDestroyed id =>
    exact sound.modifySeat id (fun _ => rfl) (fun _ => rfl) fun _ alive => alive
  | seatDestroyed id => exact sound.seatDestroy id orderly

theorem sound_start : ({} : PenState).Sound surfaces :=
  sound_of_away ⟨nofun, fun _ => rfl, List.nodup_nil, nofun, fun _ _ => rfl⟩ rfl

def orderlyMachine (surfaces : PenSurfaces) : Machine PenState PenEvent :=
  (machine surfaces).restrict (Orderly surfaces)

instance (surfaces : PenSurfaces) (st : PenState) (event : PenEvent) :
    Decidable ((orderlyMachine surfaces).enabled st event) :=
  inferInstanceAs (Decidable (True ∧ st.Orderly surfaces event))

/-- As long as the events are orderly, the events of each tool form groups. -/
theorem tools_bracketed {trace : List PenEvent} {st : PenState}
    (run : (orderlyMachine surfaces).Run trace st) (tool : Nat) :
    Bracketed (st.log tool) := by
  have sound : st.Sound surfaces := by
    apply run.invariant fun _ st => st.Sound surfaces
    · intro st begun
      rw [show st = {} from begun]
      exact sound_start
    · intro _ st event sound allowed
      exact sound.next event allowed.2
  exact sound.tells.bracketed tool

def oneClient : PenSurfaces where
  client _ := 7
  localCoords s x y := (x - 100 * s, y)

def strokes : List PenEvent :=
  [.getTabletSeat 7 true, .tablet 1 { phase := .down, x := 110, y := 5 } (some 1),
    .tablet 1 { phase := .motion, x := 120, pressure := 70000 } (some 2),
    .tablet 1 { phase := .down, x := 210 } (some 2), .tablet 1 { phase := .up } none,
    .getTabletSeat 7 true, .tablet 1 { phase := .down, x := 130 } (some 1), .seatDestroyed 1,
    .sessionLocked]

def doubleDown : List PenEvent :=
  [.getTabletSeat 7 true, .tablet 1 { phase := .down } (some 1),
    .tablet 1 { phase := .down } (some 1)]

theorem tools_bracketed_strokes : Bracketed ((strokes.foldl (next oneClient) {}).log 0) :=
  tools_bracketed (Machine.Run.of_script (m := orderlyMachine oneClient) rfl strokes (by decide)) 0

theorem not_tools_bracketed :
    ¬ ∀ (surfaces : PenSurfaces) (trace : List PenEvent) (st : PenState),
      (machine surfaces).Run trace st → ∀ tool, Bracketed (st.log tool) := by
  intro bracketed
  have run := Machine.Run.of_script (m := machine oneClient) (s := {}) rfl doubleDown
    (Machine.admits_of_enabled (fun _ _ => trivial) _ _)
  exact absurd (bracketed oneClient _ _ run 0) (by decide)

end PenState

end Xios
