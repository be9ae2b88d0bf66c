import Xios.Seat.DragLaws

/-! The ends of a drag: whatever happens, its source is told of one. -/

namespace Xios

namespace DndServer

/-- A step does something to the drag of a source, and the others stay coherent. -/
structure Acts (s : Nat) (delivers : Bool) (d d' : DndServer) : Prop where
  moves : (d.view s).Moves delivers (d'.view s)
  coherent : d'.Coherent
  -- A drag that is going on is the same one afterwards, or nothing is left of it.
  drag : d.dnd.active = true →
    d'.dnd = .idle ∨ d'.dnd.active = true ∧ d'.dnd.source = d.dnd.source

section Acting

variable {d d' : DndServer} {s : Nat}

theorem Still.acts (still : Still s d d') : Acts s false d d' :=
  ⟨still.view ▸ .quiet, still.coherent, fun on => .inr (still.drag on)⟩

variable {said : DndOutcome}

theorem outcome_aside {source : Option Nat} (apart : source ≠ some s) {event : Nat → DndEvent}
    (meaning : ∀ other, (event other).outcome s = if other = s then some said else none) :
    (source.bind fun other => (event other).outcome s) = none := by
  cases source with
  | none => rfl
  | some other =>
    have differs : other ≠ s := fun same => apart (congrArg some same)
    rw [Option.bind_some, meaning, if_neg differs]

theorem Coherent.of_idle (dnd : d.dnd = .idle)
    (live : ∀ r o s, d.offers r = some o → o.source = some s → (d.sources s).isSome = true) :
    d.Coherent := by
  refine ⟨fun _ => dnd, fun r current => ?_, fun other drags => ?_, live⟩
  · rw [dnd] at current
    cases current
  · rw [dnd] at drags
    cases drags

theorem Coherent.cancels (coherent : d.Coherent) (active : d.dnd.active = true)
    (dnd : d'.dnd = .idle) (sources : d'.sources = d.sources) (offers : d'.offers = d.offers)
    (told : d'.outcomes s = d.outcomes s ++
      (d.dnd.source.bind fun other => (DndEvent.cancelled other).outcome s).toList) :
    Acts s false d d' := by
  refine ⟨?_, .of_idle dnd (by rw [sources, offers]; exact coherent.live), fun _ => .inl dnd⟩
  have stopped : ¬d'.Dragging s := by simp [Dragging, dnd, Dnd.idle]
  -- Offers outlive the drag, and none of them was changed.
  have opened : d'.opens s = d.opens s := by
    funext r
    rw [opens, opens, offers]
  by_cases on : d.dnd.source = some s
  · have dragging : (d.view s).dragging = true := by simp [view, Dragging, active, on]
    have seen : d'.view s =
        { d.view s with
          dragging := false
          outcomes := (d.view s).outcomes ++ [.cancelled] } := by
      simp [view, stopped, opened, told, on, sources, DndEvent.outcome]
    rw [seen]
    exact .cancelled dragging
  · -- The source of another drag is told.
    have untold : (d.dnd.source.bind fun other => (DndEvent.cancelled other).outcome s) = none :=
      outcome_aside on fun _ => rfl
    have seen : d'.view s = d.view s := by
      have off : ¬d.Dragging s := fun dragging => on dragging.2
      simp [view, stopped, off, opened, told, untold, sources]
    rw [seen]
    exact .quiet

theorem Coherent.acts_cancelActive (coherent : d.Coherent) : Acts s false d d.dndCancelActive := by
  unfold dndCancelActive
  split
  next active =>
    refine coherent.cancels active ?_ (by simp) (by simp) (by simp)
    exact dndEnd_dnd _ (by simpa using active)
  next => exact coherent.nothing.acts

theorem Coherent.acts_unmap (coherent : d.Coherent) (gone : Nat) :
    Acts s false d (d.surfaceUnmap gone) := by
  unfold surfaceUnmap
  split
  next active =>
    simp only
    -- A destination that goes away takes its offer along.
    have first : Still s d
        (if d.dnd.focus = some gone then
          d.setDnd { d.dnd with focus := none, offer := none, targetAccepted := false }
        else d) :=
      .ite (fun _ => coherent.still (.inr ⟨active, active, rfl, .inr rfl⟩) rfl rfl rfl)
        fun _ => coherent.nothing
    generalize (if d.dnd.focus = some gone then
        d.setDnd { d.dnd with focus := none, offer := none, targetAccepted := false }
      else d) = d₁ at *
    obtain ⟨active', -⟩ := first.drag active
    split
    · have ended := dndEnd_dnd (d₁.tellSource d₁.dnd.source .cancelled) (by simpa using active')
      have cancelled : Acts s false d₁ ((d₁.tellSource d₁.dnd.source .cancelled).dndEnd) :=
        first.coherent.cancels active' ended (by simp) (by simp) (by simp)
      exact ⟨first.view ▸ cancelled.moves, cancelled.coherent, fun _ => .inl ended⟩
    · exact first.acts
  next => exact coherent.nothing.acts

variable {r : Nat} {left : Option DndOffer}

theorem Coherent.offer (coherent : d.Coherent) (past : d.dnd.offer ≠ some r) (dnd : d'.dnd = d.dnd) (sources : d'.sources = d.sources)
    (offers : d'.offers = Function.update d.offers r left)
    (forwards : ∀ o other, left = some o → o.source = some other →
      (d.sources other).isSome = true) : d'.Coherent := by
  constructor
  case cleared => exact dnd ▸ coherent.cleared
  case current =>
    intro r' current
    rw [dnd] at current ⊢
    have apart : r' ≠ r := fun same => past (same ▸ current)
    rw [offers, Function.update_of_ne apart]
    exact coherent.current r' current
  case source =>
    intro other drags
    rw [sources]
    exact coherent.source other (dnd ▸ drags)
  case live =>
    rw [sources, offers]
    exact coherent.live_update forwards

variable {o : DndOffer}

theorem Coherent.past (coherent : d.Coherent) (held : d.offers r = some o)
    (dropped : o.dropped = true) : d.dnd.offer ≠ some r := by
  intro current
  obtain ⟨o', held', -, undropped, -⟩ := coherent.current r current
  obtain rfl := Option.some.inj (held.symm.trans held')
  simp [dropped] at undropped

/-- A drop that is concluded tells its source how it ended, for the first and last time. -/
theorem Coherent.concludes (coherent : d.Coherent)
    (held : d.offers r = some o) (dropped : o.dropped = true) (unfinished : o.finished = false) (closed : left = none ∨ left = some { o with finished := true })
    (event : Nat → DndEvent) (kind : said = .finished ∨ said = .cancelled)
    (meaning : ∀ other, (event other).outcome s = if other = s then some said else none)
    (dnd : d'.dnd = d.dnd) (sources : d'.sources = d.sources)
    (offers : d'.offers = Function.update d.offers r left)
    (told : d'.outcomes s = d.outcomes s ++
      (if d.knowsActions o.source then
        (o.source.bind fun other => (event other).outcome s).toList else [])) :
    Acts s false d d' := by
  refine ⟨?_, ?_, fun on => .inr (by rw [dnd]; exact ⟨on, rfl⟩)⟩
  · -- Whichever way it was closed, nothing can be said through it any more.
    have shut : left.any (fun o => o.source = some s && o.dropped && !o.finished) = false := by
      rcases closed with rfl | rfl <;> simp
    have opened : d'.opens s = Function.update (d.opens s) r false := by
      funext r'
      by_cases same : r' = r
      · simp only [opens, offers, same, Function.update_self, shut]
      · simp only [opens, offers, Function.update_of_ne same]
    have drag : d'.Dragging s ↔ d.Dragging s := by rw [Dragging, Dragging, dnd]
    by_cases mine : o.source = some s
    · -- The source is told what has become of its data, if it knows of drops.
      have here : (d.view s).opened r = true := by
        simp [view, opens, held, mine, dropped, unfinished]
      have knows : d.knowsActions o.source = (d.view s).knows := by
        simp [knowsActions, mine, view, SourceView.knows, Option.any_map]
      have seen : d'.view s =
          { d.view s with
            outcomes := (d.view s).outcomes ++ (if (d.view s).knows then [said] else [])
            opened := Function.update (d.view s).opened r false } := by
        refine SourceView.ext ?_ ?_ ?_ opened
        · simp only [view, drag]
        · simp only [view, sources]
        · rw [← knows]
          simp [view, told, mine, meaning]
      rw [seen]
      exact .concluded r here said kind
    · -- Another source is told, or none.
      have untold := outcome_aside mine meaning
      have unopened : d.opens s r = false := by simp [opens, held, mine]
      have seen : d'.view s = d.view s := by
        refine view_eq drag (by rw [sources]) (by simp [told, untold]) fun r' => ?_
        rw [opened]
        by_cases same : r' = r
        · rw [same, Function.update_self, unopened]
        · rw [Function.update_of_ne same]
      rw [seen]
      exact .quiet
  · refine coherent.offer (coherent.past held dropped) dnd sources offers
      fun o' other kept forwards => ?_
    rcases closed with rfl | rfl
    · cases kept
    · obtain rfl := Option.some.inj kept
      exact coherent.live r o other held forwards

theorem Coherent.acts_finish (coherent : d.Coherent) (r : Nat) :
    Acts s false d (d.dndOfferFinish r) := by
  unfold dndOfferFinish
  cases held : d.offers r with
  | none => exact coherent.nothing.acts
  | some o =>
    simp only
    split
    next => exact coherent.nothing.acts
    next still =>
      simp only [Bool.or_eq_true, Bool.not_eq_true', not_or, Bool.not_eq_true, Bool.not_eq_false]
        at still
      have knows : (d.setOffer r (some { o with finished := true })).knowsActions =
        d.knowsActions := rfl
      have told : (d.setOffer r (some { o with finished := true })).outcomes s = d.outcomes s := rfl
      rw [knows]
      refine coherent.concludes held still.1 still.2 (.inr rfl) .finished (.inl rfl) (fun _ => rfl)
        ?_ ?_ ?_ ?_
      · split <;> simp [setOffer]
      · split <;> simp [setOffer]
      · split <;> simp [setOffer]
      · split <;> simp [told]

/-- An offer that goes away before it is finished cancels its drag. -/
theorem Coherent.acts_offerGone (coherent : d.Coherent) (r : Nat) :
    Acts s false d (d.dndOfferResourceDestroy r) := by
  unfold dndOfferResourceDestroy
  cases held : d.offers r with
  | none => exact coherent.nothing.acts
  | some o =>
    simp only
    by_cases still : o.dropped = true ∧ o.finished = false
    · -- Data has been dropped through it, so the drag has another offer, or none.
      have past : ¬d.Offering r := fun offering => coherent.past held still.1 offering.2
      rw [if_neg past]
      simp only [still.1, still.2, Bool.not_false, Bool.true_and]
      refine coherent.concludes held still.1 still.2 (.inl rfl) .cancelled (.inr rfl)
        (fun _ => rfl) ?_ ?_ ?_ ?_
      · split <;> simp [setOffer]
      · split <;> simp [setOffer]
      · split <;> simp [setOffer]
      · split
        next knows =>
          show (d.tellSource o.source .cancelled).outcomes s = _
          rw [tellSource_outcomes]
        next => exact (List.append_nil _).symm
    · have closed : (o.dropped && !o.finished) = false := by
        cases dropped : o.dropped <;> cases finished : o.finished <;> simp_all
      simp only [closed, Bool.false_and, Bool.false_eq_true, ↓reduceIte]
      have first : Still s d (if d.Offering r then
          d.setDnd { d.dnd with offer := none, targetAccepted := false } else d) :=
        .ite (fun offering => coherent.still (.inr ⟨offering.1, offering.1, rfl, .inr rfl⟩) rfl rfl
          rfl) fun _ => coherent.nothing
      have past : (if d.Offering r then
          d.setDnd { d.dnd with offer := none, targetAccepted := false } else d).dnd.offer ≠
            some r := by
        split
        next => exact nofun
        next apart =>
          intro current
          refine apart ⟨?_, current⟩
          by_contra stopped
          rw [coherent.cleared (by simpa using stopped)] at current
          cases current
      have same : (if d.Offering r then
          d.setDnd { d.dnd with offer := none, targetAccepted := false } else d).offers =
            d.offers := by
        split <;> rfl
      generalize (if d.Offering r then
        d.setDnd { d.dnd with offer := none, targetAccepted := false } else d) = d₁ at *
      have second : Still s d₁ (d₁.setOffer r none) := by
        refine ⟨view_eq Iff.rfl rfl rfl fun r' => ?_, first.coherent.offer past rfl rfl rfl nofun,
          fun on => ⟨on, rfl⟩⟩
        by_cases here : r' = r
        · rw [← same] at held
          simp [opens, setOffer, here, held, Bool.and_assoc, closed]
        · simp [opens, setOffer, here]
      exact (first.trans second).acts

theorem markDropped_cases (d : DndServer) :
    (∃ r o, d.dnd.offer = some r ∧ d.offers r = some o ∧
      d.markDropped = d.setOffer r (some { o with dropped := true })) ∨
    d.currentOffer = none ∧ d.markDropped = d := by
  unfold markDropped currentOffer
  cases current : d.dnd.offer with
  | none => exact .inr ⟨rfl, rfl⟩
  | some r =>
    cases held : d.offers r with
    | none => exact .inr ⟨held, by simp [held]⟩
    | some o => exact .inl ⟨r, o, rfl, held, by simp [held]⟩

section Dropping

variable (d : DndServer)

@[simp] theorem markDropped_dnd : d.markDropped.dnd = d.dnd := by
  rcases markDropped_cases d with ⟨r, o, -, -, marked⟩ | ⟨-, marked⟩
  · rw [marked]
    rfl
  · rw [marked]

@[simp] theorem markDropped_sources : d.markDropped.sources = d.sources := by
  rcases markDropped_cases d with ⟨r, o, -, -, marked⟩ | ⟨-, marked⟩
  · rw [marked]
    rfl
  · rw [marked]

@[simp] theorem markDropped_outcomes (s : Nat) : d.markDropped.outcomes s = d.outcomes s := by
  rcases markDropped_cases d with ⟨r, o, -, -, marked⟩ | ⟨-, marked⟩
  · rw [marked]
    rfl
  · rw [marked]

theorem markDropped_offers {d d' : DndServer} (dnd : d'.dnd = d.dnd)
    (offers : d'.offers = d.offers) : d'.markDropped.offers = d.markDropped.offers := by
  have same : d'.currentOffer = d.currentOffer := by
    rw [currentOffer, currentOffer, dnd, offers]
  unfold markDropped
  rw [dnd, same]
  split
  · simp only [setOffer, offers]
  · exact offers

end Dropping

theorem dndDrop_taken (active : d.dnd.active = true) (taken : d.dropTaken = true) :
    d.dndDrop.dnd = .idle ∧ d.dndDrop.sources = d.sources ∧
      d.dndDrop.offers = d.markDropped.offers ∧
      ∀ s, d.dndDrop.outcomes s = d.outcomes s ++
        (if d.knowsActions d.dnd.source then
          (d.dnd.source.bind fun other => (DndEvent.dropPerformed other).outcome s).toList
        else []) := by
  have dnd : (d.tellFocus .drop).markDropped.dnd = d.dnd := by simp
  have sources : (d.tellFocus .drop).markDropped.sources = d.sources := by simp
  have offers : (d.tellFocus .drop).markDropped.offers = d.markDropped.offers :=
    markDropped_offers (by simp) (by simp)
  have told (s : Nat) : (d.tellFocus .drop).markDropped.outcomes s = d.outcomes s := by
    rw [markDropped_outcomes]
    exact d.tellFocus_outcomes fun _ => rfl
  unfold dndDrop
  rw [if_pos taken]
  simp only
  generalize (d.tellFocus .drop).markDropped = d₁ at *
  have knows : d₁.knowsActions d₁.dnd.source = d.knowsActions d.dnd.source := by
    rw [dnd, knowsActions, knowsActions, sources]
  rw [knows, ← dnd]
  split
  · exact ⟨dndEnd_dnd _ (by simpa [dnd] using active), by simp [sources], by simp [offers],
      fun s => by simp [told]⟩
  · exact ⟨dndEnd_dnd _ (by simpa [dnd] using active), by simp [sources], by simp [offers],
      fun s => by simp [told]⟩

theorem Coherent.dropped (coherent : d.Coherent) (active : d.dnd.active = true)
    (taken : d.dropTaken = true) :
    d.dndDrop.offers = d.offers ∧ d.currentOffer = none ∨
      ∃ r o, d.offers r = some o ∧ o.source = d.dnd.source ∧ o.finished = false ∧
        d.dndDrop.offers = Function.update d.offers r (some { o with dropped := true }) := by
  obtain ⟨-, -, offers, -⟩ := dndDrop_taken active taken
  rcases markDropped_cases d with ⟨r, o, current, held, marked⟩ | ⟨none, marked⟩
  · obtain ⟨o', held', source, -, unfinished⟩ := coherent.current r current
    obtain rfl := Option.some.inj (held.symm.trans held')
    exact .inr ⟨r, o, held, source, unfinished, by rw [offers, marked]; rfl⟩
  · exact .inl ⟨by rw [offers, marked], none⟩

theorem Coherent.dndDrop (coherent : d.Coherent) (active : d.dnd.active = true)
    (taken : d.dropTaken = true) : d.dndDrop.Coherent := by
  obtain ⟨dnd, sources, -⟩ := dndDrop_taken active taken
  refine .of_idle dnd ?_
  rw [sources]
  rcases coherent.dropped active taken with ⟨offers, -⟩ | ⟨r, o, held, -, -, offers⟩
  · rw [offers]
    exact coherent.live
  · rw [offers]
    refine coherent.live_update fun o' other kept forwards => ?_
    obtain rfl := Option.some.inj kept
    exact coherent.live r o other held forwards

theorem Coherent.moves_delivered (coherent : d.Coherent) (active : d.dnd.active = true)
    (taken : d.dropTaken = true) (on : d.dnd.source = some s) :
    (d.view s).Moves true (d.dndDrop.view s) := by
  obtain ⟨dnd, sources, -, told⟩ := dndDrop_taken active taken
  have stopped : ¬d.dndDrop.Dragging s := by simp [Dragging, dnd, Dnd.idle]
  have dragging : (d.view s).dragging = true := by simp [view, Dragging, active, on]
  have knows : d.knowsActions d.dnd.source = (d.view s).knows := by
    simp [knowsActions, on, view, SourceView.knows, Option.any_map]
  rcases coherent.dropped active taken with ⟨-, none⟩ | ⟨r, o, held, source, unfinished, offers⟩
  · -- A drag with a source needs an offer.
    simp [dropTaken, on, none] at taken
  · have opened : d.dndDrop.opens s = Function.update (d.opens s) r true := by
      funext r'
      by_cases same : r' = r
      · simp [opens, offers, same, source, on, unfinished]
      · simp [opens, offers, same]
    have seen : d.dndDrop.view s =
        { d.view s with
          dragging := false
          outcomes := (d.view s).outcomes ++ (if (d.view s).knows then [.dropPerformed] else [])
          opened := Function.update (d.view s).opened r true } := by
      refine SourceView.ext ?_ ?_ ?_ opened
      · simp only [view, stopped, decide_false]
      · simp only [view, sources]
      · rw [← knows]
        simp [view, told, on, DndEvent.outcome]
    rw [seen]
    exact .delivered r dragging

theorem Coherent.view_dndDrop (coherent : d.Coherent) (active : d.dnd.active = true)
    (taken : d.dropTaken = true) (apart : d.dnd.source ≠ some s) :
    d.dndDrop.view s = d.view s := by
  obtain ⟨dnd, sources, -, told⟩ := dndDrop_taken active taken
  have stopped : ¬d.dndDrop.Dragging s := by simp [Dragging, dnd, Dnd.idle]
  have off : ¬d.Dragging s := fun dragging => apart dragging.2
  have untold :
      (d.dnd.source.bind fun other => (DndEvent.dropPerformed other).outcome s) = none :=
    outcome_aside apart fun _ => rfl
  refine view_eq (iff_of_false stopped off) (by rw [sources]) (by simp [told, untold]) fun r' => ?_
  rcases coherent.dropped active taken with ⟨offers, -⟩ | ⟨r, o, held, source, -, offers⟩
  · rw [opens, opens, offers]
  · by_cases same : r' = r
    · simp [opens, offers, same, held, source, apart]
    · simp [opens, offers, same]

theorem Coherent.acts_drop (coherent : d.Coherent) (active : d.dnd.active = true) :
    Acts s (decide (d.dnd.source = some s ∧ d.dropTaken = true)) d d.dndDrop := by
  by_cases taken : d.dropTaken = true
  · refine ⟨?_, coherent.dndDrop active taken, fun _ => .inl (dndDrop_taken active taken).1⟩
    by_cases on : d.dnd.source = some s
    · rw [decide_eq_true ⟨on, taken⟩]
      exact coherent.moves_delivered active taken on
    · -- The data of another source is dropped, or there is none.
      rw [coherent.view_dndDrop active taken on, decide_eq_false fun delivers => on delivers.1]
      exact .quiet
  · -- The source is told that it was in vain.
    rw [decide_eq_false fun delivers => taken delivers.2]
    unfold DndServer.dndDrop
    rw [if_neg taken]
    refine coherent.cancels active ?_ (by simp) (by simp) ?_
    · exact dndEnd_dnd _ (by simpa using active)
    · rw [dndEnd_outcomes, tellFocus_outcomes _ fun _ => rfl, tellSource_outcomes]

theorem Coherent.acts_buttonUp (coherent : d.Coherent) (code : Nat) :
    Acts s (decide (d.Dragging s ∧ d.dropTaken = true ∧ code = d.dnd.button)) d
      (d.buttonUp code) := by
  unfold buttonUp
  split
  next released =>
    have same : (d.Dragging s ∧ d.dropTaken = true ∧ code = d.dnd.button) ↔
        d.dnd.source = some s ∧ d.dropTaken = true := by
      simp [Dragging, released.1, released.2]
    rw [decide_eq_decide.mpr same]
    exact coherent.acts_drop released.1
  next other =>
    -- The drag goes on, or there is none.
    have kept : ¬(d.Dragging s ∧ d.dropTaken = true ∧ code = d.dnd.button) :=
      fun delivers => other ⟨delivers.1.1, delivers.2.2⟩
    rw [decide_eq_false kept]
    exact coherent.nothing.acts

theorem buttonUp_others (held : List Nat)
    (others : ∀ code ∈ held, ¬(d.dnd.active = true ∧ code = d.dnd.button)) :
    held.foldl buttonUp d = d := by
  induction held with
  | nil => rfl
  | cons code rest ih =>
    have first : d.buttonUp code = d := if_neg (others code List.mem_cons_self)
    rw [List.foldl_cons, first]
    exact ih fun code member => others code (List.mem_cons_of_mem _ member)

theorem dndCancelActive_dnd (active : d.dnd.active = true) : d.dndCancelActive.dnd = .idle := by
  unfold dndCancelActive
  rw [if_pos active]
  exact dndEnd_dnd _ (by simpa using active)

theorem inputClientDropped_eq (held : List Nat) :
    d.inputClientDropped held =
      if d.dnd.active = true ∧ d.dnd.button ∈ held then d.dndCancelActive else d := by
  have cancels : ∀ d : DndServer,
      held.foldl (fun d code =>
        if d.dnd.active = true ∧ code = d.dnd.button then d.dndCancelActive else d) d =
      if d.dnd.active = true ∧ d.dnd.button ∈ held then d.dndCancelActive else d := by
    induction held with
    | nil => simp
    | cons code rest ih =>
      -- The induction follows the loop, which stops as soon as the drag is over.
      intro d
      rw [List.foldl_cons, ih]
      by_cases carries : d.dnd.active = true ∧ code = d.dnd.button
      · -- The drag is over, and nothing is left to be cancelled.
        have stopped : ¬d.dndCancelActive.dnd.active = true := by
          rw [dndCancelActive_dnd carries.1]
          exact Bool.false_ne_true
        rw [if_pos carries, if_neg fun again => stopped again.1, if_pos]
        exact ⟨carries.1, carries.2 ▸ List.mem_cons_self⟩
      · rw [if_neg carries]
        have apart : d.dnd.active = true → d.dnd.button ≠ code :=
          fun active same => carries ⟨active, same.symm⟩
        by_cases active : d.dnd.active = true
        · simp [active, apart active]
        · simp [active]
  unfold inputClientDropped
  simp only
  rw [cancels]
  apply buttonUp_others
  intro code member carries
  split at carries
  next cancelled =>
    rw [dndCancelActive_dnd cancelled.1] at carries
    cases carries.1
  next kept => exact kept ⟨carries.1, carries.2 ▸ member⟩

theorem Coherent.acts_inputGone (coherent : d.Coherent) (held : List Nat) :
    Acts s false d (d.inputClientDropped held) := by
  rw [inputClientDropped_eq]
  split
  · exact coherent.acts_cancelActive
  · exact coherent.nothing.acts

theorem sourceDestroy_spec (coherent : d.Coherent) (gone : Nat) :
    (d.sourceDestroy gone).dnd = (if d.dnd.source = some gone then .idle else d.dnd) ∧
      (d.sourceDestroy gone).sources = Function.update d.sources gone none ∧
      (∀ r, (d.sourceDestroy gone).offers r = (d.offers r).map fun o =>
        { o with source := o.source.filter (· ≠ gone) }) ∧
      ∀ s, (d.sourceDestroy gone).outcomes s = d.outcomes s := by
  unfold sourceDestroy
  simp only
  split
  next drags =>
    -- Only a drag that is going on has a source.
    have active : d.dnd.active = true := by
      by_contra stopped
      rw [coherent.cleared (by simpa using stopped)] at drags
      cases drags
    have told (s : Nat) : d.dndSourceDestroyed.outcomes s = d.outcomes s := by
      simp [dndSourceDestroyed]
    refine ⟨?_, ?_, ?_, told⟩
    · exact dndEnd_dnd _ (by simpa using active)
    · simp [dndSourceDestroyed]
    · simp [dndSourceDestroyed]
  next => exact ⟨rfl, rfl, fun _ => rfl, fun _ => rfl⟩

theorem forwards_iff (o : DndOffer) (gone other : Nat) :
    o.source.filter (· ≠ gone) = some other ↔ o.source = some other ∧ other ≠ gone := by
  simp [Option.filter_eq_some_iff]

theorem sourceDestroy_source (coherent : d.Coherent) (gone other : Nat) :
    (d.sourceDestroy gone).dnd.source = some other ↔
      d.dnd.source = some other ∧ other ≠ gone := by
  rw [(sourceDestroy_spec coherent gone).1]
  split
  next mine =>
    simp only [mine, Dnd.idle, Option.some.injEq, false_iff, not_and, not_not, reduceCtorEq]
    exact Eq.symm
  next apart => exact ⟨fun held => ⟨held, fun same => apart (same ▸ held)⟩, And.left⟩

theorem sourceDestroy_opens (coherent : d.Coherent) (gone s r : Nat) :
    (d.sourceDestroy gone).opens s r = (d.opens s r && s ≠ gone) := by
  obtain ⟨-, -, offers, -⟩ := sourceDestroy_spec coherent gone
  simp only [opens, offers]
  cases d.offers r with
  | none => rfl
  | some o =>
    simp only [Option.map_some, Option.any_some, forwards_iff, Bool.decide_and]
    ac_rfl

theorem Coherent.sourceDestroy (coherent : d.Coherent) (gone : Nat) :
    (d.sourceDestroy gone).Coherent := by
  obtain ⟨dnd, sources, offers, -⟩ := sourceDestroy_spec coherent gone
  constructor
  case cleared =>
    intro stopped
    rw [dnd] at stopped ⊢
    split
    next => rfl
    next apart => exact coherent.cleared (by simpa [apart] using stopped)
  case current =>
    intro r current
    rw [dnd] at current ⊢
    split at current
    next => cases current
    next apart =>
      rw [if_neg apart]
      obtain ⟨o, held, source, rest⟩ := coherent.current r current
      refine ⟨{ o with source := o.source.filter (· ≠ gone) }, by rw [offers, held]; rfl, ?_, rest⟩
      cases drag : d.dnd.source with
      | none => simp [source, drag]
      | some other =>
        exact (forwards_iff o gone other).mpr ⟨source.trans drag, fun same => apart (same ▸ drag)⟩
  case source =>
    intro other drags
    obtain ⟨held, apart⟩ := (sourceDestroy_source coherent gone other).mp drags
    rw [sources, Function.update_of_ne apart]
    exact coherent.source other held
  case live =>
    intro r o' other held forwards
    rw [offers] at held
    obtain ⟨o, before, rfl⟩ := Option.map_eq_some_iff.mp held
    obtain ⟨source, apart⟩ := (forwards_iff o gone other).mp forwards
    rw [sources, Function.update_of_ne apart]
    exact coherent.live r o other before source

theorem Coherent.acts_sourceGone (coherent : d.Coherent) (gone : Nat) :
    Acts s false d (d.sourceDestroy gone) := by
  obtain ⟨dnd, sources, -, told⟩ := sourceDestroy_spec coherent gone
  have drags := sourceDestroy_source coherent gone
  have opened := sourceDestroy_opens coherent gone s
  refine ⟨?_, coherent.sourceDestroy gone, fun on => ?_⟩
  · by_cases mine : s = gone
    · have seen : (d.sourceDestroy gone).view s =
          { d.view s with dragging := false, version := none, opened := fun _ => false } := by
        refine SourceView.ext ?_ ?_ (told s) (funext fun r => ?_)
        · simp [view, Dragging, drags, mine]
        · simp [view, sources, mine]
        · exact (opened r).trans (by simp [mine])
      rw [seen]
      exact .gone
    · -- The source of another drag is gone, or of an offer.
      have seen : (d.sourceDestroy gone).view s = d.view s := by
        refine view_eq ?_ ?_ (told s) fun r => ?_
        · simp only [Dragging, drags, mine, not_false_eq_true, and_true, ne_eq]
          refine and_congr_left fun on => ?_
          have apart : d.dnd.source ≠ some gone := fun same =>
            mine (Option.some.inj (on.symm.trans same))
          rw [dnd, if_neg apart]
        · rw [sources, Function.update_of_ne mine]
        · exact (opened r).trans (by simp [mine])
      rw [seen]
      exact .quiet
  · rw [dnd]
    split
    · exact .inl rfl
    · exact .inr ⟨on, rfl⟩

end Acting

/-- The data of a source is dropped at a destination that takes it. -/
def delivers (s : Nat) (d : DndServer) : DndStep → Bool
  | .buttonUp code => decide (d.Dragging s ∧ d.dropTaken = true ∧ code = d.dnd.button)
  | _ => false

section Ending

variable {d : DndServer} {s : Nat}

theorem Coherent.acts_next (coherent : d.Coherent) {step : DndStep} (allowed : Allowed s d step) :
    Acts s (delivers s d step) d (d.next step) := by
  -- The cases are the steps, each with the handler that it calls.
  cases step with
  | startDrag client source origin icon held iconFree hit memory =>
    exact (coherent.still_startDrag client origin icon held iconFree hit allowed.1.1 allowed.1.2
      allowed.2).acts
  | motion hit memory =>
    unfold next
    simp only
    split
    next active => exact (coherent.still_updateMotion active hit allowed).acts
    next => exact coherent.nothing.acts
  | buttonUp code => exact coherent.acts_buttonUp code
  | inputGone held => exact coherent.acts_inputGone held
  | lock => exact coherent.acts_cancelActive
  | unmap gone => exact coherent.acts_unmap gone
  | newSource source version =>
    exact (coherent.still_setSource source (fun _ => rfl) fun same => absurd same allowed.1).acts
  | offerMime source mime memory => exact (coherent.still_offerMime source mime memory).acts
  | setActions source actions => exact (coherent.still_sourceActions source actions).acts
  | sourceGone source => exact coherent.acts_sourceGone source
  | accept r mime => exact (coherent.still_accept r mime).acts
  | receive r mime => exact (coherent.still_receive r mime).acts
  | chooseActions r actions preferred =>
    exact (coherent.still_setActions r actions preferred).acts
  | finish r => exact coherent.acts_finish r
  | offerGone r => exact coherent.acts_offerGone r
  | clients devices client =>
    have still : Still s d { d with devices, client } := coherent.still (.inl rfl) rfl rfl rfl
    exact still.acts

theorem Fresh.outcomes (fresh : d.Fresh s) : d.outcomes s = [] := by
  rw [DndServer.outcomes, List.filterMap_eq_nil_iff]
  intro event sent
  obtain ⟨uncancelled, undropped, unfinished⟩ := fresh.untold event sent
  -- Only three kinds of events are about the end.
  cases event with
  | cancelled source => exact if_neg fun same => uncancelled (congrArg _ same)
  | dropPerformed source => exact if_neg fun same => undropped (congrArg _ same)
  | finished source => exact if_neg fun same => unfinished (congrArg _ same)
  | _ => rfl

theorem Fresh.opens (fresh : d.Fresh s) (r : Nat) : d.opens s r = false := by
  unfold DndServer.opens
  cases held : d.offers r with
  | none => rfl
  | some o => simp [fresh.unoffered r o held]

theorem drag_begins (begun : (drag s).start d) : d.Coherent ∧ (d.view s).Once := by
  obtain ⟨before, idle, fresh, client, origin, icon, button, hit, memory, unused, rfl⟩ := begun
  have coherent : before.Coherent := .of_idle idle fresh.offered
  have alive : ∀ other, some s = some other → (before.sources other).isSome = true := by
    rintro _ ⟨⟩
    exact fresh.alive
  have begun : (before.setDnd
      { active := true, source := some s, origin := some origin, originClient := some client, icon,
        button }).Coherent := coherent.begins rfl rfl alive
  have still := begun.still_updateMotion (s := s) rfl hit unused
  rw [dataDeviceStartDrag, if_neg (by simp [idle, Dnd.idle])]
  refine ⟨still.coherent, ?_⟩
  rw [still.view]
  refine ⟨fun _ => ⟨?_, fresh.outcomes, fresh.opens⟩, ?_, ?_⟩
  · simpa [view] using fresh.alive
  · simp [view, Dragging]
  · simp [view, Dragging]

theorem drag_once {trace : List DndStep} (run : (drag s).Run trace d) :
    d.Coherent ∧ (d.view s).Once := by
  refine run.invariant (fun _ d => d.Coherent ∧ (d.view s).Once) (fun _ => drag_begins) ?_
  intro trace d step ⟨coherent, once⟩ allowed
  have acts := coherent.acts_next allowed
  exact ⟨acts.coherent, once.moves acts.moves⟩

/-- A drag that ends once for its source. -/
structure EndsOnce (s : Nat) (d : DndServer) : Prop where
  -- Nothing is left of a drag that is over.
  cleared : d.dnd.active = false → d.dnd = .idle
  -- While it goes on, the source is told of no end.
  during : d.Dragging s → d.outcomes s = []
  -- A source that knows of drops is then told of one end: the drag is cancelled, or the data is
  -- dropped, and what becomes of it is told once at most.
  after : ∀ source, ¬d.Dragging s → d.sources s = some source →
    dndActionsSince ≤ source.version → SourceView.Ended (d.outcomes s)
  -- The step that ends the drag clears it, and cancels it unless the data is delivered.
  ends : ∀ step, Allowed s d step → d.Dragging s → ¬(d.next step).Dragging s →
    (d.next step).dnd = .idle ∧
      (((d.next step).sources s).isSome = true →
        ((d.next step).outcomes s = [.cancelled] ↔ delivers s d step = false))
  -- An older source is told of nothing but that.
  old : ∀ source, ¬d.Dragging s → d.sources s = some source → source.version < dndActionsSince →
    (d.outcomes s = [] ∨ d.outcomes s = [.cancelled]) ∧
      ∀ step, Allowed s d step → (d.next step).outcomes s = d.outcomes s

/-- Whatever happens, and in whatever order, a drag ends once for its source. -/
theorem drag_ends_once {s : Nat} {trace : List DndStep} {d : DndServer}
    (run : (drag s).Run trace d) : EndsOnce s d := by
  obtain ⟨coherent, once⟩ := drag_once run
  have seen (off : ¬d.Dragging s) : (d.view s).dragging = false := by simpa [view] using off
  constructor
  case cleared => exact coherent.cleared
  case during => exact fun on => (once.during (by simpa [view] using on)).2.1
  case after =>
    intro source stopped alive knows
    have drops : (d.view s).knows = true := by simpa [view, SourceView.knows, alive] using knows
    rcases once.after (seen stopped) drops with ⟨-, ended⟩ | ⟨r, -, told⟩
    · exact ended
    · -- The data has been dropped, and nothing has become of it yet.
      exact .inr (.inl told)
  case ends =>
    intro step allowed on stopped
    have acts := coherent.acts_next allowed
    constructor
    · rcases acts.drag on.1 with idle | ⟨active, same⟩
      · exact idle
      · exact absurd ⟨active, same.trans on.2⟩ stopped
    · intro alive
      exact once.told acts.moves (by simpa [view] using on) (by simpa [view] using stopped)
        (by simpa [view] using alive)
  case old =>
    intro source stopped alive old
    have unknown : (d.view s).knows = false := by simpa [view, SourceView.knows, alive] using old
    constructor
    · exact once.old (seen stopped) (by simp [view, alive]) unknown
    · intro step allowed
      exact (coherent.acts_next allowed).moves.old (seen stopped) unknown

end Ending

def dragBefore (version : Nat) : DndServer :=
  { sources := Function.update (fun _ => none) 0 (some { version })
    devices := [{ client := 1, version := 3 }]
    client := fun _ => 1 }

def dragDropped (version : Nat) : DndServer :=
  ((((dragBefore version).dataDeviceStartDrag 1 (some 0) 5 none (some 272) true (some 6) (some 0)
    ).next (.accept 0 (some "text/plain"))).next (.chooseActions 0 1 1)).next (.buttonUp 272)

theorem drag_next {s : Nat} {trace : List DndStep} {d : DndServer} (run : (drag s).Run trace d)
    (step : DndStep) (allowed : Allowed s d step) : (drag s).Run (step :: trace) (d.next step) :=
  run.step step allowed

theorem dragDropped_run (version : Nat) :
    (drag 0).Run [.buttonUp 272, .chooseActions 0 1 1, .accept 0 (some "text/plain")]
      (dragDropped version) := by
  have fresh : (dragBefore version).Fresh 0 := by
    constructor
    case alive => rfl
    case offered => exact nofun
    case unoffered => exact nofun
    case untold => exact nofun
  have begun : (drag 0).start ((dragBefore version).dataDeviceStartDrag 1 (some 0) 5 none
      (some 272) true (some 6) (some 0)) :=
    ⟨dragBefore version, rfl, fresh, 1, 5, none, 272, some 6, some 0, fun _ _ => rfl, rfl⟩
  have accepted := drag_next (.start begun) (.accept 0 (some "text/plain")) trivial
  have chosen := drag_next accepted (.chooseActions 0 1 1) trivial
  exact drag_next chosen (.buttonUp 272) trivial

theorem drag_ends_once_dropped :
    EndsOnce 0 (dragDropped 3) ∧ (dragDropped 3).outcomes 0 = [.dropPerformed] :=
  ⟨drag_ends_once (dragDropped_run 3), by decide⟩

/-- A source that does not know of drops is told nothing when its data is dropped. -/
theorem old_drop_untold :
    ¬∀ (s : Nat) (trace : List DndStep) (d : DndServer), (drag s).Run trace d →
      ¬d.Dragging s → (d.sources s).isSome = true → SourceView.Ended (d.outcomes s) := by
  intro claim
  have ended := claim 0 _ _ (dragDropped_run 2) (by decide) (by decide)
  have told : (dragDropped 2).outcomes 0 = [] := by decide
  rw [told] at ended
  rcases ended with ended | ended | ended | ended <;> cases ended

end DndServer

end Xios
