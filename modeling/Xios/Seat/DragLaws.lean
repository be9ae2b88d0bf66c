import Xios.Seat.Drag

/-! What the source of a drag is told of its end. -/

namespace Xios

/-- How a drag ends for its source. -/
inductive DndOutcome where
  | cancelled
  | dropPerformed
  | finished
  deriving DecidableEq, Repr

/-- What an event says to a source about the end of its drag. -/
def DndEvent.outcome (s : Nat) : DndEvent → Option DndOutcome
  | .cancelled source => if source = s then some .cancelled else none
  | .dropPerformed source => if source = s then some .dropPerformed else none
  | .finished source => if source = s then some .finished else none
  | _ => none

/-- A drag as its source sees it. -/
@[ext]
structure SourceView where
  dragging : Bool
  -- The version of the source, unless it is gone.
  version : Option Nat
  -- What it has been told about the end, oldest first.
  outcomes : List DndOutcome
  -- Offers through which its data has been dropped, and which are not finished.
  opened : Nat → Bool

namespace SourceView

def knows (w : SourceView) : Bool :=
  w.version.any fun v => dndActionsSince ≤ v

/-- What can happen to the drag of a source, and whether its data is delivered by that. -/
inductive Moves (w : SourceView) : Bool → SourceView → Prop where
  | quiet : Moves w false w
  | cancelled (on : w.dragging = true) :
      Moves w false { w with dragging := false, outcomes := w.outcomes ++ [.cancelled] }
  | delivered (r : Nat) (on : w.dragging = true) :
      Moves w true
        { w with
          dragging := false
          outcomes := w.outcomes ++ (if w.knows then [.dropPerformed] else [])
          opened := Function.update w.opened r true }
  | gone :
      Moves w false { w with dragging := false, version := none, opened := fun _ => false }
  -- The destination says what has become of the data.
  | concluded (r : Nat) (here : w.opened r = true) (said : DndOutcome)
      (kind : said = .finished ∨ said = .cancelled) :
      Moves w false
        { w with
          outcomes := w.outcomes ++ (if w.knows then [said] else [])
          opened := Function.update w.opened r false }

/-- What a source that knows of drops has been told in the end. -/
def Ended (outcomes : List DndOutcome) : Prop :=
  outcomes = [.cancelled] ∨ outcomes = [.dropPerformed] ∨
    outcomes = [.dropPerformed, .finished] ∨ outcomes = [.dropPerformed, .cancelled]

/-- A source is told of one end, which may be followed by what becomes of its data. -/
structure Once (w : SourceView) : Prop where
  -- Nothing is told before the end.
  during : w.dragging = true → w.version.isSome = true ∧ w.outcomes = [] ∧ ∀ r, w.opened r = false
  -- An offer through which the data was dropped may still say what becomes of it.
  after : w.dragging = false → w.knows = true →
    (∀ r, w.opened r = false) ∧ Ended w.outcomes ∨
      ∃ r, (∀ r', w.opened r' = true ↔ r' = r) ∧ w.outcomes = [.dropPerformed]
  -- Older sources know of nothing but a cancellation.
  old : w.dragging = false → w.version.isSome = true → w.knows = false →
    w.outcomes = [] ∨ w.outcomes = [.cancelled]

variable {delivers : Bool} {w w' : SourceView}

theorem Once.moves (once : w.Once) (moves : Moves w delivers w') : w'.Once := by
  cases moves with
  | quiet => exact once
  | cancelled on =>
    obtain ⟨-, untold, closed⟩ := once.during on
    refine ⟨by simp, fun _ _ => .inl ⟨closed, ?_⟩, fun _ _ _ => .inr ?_⟩
    · exact .inl (by simp [untold])
    · simp [untold]
  | delivered r on =>
    obtain ⟨-, untold, closed⟩ := once.during on
    refine ⟨by simp, fun _ knows => .inr ⟨r, fun r' => ?_, ?_⟩, fun _ _ unknown => .inl ?_⟩
    · by_cases same : r' = r
      · simp [same]
      · simp [same, closed]
    · simp [untold, show w.knows = true from knows]
    · simp [untold, show w.knows = false from unknown]
  | gone => exact ⟨by simp, fun _ knows => by simp [SourceView.knows] at knows, by simp⟩
  | concluded r here said kind =>
    -- Nothing is open during the drag, so it is over.
    have stopped : w.dragging = false := by
      by_contra on
      have closed := (once.during (by simpa using on)).2.2 r
      simp [here] at closed
    refine ⟨fun on => ?_, fun _ (knows : w.knows = true) => .inl ?_,
      fun _ alive (unknown : w.knows = false) => ?_⟩
    · simp [stopped] at on
    · rcases once.after stopped knows with ⟨closed, -⟩ | ⟨r', only, told⟩
      · simp [closed r] at here
      · obtain rfl := (only r).mp here
        refine ⟨fun r' => ?_, ?_⟩
        · by_cases same : r' = r
          · simp [same]
          · simp [same, Bool.eq_false_iff, only]
        · rcases kind with rfl | rfl
          · exact .inr (.inr (.inl (by simp [told, knows])))
          · exact .inr (.inr (.inr (by simp [told, knows])))
    · simpa [unknown] using once.old stopped alive unknown

theorem Once.told (once : w.Once) (moves : Moves w delivers w') (on : w.dragging = true)
    (stopped : w'.dragging = false) (alive : w'.version.isSome = true) :
    w'.outcomes = [.cancelled] ↔ delivers = false := by
  obtain ⟨-, untold, closed⟩ := once.during on
  cases moves with
  | quiet => simp [on] at stopped
  | cancelled => simp [untold]
  | delivered r =>
    simp only [untold, List.nil_append, Bool.true_eq_false, iff_false]
    split <;> simp
  | gone => simp at alive
  | concluded r here => simp [closed r] at here

theorem Moves.old (moves : Moves w delivers w') (stopped : w.dragging = false)
    (old : w.knows = false) : w'.outcomes = w.outcomes := by
  cases moves with
  | quiet => rfl
  | cancelled on => simp [stopped] at on
  | delivered r on => simp [stopped] at on
  | gone => rfl
  | concluded r here said kind => simp [old]

end SourceView

namespace DndServer

/-- What a source has been told about the end of its drag. -/
def outcomes (d : DndServer) (s : Nat) : List DndOutcome :=
  d.sent.filterMap (DndEvent.outcome s)

/-- The data of a source was dropped through an offer that is not finished. -/
def opens (d : DndServer) (s r : Nat) : Bool :=
  (d.offers r).any fun o => o.source = some s && o.dropped && !o.finished

def view (d : DndServer) (s : Nat) : SourceView where
  dragging := d.Dragging s
  version := (d.sources s).map DndSource.version
  outcomes := d.outcomes s
  opened := d.opens s

/-- The drag and its offers belong together. -/
structure Coherent (d : DndServer) : Prop where
  -- Nothing is left of a drag that is over.
  cleared : d.dnd.active = false → d.dnd = .idle
  -- The offer of the drag is one of its source, and nothing has been dropped through it.
  current : ∀ r, d.dnd.offer = some r → ∃ o, d.offers r = some o ∧ o.source = d.dnd.source ∧
    o.dropped = false ∧ o.finished = false
  -- The drag and the offers forward to live sources.
  source : ∀ s, d.dnd.source = some s → (d.sources s).isSome = true
  live : ∀ r o s, d.offers r = some o → o.source = some s → (d.sources s).isSome = true

section Telling

@[simp] theorem setDnd_dnd (d : DndServer) (x : Dnd) : (d.setDnd x).dnd = x := rfl
@[simp] theorem setDnd_sources (d : DndServer) (x : Dnd) : (d.setDnd x).sources = d.sources := rfl
@[simp] theorem setDnd_offers (d : DndServer) (x : Dnd) : (d.setDnd x).offers = d.offers := rfl
@[simp] theorem setDnd_outcomes (d : DndServer) (x : Dnd) (s : Nat) :
    (d.setDnd x).outcomes s = d.outcomes s := rfl

@[simp] theorem tell_dnd (d : DndServer) (e : DndEvent) : (d.tell e).dnd = d.dnd := rfl
@[simp] theorem tell_sources (d : DndServer) (e : DndEvent) : (d.tell e).sources = d.sources := rfl
@[simp] theorem tell_offers (d : DndServer) (e : DndEvent) : (d.tell e).offers = d.offers := rfl

@[simp] theorem tell_outcomes (d : DndServer) (e : DndEvent) (s : Nat) :
    (d.tell e).outcomes s = d.outcomes s ++ (e.outcome s).toList := by
  simp only [outcomes, tell, List.filterMap_append]
  cases told : e.outcome s <;> simp [told]

variable (d : DndServer) (source : Option Nat) (event : Nat → DndEvent)

@[simp] theorem tellSource_dnd : (d.tellSource source event).dnd = d.dnd := by
  cases source <;> rfl

@[simp] theorem tellSource_sources : (d.tellSource source event).sources = d.sources := by
  cases source <;> rfl

@[simp] theorem tellSource_offers : (d.tellSource source event).offers = d.offers := by
  cases source <;> rfl

@[simp] theorem tellSource_outcomes (s : Nat) :
    (d.tellSource source event).outcomes s =
      d.outcomes s ++ (source.bind fun other => (event other).outcome s).toList := by
  cases source with
  | none => simp [tellSource]
  | some other => simp [tellSource]

@[simp] theorem tellFocus_dnd : (d.tellFocus event).dnd = d.dnd := by
  unfold tellFocus
  split <;> rfl

@[simp] theorem tellFocus_sources : (d.tellFocus event).sources = d.sources := by
  unfold tellFocus
  split <;> rfl

@[simp] theorem tellFocus_offers : (d.tellFocus event).offers = d.offers := by
  unfold tellFocus
  split <;> rfl

end Telling

/-- Nothing happens to the drag of a source, and the others stay coherent. -/
structure Still (s : Nat) (d d' : DndServer) : Prop where
  view : d'.view s = d.view s
  coherent : d'.Coherent
  -- A drag that is going on is the same one afterwards.
  drag : d.dnd.active = true → d'.dnd.active = true ∧ d'.dnd.source = d.dnd.source

theorem view_eq {d d' : DndServer} {s : Nat} (drag : d'.Dragging s ↔ d.Dragging s)
    (versions : (d'.sources s).map DndSource.version = (d.sources s).map DndSource.version)
    (told : d'.outcomes s = d.outcomes s) (opened : ∀ r, d'.opens s r = d.opens s r) :
    d'.view s = d.view s := by
  refine SourceView.ext ?_ versions told (funext opened)
  simp only [view, drag]

section Quiet

variable {d d' d'' : DndServer} {s : Nat}

/-- A step without an end of the drag, sources and offers being the same. -/
theorem Coherent.still (coherent : d.Coherent)
    (dnd : d'.dnd = d.dnd ∨ d.dnd.active = true ∧ d'.dnd.active = true ∧
      d'.dnd.source = d.dnd.source ∧ (d'.dnd.offer = d.dnd.offer ∨ d'.dnd.offer = none))
    (sources : d'.sources = d.sources) (offers : d'.offers = d.offers)
    (told : d'.outcomes s = d.outcomes s) : Still s d d' := by
  have source : d'.dnd.source = d.dnd.source := by
    rcases dnd with same | ⟨-, -, same, -⟩
    · rw [same]
    · exact same
  have active : d'.dnd.active = d.dnd.active := by
    rcases dnd with same | ⟨before, after, -⟩
    · rw [same]
    · rw [before, after]
  refine ⟨?_, ?_, fun on => ⟨active.trans on, source⟩⟩
  · apply view_eq _ _ told
    · intro r
      rw [opens, opens, offers]
    · rw [Dragging, Dragging, active, source]
    · rw [sources]
  · constructor
    case cleared =>
      intro stopped
      rcases dnd with same | ⟨-, after, -⟩
      · rw [same] at stopped ⊢
        exact coherent.cleared stopped
      · rw [after] at stopped
        cases stopped
    case current =>
      -- The drag has the offer that it had before, if it has one.
      intro r held
      have before : d.dnd.offer = some r := by
        rcases dnd with same | ⟨-, -, -, same | none⟩
        · exact same ▸ held
        · exact same ▸ held
        · rw [none] at held
          cases held
      rw [offers, source]
      exact coherent.current r before
    case source =>
      intro other drags
      rw [sources]
      exact coherent.source other (source ▸ drags)
    case live =>
      intro r o other held forwards
      rw [sources]
      exact coherent.live r o other (offers ▸ held) forwards

theorem Coherent.nothing (coherent : d.Coherent) : Still s d d :=
  ⟨rfl, coherent, fun on => ⟨on, rfl⟩⟩

theorem Still.trans (first : Still s d d') (second : Still s d' d'') : Still s d d'' := by
  refine ⟨second.view.trans first.view, second.coherent, fun on => ?_⟩
  obtain ⟨between, same⟩ := first.drag on
  obtain ⟨after, same'⟩ := second.drag between
  exact ⟨after, same'.trans same⟩

theorem Still.ite {p : Prop} [Decidable p] (yes : p → Still s d d') (no : ¬p → Still s d d'') :
    Still s d (if p then d' else d'') := by
  split
  next holds => exact yes holds
  next fails => exact no fails

theorem Coherent.still_tell (coherent : d.Coherent) (event : DndEvent)
    (aside : event.outcome s = none) : Still s d (d.tell event) :=
  coherent.still (.inl rfl) rfl rfl (by simp [aside])

theorem Coherent.still_tellSource (coherent : d.Coherent) (source : Option Nat)
    (event : Nat → DndEvent) (aside : ∀ other, (event other).outcome s = none) :
    Still s d (d.tellSource source event) :=
  coherent.still (.inl (by simp)) (by simp) (by simp) (by simp [aside])

theorem Coherent.still_accept (coherent : d.Coherent) (r : Nat) (mime : Option String) :
    Still s d (d.dndOfferAccept r mime) := by
  unfold dndOfferAccept
  cases d.offers r with
  | none => exact coherent.nothing
  | some o =>
    have first := coherent.still_tellSource (s := s) o.source (.target · mime) fun _ => rfl
    refine .ite (fun offering => first.trans ?_) fun _ => first
    exact first.coherent.still (.inr ⟨offering.1, offering.1, rfl, .inl rfl⟩) rfl rfl rfl

theorem Coherent.still_receive (coherent : d.Coherent) (r : Nat) (mime : String) :
    Still s d (d.dndOfferReceive r mime) := by
  unfold dndOfferReceive
  cases d.offers r with
  | none => exact coherent.nothing
  | some o => exact coherent.still_tellSource o.source (.send · mime) fun _ => rfl

theorem Coherent.still_setActions (coherent : d.Coherent) (r : Nat)
    (actions preferred : BitVec 32) : Still s d (d.dndOfferSetActions r actions preferred) := by
  unfold dndOfferSetActions
  cases d.offers r with
  | none => exact coherent.nothing
  | some o =>
    simp only
    generalize chooseAction _ preferred = chosen
    -- The drag, the destination and the source learn of the choice, one after the other.
    have first : Still s d
        (if d.Offering r then d.setDnd { d.dnd with action := chosen } else d) :=
      .ite (fun offering => coherent.still (.inr ⟨offering.1, offering.1, rfl, .inl rfl⟩) rfl rfl
        rfl) fun _ => coherent.nothing
    generalize (if d.Offering r then d.setDnd { d.dnd with action := chosen } else d) = d₁ at *
    have second : Still s d
        (if dndActionsSince ≤ o.version then d₁.tell (.offerAction r chosen) else d₁) :=
      .ite (fun _ => first.trans (first.coherent.still_tell (.offerAction r chosen) rfl))
        fun _ => first
    generalize (if dndActionsSince ≤ o.version then d₁.tell (.offerAction r chosen) else d₁) = d₂
      at *
    refine .ite (fun _ => second.trans ?_) fun _ => second
    exact second.coherent.still_tellSource o.source (.sourceAction · chosen) fun _ => rfl

end Quiet

section Leaving

variable (d : DndServer)

theorem tellFocus_outcomes {event : Nat → DndEvent} {s : Nat}
    (aside : ∀ client, (event client).outcome s = none) :
    (d.tellFocus event).outcomes s = d.outcomes s := by
  unfold tellFocus
  split
  · simp [aside]
  · rfl

theorem dndFocusLeave_eq :
    d.dndFocusLeave =
      (let told := d.tellFocus .leave
        if d.dnd.action ≠ 0 ∧ d.knowsActions d.dnd.source then
          told.tellSource d.dnd.source (.sourceAction · 0)
        else told).setDnd
      { d.dnd with focus := none, offer := none, targetAccepted := false, action := 0 } := by
  unfold dndFocusLeave tellFocus
  cases d.deviceOf d.dnd.focus with
  | none =>
    simp only
    split <;> simp
  | some device =>
    have knows : (d.tell (.leave device.client)).knowsActions = d.knowsActions := rfl
    simp only [tell_dnd, knows]
    split <;> simp

@[simp] theorem dndFocusLeave_dnd :
    d.dndFocusLeave.dnd =
      { d.dnd with focus := none, offer := none, targetAccepted := false, action := 0 } := by
  rw [dndFocusLeave_eq]
  rfl

@[simp] theorem dndFocusLeave_sources : d.dndFocusLeave.sources = d.sources := by
  rw [dndFocusLeave_eq]
  simp only [setDnd_sources]
  split <;> simp

@[simp] theorem dndFocusLeave_offers : d.dndFocusLeave.offers = d.offers := by
  rw [dndFocusLeave_eq]
  simp only [setDnd_offers]
  split <;> simp

@[simp] theorem dndFocusLeave_outcomes (s : Nat) : d.dndFocusLeave.outcomes s = d.outcomes s := by
  rw [dndFocusLeave_eq, setDnd_outcomes]
  have first : (d.tellFocus .leave).outcomes s = d.outcomes s := d.tellFocus_outcomes fun _ => rfl
  simp only
  split
  · simp [first, DndEvent.outcome]
  · exact first

@[simp] theorem dndEnd_sources : d.dndEnd.sources = d.sources := by
  unfold dndEnd
  split <;> rfl

@[simp] theorem dndEnd_offers : d.dndEnd.offers = d.offers := by
  unfold dndEnd
  split <;> rfl

@[simp] theorem dndEnd_outcomes (s : Nat) : d.dndEnd.outcomes s = d.outcomes s := by
  unfold dndEnd
  split <;> rfl

theorem dndEnd_dnd (active : d.dnd.active = true) : d.dndEnd.dnd = .idle := by
  rw [dndEnd, if_pos active]
  rfl

end Leaving

section Going

variable {d : DndServer} {s : Nat}

theorem Coherent.live_update (coherent : d.Coherent) {r : Nat} {left : Option DndOffer}
    (forwards : ∀ o other, left = some o → o.source = some other →
      (d.sources other).isSome = true) :
    ∀ r' o other, Function.update d.offers r left r' = some o → o.source = some other →
      (d.sources other).isSome = true := by
  intro r' o other held
  -- Any other offer is the one it was.
  by_cases same : r' = r
  · rw [same, Function.update_self] at held
    exact forwards o other held
  · rw [Function.update_of_ne same] at held
    exact coherent.live r' o other held

theorem newOffer_spec (d : DndServer) (device : DataDevice) (r : Nat) :
    (d.newOffer device r).dnd = d.dnd ∧ (d.newOffer device r).sources = d.sources ∧
      (d.newOffer device r).offers =
        Function.update d.offers r (some { source := d.dnd.source, version := device.version }) ∧
      ∀ s, (d.newOffer device r).outcomes s = d.outcomes s := by
  have typed (mimes : List String) : ∀ d : DndServer,
      let told := mimes.foldl (fun d mime => d.tell (.offerMime r mime)) d
      told.dnd = d.dnd ∧ told.sources = d.sources ∧ told.offers = d.offers ∧
        ∀ s, told.outcomes s = d.outcomes s := by
    -- The induction is on the types, each of which is told by one event.
    induction mimes with
    | nil => exact fun d => ⟨rfl, rfl, rfl, fun _ => rfl⟩
    | cons mime rest ih =>
      intro d
      obtain ⟨dnd, sources, offers, told⟩ := ih (d.tell (.offerMime r mime))
      exact ⟨dnd, sources, offers, fun s => (told s).trans (by simp [DndEvent.outcome])⟩
  unfold newOffer
  simp only
  generalize (((d.setOffer r (some { source := d.dnd.source, version := device.version })).tell
    (.dataOffer device.client r)).dnd.source.bind _).map DndSource.mimes = mimes
  obtain ⟨dnd, sources, offers, told⟩ := typed (mimes.getD [])
    ((d.setOffer r (some { source := d.dnd.source, version := device.version })).tell
      (.dataOffer device.client r))
  refine ⟨dnd, sources, offers, fun s => (told s).trans ?_⟩
  rw [tell_outcomes]
  exact List.append_nil _

theorem Coherent.still_newOffer (coherent : d.Coherent) (active : d.dnd.active = true)
    (device : DataDevice) {r : Nat} (unused : d.offers r = none) :
    Still s d ((d.newOffer device r).setDnd { d.dnd with offer := some r }) := by
  obtain ⟨-, sources, offers, told⟩ := newOffer_spec d device r
  refine ⟨?_, ?_, fun on => ⟨on, rfl⟩⟩
  · refine view_eq Iff.rfl (by rw [setDnd_sources, sources])
      ((setDnd_outcomes _ _ s).trans (told s)) fun r' => ?_
    by_cases same : r' = r
    · simp [opens, offers, same, unused]
    · simp [opens, offers, same]
  · constructor
    case cleared =>
      intro stopped
      simp [active] at stopped
    case current =>
      -- The new offer is the one of the drag, and nothing has been dropped through it.
      intro r' held
      obtain rfl : r = r' := Option.some.inj held
      exact ⟨_, by rw [setDnd_offers, offers, Function.update_self], rfl, rfl, rfl⟩
    case source =>
      intro other drags
      rw [setDnd_sources, sources]
      exact coherent.source other drags
    case live =>
      rw [setDnd_sources, setDnd_offers, sources, offers]
      refine coherent.live_update fun o other kept forwards => ?_
      obtain rfl := Option.some.inj kept
      exact coherent.source other forwards

theorem Coherent.still_focusEnter (coherent : d.Coherent) (active : d.dnd.active = true)
    (hit : Nat) {memory : Option Nat} (unused : d.Unused memory) :
    Still s d (d.dndFocusEnter hit memory) := by
  unfold dndFocusEnter
  simp only
  have first : Still s d (d.setDnd
      { d.dnd with focus := some hit, offer := none, targetAccepted := false, action := 0 }) :=
    coherent.still (.inr ⟨active, active, rfl, .inr rfl⟩) rfl rfl rfl
  have begun : (d.setDnd { d.dnd with
      focus := some hit, offer := none, targetAccepted := false, action := 0 }).dnd.active = true :=
    active
  have free : (d.setDnd { d.dnd with
      focus := some hit, offer := none, targetAccepted := false, action := 0 }).Unused memory :=
    unused
  generalize d.setDnd { d.dnd with
    focus := some hit, offer := none, targetAccepted := false, action := 0 } = d₁ at *
  split
  · exact first
  · exact first.trans (first.coherent.still_tell _ rfl)
  · exact first
  next device source r _ _ =>
    -- The offer is made, and the destination is told of it.
    have second := first.trans (first.coherent.still_newOffer (s := s) begun device (free r rfl))
    have same : (d₁.newOffer device r).dnd = d₁.dnd := (newOffer_spec d₁ device r).1
    rw [same]
    have third := second.trans
      (second.coherent.still_tell (.enter device.client hit (some r)) rfl)
    split
    · exact third.trans (third.coherent.still_tell _ rfl)
    · exact third

theorem Coherent.still_updateMotion (coherent : d.Coherent) (active : d.dnd.active = true)
    (hit : Option Nat) {memory : Option Nat} (unused : d.Unused memory) :
    Still s d (d.dndUpdateMotion hit memory) := by
  have left : Still s d d.dndFocusLeave :=
    coherent.still (.inr ⟨active, by simpa using active, by simp, .inr (by simp)⟩) (by simp)
      (by simp) (by simp)
  unfold dndUpdateMotion
  simp only
  split
  · -- The old destination is left before a new one is entered.
    split
    next target _ =>
      have free : d.dndFocusLeave.Unused memory := by
        intro r given
        rw [dndFocusLeave_offers]
        exact unused r given
      exact left.trans (left.coherent.still_focusEnter (by simpa using active) target free)
    · exact left
  · split
    · exact coherent.still_tell _ rfl
    · exact coherent.nothing

theorem Coherent.still_setSource (coherent : d.Coherent) (t : Nat) {source : Option DndSource}
    (alive : (d.sources t).isSome = true → source.isSome = true)
    (version : t = s → source.map DndSource.version = (d.sources s).map DndSource.version) :
    Still s d (d.setSource t source) := by
  have kept (other : Nat) (before : (d.sources other).isSome = true) :
      ((d.setSource t source).sources other).isSome = true := by
    by_cases same : other = t
    · simp [setSource, same, alive (same ▸ before)]
    · simpa [setSource, same] using before
  refine ⟨?_, ?_, fun on => ⟨on, rfl⟩⟩
  · refine view_eq Iff.rfl ?_ rfl fun _ => rfl
    by_cases same : s = t
    · simpa [setSource, same] using version same.symm
    · simp [setSource, same]
  · exact ⟨coherent.cleared, coherent.current, fun other drags => kept other
      (coherent.source other drags), fun r o other held forwards => kept other
      (coherent.live r o other held forwards)⟩

theorem Coherent.still_offerMime (coherent : d.Coherent) (t : Nat) (mime : String)
    (memory : Bool) : Still s d (d.dataSourceOffer t mime memory) := by
  refine coherent.still_setSource t (by simp) ?_
  rintro rfl
  rw [Option.map_map]
  rfl

theorem Coherent.still_sourceActions (coherent : d.Coherent) (t : Nat) (actions : BitVec 32) :
    Still s d (d.dataSourceSetActions t actions) := by
  refine coherent.still_setSource t (by simp) ?_
  rintro rfl
  rw [Option.map_map]
  rfl

theorem Coherent.begins (coherent : d.Coherent) {dnd : Dnd} (active : dnd.active = true)
    (unoffered : dnd.offer = none)
    (alive : ∀ other, dnd.source = some other → (d.sources other).isSome = true) :
    (d.setDnd dnd).Coherent := by
  refine ⟨fun stopped => ?_, fun r current => ?_, alive, coherent.live⟩
  · rw [setDnd_dnd, active] at stopped
    cases stopped
  · rw [setDnd_dnd, unoffered] at current
    cases current

theorem Coherent.still_startDrag (coherent : d.Coherent) (client : Nat) {source : Option Nat}
    (origin : Nat) (icon held : Option Nat) (iconFree : Bool) (hit : Option Nat)
    {memory : Option Nat} (apart : source ≠ some s)
    (alive : ∀ other, source = some other → (d.sources other).isSome = true)
    (unused : d.Unused memory) :
    Still s d (d.dataDeviceStartDrag client source origin icon held iconFree hit memory) := by
  unfold dataDeviceStartDrag
  cases held with
  | none => exact coherent.nothing
  | some button =>
    simp only
    split
    next => exact coherent.nothing
    next free =>
      have idle : ¬d.Dragging s := fun dragging => by simp [dragging.1] at free
      have first : Still s d (d.setDnd
          { active := true, source, origin := some origin, originClient := some client, icon,
            button }) := by
        refine ⟨view_eq (iff_of_false ?_ idle) rfl rfl fun _ => rfl,
          coherent.begins rfl rfl alive, fun on => ?_⟩
        · exact fun dragging => apart dragging.2
        · simp [on] at free
      exact first.trans (first.coherent.still_updateMotion rfl hit unused)

end Going

end DndServer

end Xios
