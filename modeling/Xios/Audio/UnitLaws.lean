import Xios.Audio.Unit

/-! No request to start the output is lost, and what it starts with is not old. -/

namespace Xios

namespace AudioUnit

variable {α : Type}

/-- Audio that arrived since the last stop or give-up has asked for the output. -/
def Requested (s : AudioUnit α) : Prop :=
  s.running = false → s.arrived = true → s.wanted = true

/-- Every frame has been received since the last stop was decided on. -/
def Fresh (s : AudioUnit α) : Prop :=
  ∀ client ∈ s.clients, ∀ frame ∈ client.ring.contents, frame.stops = s.stops

/-- No ring holds more than some number of frames. -/
def Within (s : AudioUnit α) (most : Nat) : Prop :=
  ∀ client ∈ s.clients, client.ring.count ≤ most

/-- Whenever the output begins to run, rings hold few frames, and none from before the stop. -/
def StartsFresh (s : AudioUnit α) : Prop :=
  ∀ event, s.Allowed event → s.running = false → (s.next event).running = true →
    (s.next event).Within startBacklogFrames ∧ (s.next event).Fresh

/-- Audio that arrives during a stop finds, or outlives, nothing from before it. -/
def Drained (s : AudioUnit α) : Event α → Prop
  | .stopped => ∀ last, s.phase = .stopping last → s.lastDataNs ≠ last → s.Fresh
  | _ => True

/-- What a whole history of the output maintains. -/
structure Orderly (s : AudioUnit α) : Prop where
  -- Audio has asked for the output.
  requested : s.Requested
  -- The flags agree with what the thread is doing.
  stopping : ∀ last, s.phase = .stopping last → s.running = true
  starting : s.phase = .starting → s.running = false ∧ s.wanted = true
  -- Audio that arrives during a stop changes the time of the last audio.
  noticed : ∀ last, s.phase = .stopping last →
    last < s.clock ∧ (s.arrived = true → s.lastDataNs ≠ last)
  past : s.lastDataNs ≤ s.clock
  -- Except during a stop, nothing in the rings is old.
  fresh : (∀ last, s.phase ≠ .stopping last) → s.Fresh

theorem orderly_empty : Orderly ({} : AudioUnit α) where
  requested _ arrived := by cases arrived
  stopping last here := by cases here
  starting here := by cases here
  noticed last here := by cases here
  past := Nat.le_refl _
  fresh _ client member := by cases member

variable {s : AudioUnit α}

theorem Fresh.mapRings (fresh : s.Fresh)
    {change : CircularBuffer (AudioFrame α) ringFrames → CircularBuffer (AudioFrame α) ringFrames}
    (keeps : ∀ (ring : CircularBuffer (AudioFrame α) ringFrames) (holds : AudioFrame α → Prop),
      (∀ frame ∈ ring.contents, holds frame) → ∀ frame ∈ (change ring).contents, holds frame) :
    (s.mapRings change).Fresh := by
  intro client member
  obtain ⟨before, there, rfl⟩ := List.mem_map.mp member
  exact keeps before.ring _ (fresh before there)

theorem Fresh.ringsTrimLocked (fresh : s.Fresh) (most : Nat) : (s.ringsTrimLocked most).Fresh :=
  fresh.mapRings fun _ _ before => CircularBuffer.forall_trim before most

theorem Fresh.renderCb (fresh : s.Fresh) (frames : Nat) : (s.renderCb frames).Fresh := by
  refine fresh.mapRings fun ring holds before => ?_
  -- The induction is on the number of frames that are rendered.
  induction frames generalizing ring with
  | zero => exact before
  | succ frames ih => exact ih ring.pop.2 (CircularBuffer.forall_pop before)

theorem within_ringsTrimLocked (s : AudioUnit α) (most : Nat) :
    (s.ringsTrimLocked most).Within most := by
  intro client member
  obtain ⟨before, -, rfl⟩ := List.mem_map.mp member
  exact (before.ring.count_trim most).le.trans (Nat.min_le_left most _)

theorem fresh_ringsTrimLocked_zero (s : AudioUnit α) : (s.ringsTrimLocked 0).Fresh := by
  intro client member frame waiting
  have none := s.within_ringsTrimLocked 0 client member
  have nothing : client.ring.contents = [] := by
    rw [← List.length_eq_zero_iff, CircularBuffer.length_contents]
    omega
  rw [nothing] at waiting
  cases waiting

theorem fresh_pushAll {stops : Nat} {ring : CircularBuffer (AudioFrame α) ringFrames}
    (fresh : ∀ frame ∈ ring.contents, frame.stops = stops) (frames : List (α × α)) :
    ∀ frame ∈ (frames.foldl (fun ring frame => ring.push ⟨frame.1, frame.2, stops⟩)
      ring).contents, frame.stops = stops := by
  -- The induction is on the frames that are still to be pushed.
  induction frames generalizing ring with
  | nil => exact fresh
  | cons frame rest ih => exact ih (CircularBuffer.forall_push fresh rfl)

theorem Fresh.ingest (fresh : s.Fresh) (fd : Nat) (frames : List (α × α)) :
    (s.ingest fd frames).Fresh := by
  intro client member
  obtain ⟨before, there, rfl⟩ := List.mem_map.mp member
  split
  · exact fresh_pushAll (fresh before there) frames
  · exact fresh before there

theorem Fresh.of_eq {s' : AudioUnit α} (fresh : s.Fresh) (clients : s'.clients = s.clients)
    (stops : s'.stops = s.stops) : s'.Fresh := by
  intro client member frame waiting
  rw [clients] at member
  rw [stops]
  exact fresh client member frame waiting

theorem Orderly.clients (orderly : s.Orderly) {clients : List (AudioClient α)}
    (fresh : s.Fresh → Fresh { s with clients := clients }) : Orderly { s with clients := clients } where
  requested := orderly.requested
  stopping := orderly.stopping
  starting := orderly.starting
  noticed := orderly.noticed
  past := orderly.past
  fresh calm := fresh (orderly.fresh calm)

variable {now : Nat}

/-- Audio that arrives asks for the output. -/
theorem Orderly.ingestPayload (orderly : s.Orderly) (client : AudioClient α) (size : Nat)
    (frames : List (α × α)) (current : s.clock ≤ now) :
    (s.ingestPayload client size frames now).Orderly := by
  unfold AudioUnit.ingestPayload
  split
  · exact orderly
  · -- Only during a stop is the time of the last audio compared with an older one.
    have later : ∀ last, s.phase = .stopping last → last < now ∧ now ≠ last := by
      intro last here
      have earlier := (orderly.noticed last here).1
      omega
    simp only
    split
    · rename_i known
      rw [Bool.or_eq_true] at known
      exact {
        requested := fun stopped _ => known.resolve_left (ne_true_of_eq_false stopped)
        stopping := orderly.stopping
        starting := orderly.starting
        noticed := fun last here => ⟨(later last here).1, fun _ => (later last here).2⟩
        past := Nat.le_refl now
        fresh := fun calm => ((orderly.fresh calm).of_eq rfl rfl).ingest client.fd frames }
    · rename_i unknown
      rw [Bool.or_eq_true, not_or] at unknown
      have idle : ∀ last, s.phase ≠ .stopping last :=
        fun last here => unknown.1 (orderly.stopping last here)
      exact {
        requested := fun _ _ => rfl
        stopping := orderly.stopping
        starting := fun here => ⟨(orderly.starting here).1, rfl⟩
        noticed := fun last here => absurd here (idle last)
        past := Nat.le_refl now
        fresh := fun _ => by
          refine Fresh.ingest ?_ client.fd frames
          exact s.fresh_ringsTrimLocked_zero.of_eq rfl rfl }

/-- The thread stops a unit that is idle, and starts one that is asked for. -/
theorem Orderly.unitThread (orderly : s.Orderly) (deciding : s.phase = .deciding)
    (current : s.clock ≤ now) : (s.unitThread now).Orderly := by
  have idle : ∀ last, s.phase ≠ .stopping last := by simp [deciding]
  have past : s.lastDataNs ≤ now := orderly.past.trans current
  have waits : Orderly { s with clock := now } := {
    requested := orderly.requested
    stopping := orderly.stopping
    starting := orderly.starting
    noticed := fun last here => absurd here (idle last)
    past := past
    fresh := fun _ => orderly.fresh idle }
  unfold AudioUnit.unitThread
  simp only
  split
  · rename_i running
    split
    · exact waits
    · -- The stop is decided on well after the last audio.
      have long : 0 < idleStopNs := by decide
      have earlier : s.lastDataNs < now := by omega
      exact {
        requested := fun _ arrived => by cases arrived
        stopping := fun _ _ => running
        starting := fun here => by cases here
        noticed := fun last here => by
          cases here
          exact ⟨earlier, fun arrived => by cases arrived⟩
        past := past
        fresh := fun calm => absurd rfl (calm _) }
  · rename_i stopped
    split
    · exact waits
    · rename_i wanted
      split
      · exact {
          requested := fun _ arrived => by cases arrived
          stopping := fun last here => absurd here (idle last)
          starting := fun here => by cases deciding.symm.trans here
          noticed := fun last here => absurd here (idle last)
          past := past
          fresh := fun _ => orderly.fresh idle }
      · split
        · exact waits
        · have asked : s.wanted = true := by simpa using wanted
          exact {
            requested := fun _ _ => asked
            stopping := fun last here => by cases here
            starting := fun _ => ⟨by simpa using stopped, asked⟩
            noticed := fun last here => by cases here
            past := past
            fresh := fun _ => orderly.fresh idle }

theorem Orderly.outputStopped (orderly : s.Orderly) {last : Nat}
    (stopping : s.phase = .stopping last) (drained : s.lastDataNs ≠ last → s.Fresh) :
    (s.outputStopped last).Orderly := by
  unfold AudioUnit.outputStopped
  simp only
  split
  · rename_i new
    exact {
      requested := fun _ _ => rfl
      stopping := fun _ here => by cases here
      starting := fun here => by cases here
      noticed := fun _ here => by cases here
      past := orderly.past
      fresh := fun _ => drained new }
  · rename_i same
    have quiet : s.arrived ≠ true := fun arrived =>
      same ((orderly.noticed last stopping).2 arrived)
    exact {
      requested := fun _ arrived => absurd arrived quiet
      stopping := fun _ here => by cases here
      starting := fun here => by cases here
      noticed := fun _ here => by cases here
      past := orderly.past
      fresh := fun _ => by
        exact s.fresh_ringsTrimLocked_zero.of_eq rfl rfl }

theorem Orderly.outputStarted (orderly : s.Orderly) (starting : s.phase = .starting) (ok : Bool)
    (current : s.clock ≤ now) : (s.outputStarted ok now).Orderly := by
  have fresh : s.Fresh := orderly.fresh (by simp [starting])
  have past : s.lastDataNs ≤ now := orderly.past.trans current
  unfold AudioUnit.outputStarted
  simp only
  split
  · exact {
      requested := fun stopped => by cases stopped
      stopping := fun _ here => by cases here
      starting := fun here => by cases here
      noticed := fun _ here => by cases here
      past := past
      fresh := fun _ => (fresh.ringsTrimLocked startBacklogFrames).of_eq rfl rfl }
  · exact {
      requested := fun _ _ => (orderly.starting starting).2
      stopping := fun _ here => by cases here
      starting := fun here => by cases here
      noticed := fun _ here => by cases here
      past := past
      fresh := fun _ => fresh.of_eq rfl rfl }

/-- Each event keeps the order, if stops leave nothing old beside new audio. -/
theorem Orderly.next (orderly : s.Orderly) (event : Event α) (allowed : s.Allowed event)
    (drained : s.Drained event) : (s.next event).Orderly := by
  cases event with
  | connect fd channels format fill =>
    refine orderly.clients fun fresh client member => ?_
    cases List.mem_cons.mp member with
    | inl new =>
      rw [new]
      exact fun frame waiting => by cases waiting
    | inr before => exact fresh client before
  | disconnect fd =>
    refine orderly.clients fun fresh client member => ?_
    exact fresh client (List.mem_filter.mp member).1
  | data fd size frames now =>
    simp only [AudioUnit.next]
    split
    · exact orderly
    · exact orderly.ingestPayload _ size frames allowed
  | render frames => exact orderly.clients fun fresh => fresh.renderCb frames
  | wake now => exact orderly.unitThread allowed.1 allowed.2
  | stopped =>
    obtain ⟨last, stopping⟩ := allowed
    simp only [AudioUnit.next, stopping]
    exact orderly.outputStopped stopping (drained last stopping)
  | started ok now => exact orderly.outputStarted allowed.1 ok allowed.2

theorem running_ingestPayload (s : AudioUnit α) (client : AudioClient α) (size : Nat)
    (frames : List (α × α)) (now : Nat) :
    (s.ingestPayload client size frames now).running = s.running := by
  unfold AudioUnit.ingestPayload
  simp only
  split
  · rfl
  · split <;> rfl

theorem running_unitThread (s : AudioUnit α) (now : Nat) :
    (s.unitThread now).running = s.running := by
  unfold AudioUnit.unitThread
  simp only
  split
  · split <;> rfl
  · split
    · rfl
    · split
      · rfl
      · split <;> rfl

theorem Orderly.startsFresh (orderly : s.Orderly) : s.StartsFresh := by
  intro event allowed stopped running
  have changed : (s.next event).running ≠ s.running := by
    rw [stopped, running]
    decide
  cases event with
  | connect fd channels format fill => exact absurd rfl changed
  | disconnect fd => exact absurd rfl changed
  | data fd size frames now =>
    simp only [AudioUnit.next] at changed
    split at changed
    · exact absurd rfl changed
    · exact absurd (s.running_ingestPayload _ size frames now) changed
  | render frames => exact absurd rfl changed
  | wake now => exact absurd (s.running_unitThread now) changed
  | stopped =>
    obtain ⟨last, stopping⟩ := allowed
    rw [orderly.stopping last stopping] at stopped
    cases stopped
  | started ok now =>
    have fresh : s.Fresh := orderly.fresh (by simp [allowed.1])
    simp only [AudioUnit.next, AudioUnit.outputStarted] at running ⊢
    cases ok with
    | true =>
      exact ⟨within_ringsTrimLocked _ startBacklogFrames,
        (fresh.ringsTrimLocked startBacklogFrames).of_eq rfl rfl⟩
    | false =>
      simp only [Bool.false_eq_true, if_false, stopped] at running

/--
No request to start the output is lost, and the output starts without old audio.

In every history in which, at the end of a stop during which audio arrived, nothing from before the
stop is left in the rings, audio that arrived while the output does not run has asked for it, and
whenever it begins to run each ring holds a quarter of a second at most, all of it received since
the last stop was decided on.
-/
theorem starts_requested_and_fresh {trace : List (Event α)} {s : AudioUnit α}
    (run : ((machine α).restrict Drained).Run trace s) : s.Requested ∧ s.StartsFresh := by
  have orderly : s.Orderly := by
    refine run.invariant (fun _ s => s.Orderly) ?_ ?_
    · intro s begun
      have empty : s = {} := begun
      rw [empty]
      exact orderly_empty
    · intro _ s event orderly allowed
      exact orderly.next event allowed.1 allowed.2
  exact ⟨orderly.requested, orderly.startsFresh⟩

def slowStart : List (Event Nat) :=
  [.connect 3 1 .s16le ⟨0, 0, 0⟩, .data 3 2 [(1, 1)] 0, .wake 0, .started true 7000000000,
    .wake 7000000000, .data 3 2 [(2, 2)] 7500000000]

def playedOut : List (Event Nat) :=
  slowStart ++ [.render 1, .stopped, .wake 8000000000]

def waiting (s : AudioUnit α) : List (List (AudioFrame α)) :=
  s.clients.map fun client => client.ring.contents

theorem fresh_iff_waiting :
    s.Fresh ↔ ∀ frames ∈ s.waiting, ∀ frame ∈ frames, frame.stops = s.stops := by
  simp [Fresh, waiting]

theorem starts_requested_and_fresh_playedOut :
    (playedOut.foldl next {}).wanted = true ∧ (playedOut.foldl next {}).StartsFresh ∧
      ((playedOut.foldl next {}).next (.started true 8000000000)).waiting = [[⟨2, 2, 1⟩]] := by
  have run : ((machine Nat).restrict Drained).Run playedOut.reverse (playedOut.foldl next {}) := by
    refine .of_script (m := (machine Nat).restrict Drained) (s := {}) rfl playedOut
      ⟨⟨⟨by decide, by decide, ?_⟩, trivial⟩, ⟨Nat.le_refl _, trivial⟩,
        ⟨⟨rfl, Nat.le_refl _⟩, trivial⟩, ⟨⟨rfl, Nat.le_of_ble_eq_true rfl⟩, trivial⟩,
        ⟨⟨rfl, Nat.le_of_ble_eq_true rfl⟩, trivial⟩, ⟨Nat.le_of_ble_eq_true rfl, trivial⟩,
        ⟨trivial, trivial⟩, ⟨⟨0, rfl⟩, ?_⟩, ⟨⟨rfl, Nat.le_of_ble_eq_true rfl⟩, trivial⟩, trivial⟩
    · intro client member
      cases member
    · intro last stopping new
      rw [fresh_iff_waiting]
      decide
  have started := starts_requested_and_fresh run
  exact ⟨started.1 (by decide) (by decide), started.2, by decide⟩

def leftOver : List (Event Nat) :=
  slowStart ++ [.stopped, .wake 8000000000]

/-- The output starts with a frame from before the stop. -/
theorem not_starts_requested_and_fresh :
    ¬∀ (trace : List (Event Nat)) (s : AudioUnit Nat), (machine Nat).Run trace s →
      s.Requested ∧ s.StartsFresh := by
  intro fresh
  have run : (machine Nat).Run leftOver.reverse (leftOver.foldl next {}) := by
    refine .of_script (m := machine Nat) (s := {}) rfl leftOver
      ⟨⟨by decide, by decide, ?_⟩, Nat.le_refl _, ⟨rfl, Nat.le_refl _⟩,
        ⟨rfl, Nat.le_of_ble_eq_true rfl⟩, ⟨rfl, Nat.le_of_ble_eq_true rfl⟩,
        Nat.le_of_ble_eq_true rfl, ⟨0, rfl⟩, ⟨rfl, Nat.le_of_ble_eq_true rfl⟩, trivial⟩
    intro client member
    cases member
  have started := (fresh _ _ run).2 (.started true 8000000000)
    ⟨rfl, Nat.le_of_ble_eq_true rfl⟩ (by decide) (by decide)
  have old := fresh_iff_waiting.mp started.2
  exact absurd old (by decide)

end AudioUnit

end Xios
