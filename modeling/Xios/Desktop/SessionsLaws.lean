import Xios.Desktop.Sessions

/-! Presets that failed are left alone for a while. -/

namespace Xios

namespace Ioscd

/-- The failures of a preset since it last succeeded, and the time of the last one. -/
def failures (preset : Text) : List SessionNote → Nat × Nat
  | [] => (0, 0)
  | .start _ _ _ :: rest => failures preset rest
  | .finish other outcome time :: rest =>
    if other = preset then
      match outcome with
      | .succeeded => (0, 0)
      | .busy => failures preset rest
      | .failed => ((failures preset rest).1 + 1, time)
    else failures preset rest

/-- How long a preset is to be left alone: two minutes, then ten, then thirty. -/
def cooldown : Nat → Nat
  | 0 => 0
  | 1 => 2 * 60 * 1000
  | 2 => 10 * 60 * 1000
  | _ => 30 * 60 * 1000

/-- A preset has been left alone long enough. -/
def Cooled (history : List SessionNote) (preset : Text) (time : Nat) : Prop :=
  (failures preset history).2 + cooldown (failures preset history).1 ≤ time

/-- Nobody but root has started a session whose preset was to be left alone. -/
def Respected : List SessionNote → Prop
  | [] => True
  | .start preset root time :: rest => (root = false → Cooled rest preset time) ∧ Respected rest
  | .finish _ _ _ :: rest => Respected rest

/--
The tables have room for what happens, and no child reports to be busy after a failure.

A session that replaces the desktop has a name that fits, and a slot is free for it; a preset that
fails has an entry or room for one, and its count of failures does not overflow.
-/
def Manageable (s : Ioscd) : Event → Prop
  | .request payload _ _ world =>
    (SessionRequest.parse payload).destructive = true →
      launchSessionRequest (SessionRequest.parse payload) world ≠ none →
      (SessionRequest.parse payload).preset.length ≤ presetNameMax ∧ ∃ i, s.children i = none
  | .reap pid status file _ =>
    ∀ child ∈ s.running, child.pid = pid →
      (outcome child.preset status file = .busy → (failures child.preset s.history).1 = 0) ∧
      (outcome child.preset status file = .failed →
        (failures child.preset s.history).1 < 2 ^ 31 - 1 ∧
          (s.health.length < maxPresetHealth ∨ s.presetHealth child.preset ≠ none))

/-- The entry of a preset agrees with its history. -/
def Records : Option PresetHealth → Nat × Nat → Prop
  | none, (count, _) => count = 0
  | some entry, (count, last) => entry.fails = count ∧ (0 < count → entry.lastFailMs = last)

/-- What a whole history of the daemon maintains. -/
structure Kept (s : Ioscd) : Prop where
  -- Exactly the running session children are tracked, in one slot each.
  tracked : ∀ child, child ∈ s.running ↔ ∃ i, s.children i = some child
  distinct : (s.running.map SessionChild.pid).Nodup
  alone : ∀ i j child, s.children i = some child → s.children j = some child → i = j
  -- Their names are kept whole.
  named : ∀ child ∈ s.running, child.preset ≠ [] ∧ child.preset.length ≤ presetNameMax
  -- Entries agree with the history, and nothing is later than the clock.
  records : ∀ preset, Records (s.presetHealth preset) (failures preset s.history)
  past : ∀ preset, (failures preset s.history).2 ≤ s.clock
  -- Cooldowns have been respected so far.
  respected : Respected s.history

theorem kept_empty : Kept {} := by
  refine ⟨?_, List.nodup_nil, ?_, ?_, fun _ => rfl, fun _ => Nat.le_refl _, trivial⟩
  · simp
  · intro i j child here
    cases here
  · intro child member
    cases member

theorem presetCooldownMs_natCast (count : Nat) : presetCooldownMs count = cooldown count := by
  match count with
  | 0 | 1 | 2 => rfl
  | count + 3 =>
    unfold presetCooldownMs
    rw [if_neg (by omega), if_neg (by omega), if_neg (by omega)]
    rfl

variable {s : Ioscd} {preset : Text} {now : Nat}

theorem Kept.cooled (kept : s.Kept) {later : Nat} (current : s.clock ≤ now) (after : now ≤ later)
    (waited : s.presetCooldownRemainingMs preset now = 0) : Cooled s.history preset later := by
  have agrees := kept.records preset
  have past := kept.past preset
  unfold presetCooldownRemainingMs at waited
  unfold Cooled
  generalize failures preset s.history = recorded at agrees past ⊢
  obtain ⟨count, last⟩ := recorded
  cases found : s.presetHealth preset with
  | none =>
    rw [found] at agrees
    have none : count = 0 := agrees
    simp only [none, cooldown] at past ⊢
    omega
  | some entry =>
    rw [found] at agrees waited
    obtain ⟨same, when⟩ := agrees
    simp only [same, presetCooldownMs_natCast] at waited past ⊢
    by_cases zero : count = 0
    · simp only [zero, cooldown]
      omega
    · have time := when (by omega)
      rw [if_neg (by omega), time] at waited
      split at waited
      · omega
      · omega

theorem find_updateHealth_self (preset : Text) (change : PresetHealth → PresetHealth)
    (keeps : ∀ entry, (change entry).preset = entry.preset) (health : List PresetHealth) :
    (updateHealth preset change health).find? (fun entry => entry.preset = preset) =
      (health.find? fun entry => entry.preset = preset).map change := by
  induction health with
  | nil => rfl
  | cons entry rest ih =>
    by_cases same : entry.preset = preset
    · simp [updateHealth, same, keeps]
    · simp [updateHealth, same, ih]

variable {other : Text}

theorem find_updateHealth_other (differ : other ≠ preset) (change : PresetHealth → PresetHealth)
    (keeps : ∀ entry, (change entry).preset = entry.preset) (health : List PresetHealth) :
    (updateHealth preset change health).find? (fun entry => entry.preset = other) =
      health.find? fun entry => entry.preset = other := by
  induction health with
  | nil => rfl
  | cons entry rest ih =>
    by_cases same : entry.preset = preset
    · simp [updateHealth, same, keeps, differ.symm]
    · by_cases found : entry.preset = other
      · simp [updateHealth, found, differ]
      · simp [updateHealth, same, found, ih]

theorem childFailed_iff (named : preset ≠ [] ∧ preset.length ≤ presetNameMax)
    (status : ExitStatus) (file : Option SessionStatus) :
    childFailed preset status file = true ↔ outcome preset status file = .failed := by
  have nonempty : ascii "error" ≠ [] := by decide
  unfold childFailed outcome
  split
  · simp
  · split
    · simp
    · -- A clean exit is a failure if the status file says so.
      cases file with
      | none => simp [readSessionStatus, nonempty]
      | some status =>
        obtain ⟨claimed, state⟩ := status
        have short : (ascii "error").length ≤ presetNameMax := by decide
        simp only [readSessionStatus, Option.some.injEq, SessionStatus.mk.injEq,
          Bool.and_eq_true, beq_iff_eq]
        grind

theorem presetHealth_record_other (s : Ioscd) (differ : other ≠ preset)
    (short : preset.length ≤ presetNameMax) (failed : Bool) (now : Nat) :
    (s.recordSessionOutcome preset failed now).presetHealth other = s.presetHealth other := by
  unfold recordSessionOutcome
  split
  · refine find_updateHealth_other differ _ (fun entry => ?_) s.health
    cases failed <;> rfl
  · split
    · simp [presetHealth, List.find?_append, List.take_of_length_le short, differ.symm]
    · rfl

theorem records_failed (s : Ioscd) (short : preset.length ≤ presetNameMax) {count last : Nat}
    (agrees : Records (s.presetHealth preset) (count, last)) (bounded : count < 2 ^ 31 - 1)
    (room : s.health.length < maxPresetHealth ∨ s.presetHealth preset ≠ none) (now : Nat) :
    Records ((s.recordSessionOutcome preset true now).presetHealth preset) (count + 1, now) := by
  have counts : ∀ number : Nat, number < 2 ^ 31 - 1 → increment number = (number + 1 : Nat) := by
    intro number small
    unfold increment
    rw [Int.bmod_eq_of_le (by omega) (by omega)]
    rfl
  unfold recordSessionOutcome
  cases found : s.presetHealth preset with
  | some entry =>
    rw [found] at agrees
    have changed := find_updateHealth_self preset
      (fun entry => { entry with fails := increment entry.fails, lastFailMs := now })
      (fun _ => rfl) s.health
    have entries : (s.health.find? fun entry => entry.preset = preset) = some entry := found
    rw [entries] at changed
    simp only [presetHealth, if_true, changed, Option.map_some, Records, agrees.1,
      counts count bounded, implies_true, and_self]
  | none =>
    rw [found] at agrees room
    have zero : count = 0 := agrees
    have fits : s.health.length < maxPresetHealth := room.resolve_right (fun h => h rfl)
    have entries : (s.health.find? fun entry => entry.preset = preset) = none := found
    have first := counts 0 (by decide)
    simp only [Nat.cast_zero] at first
    simp [fits, presetHealth, List.find?_append, entries, List.take_of_length_le short, Records,
      zero, first]

theorem records_cleared (s : Ioscd) (preset : Text) (now last : Nat) :
    Records ((s.recordSessionOutcome preset false now).presetHealth preset) (0, last) := by
  unfold recordSessionOutcome
  cases found : s.presetHealth preset with
  | some entry =>
    have changed := find_updateHealth_self preset (fun entry => { entry with fails := 0 })
      (fun _ => rfl) s.health
    have entries : (s.health.find? fun entry => entry.preset = preset) = some entry := found
    rw [entries] at changed
    simp [presetHealth, changed, Records]
  | none => simp [found, Records]

theorem recordSessionOutcome_eq (s : Ioscd) (preset : Text) (failed : Bool) (now : Nat) :
    ∃ health, s.recordSessionOutcome preset failed now = { s with health := health } := by
  unfold recordSessionOutcome
  split
  · exact ⟨_, rfl⟩
  · split
    · exact ⟨_, rfl⟩
    · exact ⟨s.health, rfl⟩

variable {pid : Nat} {child : SessionChild}

theorem childSlot_spec {i : Fin maxSessionChildren} (found : s.childSlot pid = some (i, child)) :
    s.children i = some child ∧ child.pid = pid := by
  obtain ⟨j, -, here⟩ := List.exists_of_findSome?_eq_some found
  split at here
  · cases here
  · rename_i other held
    split at here
    · rename_i same
      cases here
      exact ⟨held, same⟩
    · cases here

theorem Kept.childSlot_running (kept : s.Kept) (member : child ∈ s.running) :
    ∃ i, s.childSlot child.pid = some (i, child) ∧ s.children i = some child := by
  obtain ⟨i, held⟩ := (kept.tracked child).mp member
  cases found : s.childSlot child.pid with
  | none =>
    have missed := List.findSome?_eq_none_iff.mp found i (List.mem_finRange i)
    simp [held] at missed
  | some slot =>
    obtain ⟨j, other⟩ := slot
    obtain ⟨there, same⟩ := childSlot_spec found
    have running := (kept.tracked other).mpr ⟨j, there⟩
    have equal := List.inj_on_of_nodup_map kept.distinct running member same
    subst equal
    exact ⟨j, rfl, there⟩

theorem Kept.childSlot_other (kept : s.Kept) (other : ∀ child ∈ s.running, child.pid ≠ pid) :
    s.childSlot pid = none := by
  cases found : s.childSlot pid with
  | none => rfl
  | some slot =>
    obtain ⟨i, child⟩ := slot
    obtain ⟨held, same⟩ := childSlot_spec found
    exact absurd same (other child ((kept.tracked child).mpr ⟨i, held⟩))

theorem filter_pid_eq {running : List SessionChild}
    (distinct : (running.map SessionChild.pid).Nodup) (member : child ∈ running) :
    running.filter (fun other => other.pid = child.pid) = [child] := by
  induction running with
  | nil => cases member
  | cons first rest ih =>
    obtain ⟨fresh, distinct⟩ := List.nodup_cons.mp distinct
    cases List.mem_cons.mp member with
    | inl same =>
      subst same
      have others : rest.filter (fun other => other.pid = child.pid) = [] := by
        rw [List.filter_eq_nil_iff]
        intro other later equal
        exact fresh (List.mem_map.mpr ⟨other, later, of_decide_eq_true equal⟩)
      simp [others]
    | inr later =>
      have differ : first.pid ≠ child.pid :=
        fun equal => fresh (List.mem_map.mpr ⟨child, later, equal.symm⟩)
      simp [differ, ih distinct later]

theorem Kept.reap_other (kept : s.Kept) (status : ExitStatus) (file : Option SessionStatus)
    (current : s.clock ≤ now) (other : ∀ child ∈ s.running, child.pid ≠ pid) :
    (s.reap pid status file now).Kept := by
  have none : s.running.filter (fun child => child.pid = pid) = [] := by
    rw [List.filter_eq_nil_iff]
    intro child member same
    exact other child member (of_decide_eq_true same)
  have all : s.running.filter (fun child => child.pid ≠ pid) = s.running := by
    rw [List.filter_eq_self]
    intro child member
    exact decide_eq_true (other child member)
  have same : s.reap pid status file now = { s with clock := now } := by
    unfold reap noteSessionChildExit
    rw [kept.childSlot_other other]
    simp only [none, all]
    rfl
  rw [same]
  exact { kept with past := fun preset => (kept.past preset).trans current }

theorem Kept.records_finish (kept : s.Kept)
    (member : child ∈ s.running) (status : ExitStatus) (file : Option SessionStatus) (now : Nat)
    (busy : outcome child.preset status file = .busy → (failures child.preset s.history).1 = 0)
    (failed : outcome child.preset status file = .failed →
      (failures child.preset s.history).1 < 2 ^ 31 - 1 ∧
        (s.health.length < maxPresetHealth ∨ s.presetHealth child.preset ≠ none))
    (preset : Text) :
    Records ((s.recordSessionOutcome child.preset (childFailed child.preset status file)
        now).presetHealth preset)
      (failures preset (.finish child.preset (outcome child.preset status file) now ::
        s.history)) := by
  have named := kept.named child member
  have judged := childFailed_iff named status file
  have agrees := kept.records preset
  by_cases same : preset = child.preset
  · subst same
    simp only [failures, if_true]
    cases result : outcome child.preset status file with
    | succeeded =>
      have cleared : childFailed child.preset status file = false := by
        rw [← Bool.not_eq_true, judged, result]
        simp
      rw [cleared]
      exact s.records_cleared child.preset now 0
    | busy =>
      have cleared : childFailed child.preset status file = false := by
        rw [← Bool.not_eq_true, judged, result]
        simp
      rw [cleared]
      -- Nothing was on record, so the entry that is cleared was clear.
      have nothing := busy result
      generalize failures child.preset s.history = recorded at nothing ⊢
      obtain ⟨count, last⟩ := recorded
      simp only at nothing ⊢
      rw [nothing]
      exact s.records_cleared child.preset now last
    | failed =>
      rw [judged.mpr result]
      obtain ⟨bounded, room⟩ := failed result
      exact s.records_failed named.2 agrees bounded room now
  · rw [s.presetHealth_record_other same named.2]
    simp only [failures, if_neg (Ne.symm same)]
    exact agrees

theorem failures_finish_le {history : List SessionNote} {result : SessionOutcome} {clock : Nat}
    (past : (failures preset history).2 ≤ clock) (current : clock ≤ now) :
    (failures preset (.finish other result now :: history)).2 ≤ now := by
  simp only [failures]
  split
  · cases result with
    | succeeded => exact Nat.zero_le now
    | busy => exact past.trans current
    | failed => exact Nat.le_refl now
  · exact past.trans current

/-- A child that ends is counted as its exit says. -/
theorem Kept.reap_running (kept : s.Kept)
    (member : child ∈ s.running) (status : ExitStatus) (file : Option SessionStatus)
    (current : s.clock ≤ now)
    (busy : outcome child.preset status file = .busy → (failures child.preset s.history).1 = 0)
    (failed : outcome child.preset status file = .failed →
      (failures child.preset s.history).1 < 2 ^ 31 - 1 ∧
        (s.health.length < maxPresetHealth ∨ s.presetHealth child.preset ≠ none)) :
    (s.reap child.pid status file now).Kept := by
  obtain ⟨i, found, held⟩ := kept.childSlot_running member
  have records := kept.records_finish member status file now busy failed
  obtain ⟨health, recorded⟩ := s.recordSessionOutcome_eq child.preset
    (childFailed child.preset status file) now
  rw [recorded] at records
  have same : s.reap child.pid status file now = { s with
      health := health
      children := Function.update s.children i none
      clock := now
      running := s.running.filter fun other => other.pid ≠ child.pid
      history := .finish child.preset (outcome child.preset status file) now :: s.history } := by
    unfold reap noteSessionChildExit
    simp only [found, recorded, filter_pid_eq kept.distinct member]
    rfl
  rw [same]
  have stays : ∀ other, other ∈ s.running.filter (fun other => other.pid ≠ child.pid) ↔
      other ∈ s.running ∧ other ≠ child := by
    intro other
    rw [List.mem_filter, decide_eq_true_iff]
    refine and_congr_right fun here => not_congr ⟨fun equal => ?_, fun equal => by rw [equal]⟩
    exact List.inj_on_of_nodup_map kept.distinct here member equal
  refine ⟨?_, ?_, ?_, ?_, records, ?_, kept.respected⟩
  · -- The slots are those of the children that are left.
    intro other
    simp only [stays, kept.tracked]
    constructor
    · rintro ⟨⟨j, there⟩, differ⟩
      refine ⟨j, ?_⟩
      rw [Function.update_of_ne, there]
      rintro rfl
      rw [held] at there
      exact differ (Option.some.inj there).symm
    · rintro ⟨j, there⟩
      by_cases equal : j = i
      · subst equal
        simp at there
      · rw [Function.update_of_ne equal] at there
        refine ⟨⟨j, there⟩, ?_⟩
        rintro rfl
        exact equal (kept.alone j i other there held)
  · exact kept.distinct.sublist (List.filter_sublist.map _)
  · intro j k other first second
    have before : ∀ l, Function.update s.children i none l = some other →
        s.children l = some other := by
      intro l here
      by_cases equal : l = i
      · subst equal
        simp at here
      · rwa [Function.update_of_ne equal] at here
    exact kept.alone j k other (before j first) (before k second)
  · intro other there
    exact kept.named other ((stays other).mp there).1
  · exact fun preset => failures_finish_le (kept.past preset) current

theorem Kept.reap (kept : s.Kept) {status : ExitStatus} {file : Option SessionStatus}
    (current : s.clock ≤ now) (manageable : s.Manageable (.reap pid status file now)) :
    (s.reap pid status file now).Kept := by
  by_cases session : ∃ child ∈ s.running, child.pid = pid
  · obtain ⟨child, member, rfl⟩ := session
    obtain ⟨busy, failed⟩ := manageable child member rfl
    exact kept.reap_running member status file current busy failed
  · exact kept.reap_other status file current
      fun child member same => session ⟨child, member, same⟩

theorem trackSessionChild_eq (pid : Nat) (short : preset.length ≤ presetNameMax)
    (free : ∃ i, s.children i = none) :
    ∃ i, s.children i = none ∧ s.trackSessionChild pid preset =
      { s with children := Function.update s.children i (some ⟨pid, preset⟩) } := by
  obtain ⟨j, empty⟩ := free
  unfold trackSessionChild
  cases found : (List.finRange maxSessionChildren).find? fun i => (s.children i).isNone with
  | none =>
    have taken := List.find?_eq_none.mp found j (List.mem_finRange j)
    simp [empty] at taken
  | some i =>
    have here := List.find?_some found
    refine ⟨i, by simpa using here, ?_⟩
    simp only [List.take_of_length_le short]

theorem handleSessionRequest_cases (s : Ioscd) (payload : Text) (ensure : Bool) (peer : PeerInfo)
    (world : SessionWorld) :
    (∃ answer, s.handleSessionRequest payload ensure peer world = s.reply answer) ∨
      ∃ pid, (SessionRequest.parse payload).preset ≠ [] ∧
        launchSessionRequest (SessionRequest.parse payload) world = some pid ∧
        ((SessionRequest.parse payload).destructive = true →
          s.refusesSwitch (SessionRequest.parse payload) ensure peer world = none) ∧
        s.handleSessionRequest payload ensure peer world =
          (s.started (SessionRequest.parse payload) peer.isRoot pid world.forkedAt).reply
            .started := by
  unfold handleSessionRequest
  generalize SessionRequest.parse payload = request
  simp only
  split
  · exact Or.inl ⟨_, rfl⟩
  · rename_i nonempty
    split
    · exact Or.inl ⟨_, rfl⟩
    · split
      · exact Or.inl ⟨_, rfl⟩
      · rename_i granted
        split
        · exact Or.inl ⟨_, rfl⟩
        · split
          · exact Or.inl ⟨_, rfl⟩
          · rename_i pid launched
            refine Or.inr ⟨pid, by simpa using nonempty, launched, fun destructive => ?_, rfl⟩
            simpa [destructive] using granted

theorem presetCooldownRemainingMs_of_granted {request : SessionRequest} {ensure : Bool}
    {peer : PeerInfo} {world : SessionWorld}
    (granted : s.refusesSwitch request ensure peer world = none) (root : peer.isRoot = false) :
    s.presetCooldownRemainingMs request.preset world.cooldownAt = 0 := by
  unfold refusesSwitch at granted
  simp only [root] at granted
  split at granted
  · cases granted
  · simp only [Bool.false_eq_true, if_false] at granted
    split at granted
    · cases granted
    · rename_i waited
      exact not_not.mp waited

/-- A session is started only when the last failures of its preset are long enough ago. -/
theorem Kept.started (kept : s.Kept) {request : SessionRequest} {root : Bool} (current : s.clock ≤ now) (nonempty : request.preset ≠ [])
    (fits : request.destructive = true →
      request.preset.length ≤ presetNameMax ∧ ∃ i, s.children i = none)
    (fresh : ∀ child ∈ s.running, child.pid ≠ pid)
    (cooled : request.destructive = true → root = false → Cooled s.history request.preset now) :
    Kept { s.started request root pid now with clock := now } := by
  have past : ∀ preset, (failures preset s.history).2 ≤ now :=
    fun preset => (kept.past preset).trans current
  unfold Ioscd.started
  split
  · rename_i destructive
    obtain ⟨short, free⟩ := fits destructive
    obtain ⟨i, empty, tracked⟩ := trackSessionChild_eq pid short free
    rw [tracked]
    have unslotted : ∀ j, s.children j ≠ some ⟨pid, request.preset⟩ := fun j held =>
      fresh _ ((kept.tracked _).mpr ⟨j, held⟩) rfl
    refine ⟨?_, ?_, ?_, ?_, kept.records, past, cooled destructive, kept.respected⟩
    · intro child
      simp only [List.mem_cons, kept.tracked]
      constructor
      · rintro (rfl | ⟨j, held⟩)
        · exact ⟨i, Function.update_self ..⟩
        · refine ⟨j, ?_⟩
          rw [Function.update_of_ne, held]
          rintro rfl
          rw [empty] at held
          cases held
      · rintro ⟨j, held⟩
        by_cases equal : j = i
        · subst equal
          rw [Function.update_self] at held
          exact Or.inl (Option.some.inj held).symm
        · rw [Function.update_of_ne equal] at held
          exact Or.inr ⟨j, held⟩
    · refine List.nodup_cons.mpr ⟨?_, kept.distinct⟩
      intro member
      obtain ⟨child, there, same⟩ := List.mem_map.mp member
      exact fresh child there same
    · intro j k child first second
      simp only at first second
      by_cases here : j = i
      · by_cases there : k = i
        · rw [here, there]
        · subst here
          rw [Function.update_self] at first
          rw [Function.update_of_ne there, ← Option.some.inj first] at second
          exact absurd second (unslotted k)
      · rw [Function.update_of_ne here] at first
        by_cases there : k = i
        · subst there
          rw [Function.update_self] at second
          rw [← Option.some.inj second] at first
          exact absurd first (unslotted j)
        · rw [Function.update_of_ne there] at second
          exact kept.alone j k child first second
    · intro child member
      cases List.mem_cons.mp member with
      | inl same =>
        subst same
        exact ⟨nonempty, short⟩
      | inr before => exact kept.named child before
  · exact { kept with past := past }

/-- Each event keeps the tables right, if they have room for it. -/
theorem Kept.next (kept : s.Kept) (event : Event) (allowed : s.Allowed event)
    (manageable : s.Manageable event) : (s.next event).Kept := by
  cases event with
  | request payload ensure peer world =>
    obtain ⟨cooldownAt, debounceAt, forkedAt, fresh⟩ := allowed
    have current : s.clock ≤ world.forkedAt := by omega
    unfold Ioscd.next
    simp only
    obtain ⟨answer, same⟩ | ⟨pid, nonempty, launched, granted, same⟩ :=
      s.handleSessionRequest_cases payload ensure peer world
    · rw [same]
      exact { kept with past := fun preset => (kept.past preset).trans current }
    · rw [same]
      have forked : world.forked = some pid := by
        unfold launchSessionRequest at launched
        split at launched
        · exact launched
        · cases launched
      have begun : Kept { s.started (SessionRequest.parse payload) peer.isRoot pid world.forkedAt
          with clock := world.forkedAt } := by
        refine kept.started current nonempty (fun destructive => ?_) (fresh pid forked).2
          fun destructive root => ?_
        · exact manageable destructive (by simp [launched])
        · exact kept.cooled cooldownAt (by omega)
            (presetCooldownRemainingMs_of_granted (granted destructive) root)
      exact { begun with }
  | reap pid status file now => exact kept.reap allowed manageable

/--
Nobody but root starts a session of a preset that is cooling down.

In every history in which the tables have room and no child reports to be busy after a failure of
its preset, each session that replaces the desktop and is not root's starts after the cooldown for
the failures of its preset since that last succeeded.
-/
theorem cooldown_respected {trace : List Event} {s : Ioscd}
    (run : (machine.restrict Manageable).Run trace s) : Respected s.history := by
  have kept : s.Kept := by
    refine run.invariant (fun _ s => s.Kept) ?_ ?_
    · intro s begun
      have empty : s = {} := begun
      rw [empty]
      exact kept_empty
    · intro _ s event kept allowed
      exact kept.next event allowed.1 allowed.2
  exact kept.respected

/-- What is found when nothing is in the way, at a given time. -/
def quietWorld (now pid : Nat) : SessionWorld where
  cooldownAt := now
  debounceAt := now
  forkedAt := now
  active := none
  launchable := true
  classicCompositorSocketLive := true
  installed := true
  forked := some pid

theorem allowed_quietWorld (s : Ioscd) (now pid : Nat) (payload : Text) (ensure : Bool)
    (peer : PeerInfo) (current : s.clock ≤ now) (positive : 0 < pid)
    (fresh : ∀ child ∈ s.running, child.pid ≠ pid) :
    s.Allowed (.request payload ensure peer (quietWorld now pid)) := by
  refine ⟨current, Nat.le_refl _, Nat.le_refl _, fun other forked => ?_⟩
  cases forked
  exact ⟨positive, fresh⟩

def rootPeer : PeerInfo := ⟨true, 0, []⟩
def appPeer : PeerInfo := ⟨true, 501, ascii "/Xios.app/Xios"⟩

def retried : List Event :=
  [.request (ascii "kde") false appPeer (quietWorld 1000 7), .reap 7 (.exited 1) none 2000,
    .request (ascii "kde") false appPeer (quietWorld 62000 8),
    .request (ascii "kde") false appPeer (quietWorld 122000 9)]

theorem cooldown_respected_retried :
    (retried.foldl next {}).replies =
        [.started, .coolingDown (ascii "kde") 61, .started] ∧
      Respected (retried.foldl next {}).history := by
  have run : (machine.restrict Manageable).Run retried.reverse (retried.foldl next {}) := by
    have allowed := fun s now pid => allowed_quietWorld s now pid (ascii "kde") false appPeer
    refine .of_script (m := machine.restrict Manageable) (s := {}) rfl retried
      ⟨⟨allowed _ _ _ (by decide) (by decide) (by decide), ?_⟩, ⟨Nat.le_of_ble_eq_true rfl, ?_⟩,
        ⟨allowed _ _ _ (by decide) (by decide) (by decide), ?_⟩,
        ⟨allowed _ _ _ (by decide) (by decide) (by decide), ?_⟩, trivial⟩
    · exact fun _ _ => ⟨by decide, 0, rfl⟩
    · -- Nothing is on record yet, and there is room for the first failure.
      intro child member same
      cases List.mem_singleton.mp member
      exact ⟨fun busy => absurd busy (by decide), fun _ => ⟨by decide, Or.inl (by decide)⟩⟩
    · exact fun _ _ => ⟨by decide, 0, rfl⟩
    · exact fun _ _ => ⟨by decide, 0, rfl⟩
  exact ⟨by decide, cooldown_respected run⟩

def busyBetween : List Event :=
  [.request (ascii "kde") false appPeer (quietWorld 1000 7), .reap 7 (.exited 1) none 2000,
    .request (ascii "kde") false rootPeer (quietWorld 3000 8), .reap 8 (.exited 75) none 4000,
    .request (ascii "kde") false appPeer (quietWorld 30000 9)]

/-- The report of being busy ends the cooldown, and the preset is started again too early. -/
theorem not_cooldown_respected :
    ¬∀ (trace : List Event) (s : Ioscd), machine.Run trace s → Respected s.history := by
  intro respected
  have allowed := fun peer s now pid => allowed_quietWorld s now pid (ascii "kde") false peer
  have run : machine.Run busyBetween.reverse (busyBetween.foldl next {}) :=
    .of_script (m := machine) (s := {}) rfl busyBetween
      ⟨allowed appPeer _ _ _ (by decide) (by decide) (by decide), Nat.le_of_ble_eq_true rfl,
        allowed rootPeer _ _ _ (by decide) (by decide) (by decide), Nat.le_of_ble_eq_true rfl,
        allowed appPeer _ _ _ (by decide) (by decide) (by decide), trivial⟩
  have early : (busyBetween.foldl next {}).history = [.start (ascii "kde") false 30000,
      .finish (ascii "kde") .busy 4000, .start (ascii "kde") true 3000,
      .finish (ascii "kde") .failed 2000, .start (ascii "kde") false 1000] := by decide
  have cooled := respected _ _ run
  rw [early] at cooled
  exact absurd (cooled.1 rfl) (by unfold Cooled; decide)

end Ioscd

end Xios
