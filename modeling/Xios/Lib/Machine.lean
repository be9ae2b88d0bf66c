import Mathlib.Data.List.Basic

/-! Machines driven by their environment, their finite runs, and the invariants of those runs. -/

/-- A machine whose steps are chosen by an environment and executed by a function. -/
structure Machine (σ : Type*) (ε : Type*) where
  -- States in which a run may begin.
  start : σ → Prop
  -- Steps the environment may choose in a state.
  enabled : σ → ε → Prop
  -- The state reached by executing one chosen step.
  next : σ → ε → σ

namespace Machine

variable {σ ε : Type*}

/-- Finite runs of a machine, with the steps taken so far listed newest first. -/
inductive Run (m : Machine σ ε) : List ε → σ → Prop where
  -- A run that has taken no step yet.
  | start {s : σ} (initial : m.start s) : Run m [] s
  -- A run extended by one step that its environment may take.
  | step {trace : List ε} {s : σ} (event : ε) (run : Run m trace s)
      (allowed : m.enabled s event) : Run m (event :: trace) (m.next s event)

variable {m : Machine σ ε} {trace : List ε} {s : σ}

theorem Run.invariant (holds : List ε → σ → Prop)
    (initial : ∀ s, m.start s → holds [] s)
    (preserved : ∀ trace s event, holds trace s → m.enabled s event →
      holds (event :: trace) (m.next s event)) (run : m.Run trace s) : holds trace s := by
  -- The induction follows the run, whose last step is the one to be checked.
  induction run with
  | start begun => exact initial _ begun
  | step event _ allowed ih => exact preserved _ _ event ih allowed

/-- The same machine in an environment that only takes steps meeting a further condition. -/
def restrict (m : Machine σ ε) (condition : σ → ε → Prop) : Machine σ ε where
  start := m.start
  -- A step must be possible for the machine and acceptable to the narrower environment.
  enabled s event := m.enabled s event ∧ condition s event
  next := m.next

variable {condition : σ → ε → Prop}

instance decidableRestrict [∀ s event, Decidable (m.enabled s event)]
    [∀ s event, Decidable (condition s event)] (s : σ) (event : ε) :
    Decidable ((m.restrict condition).enabled s event) :=
  inferInstanceAs (Decidable (_ ∧ _))

theorem Run.of_restrict (run : (m.restrict condition).Run trace s) : m.Run trace s := by
  induction run with
  | start begun => exact .start begun
  | step event _ allowed ih => exact .step event ih allowed.1

/-- The same machine in an environment that never leaves the states of some kind. -/
def within (m : Machine σ ε) (holds : σ → Prop) : Machine σ ε where
  start s := m.start s ∧ holds s
  -- A step must be possible for the machine and end in such a state.
  enabled s event := m.enabled s event ∧ holds (m.next s event)
  next := m.next

variable {holds : σ → Prop}

theorem Run.of_within (run : (m.within holds).Run trace s) : m.Run trace s ∧ holds s := by
  induction run with
  | start begun => exact ⟨.start begun.1, begun.2⟩
  | step event _ allowed ih => exact ⟨.step event ih.1 allowed.1, allowed.2⟩

/-- All states of a run are of some kind exactly if all its steps meet the condition for that,
which may rely on what runs reach. -/
theorem run_within_iff_of_run (initial : ∀ s, m.start s → holds s)
    (precise : ∀ trace s event, m.Run trace s → holds s → m.enabled s event →
      (holds (m.next s event) ↔ condition s event)) :
    (m.within holds).Run trace s ↔ (m.restrict condition).Run trace s := by
  constructor
  · intro run
    induction run with
    | start begun => exact .start begun.1
    | step event earlier allowed ih =>
      have met := (precise _ _ event earlier.of_within.1 earlier.of_within.2 allowed.1).mp allowed.2
      exact .step event ih ⟨allowed.1, met⟩
  · intro run
    induction run with
    | start begun => exact .start ⟨begun, initial _ begun⟩
    | step event _ allowed ih =>
      have later := (precise _ _ event ih.of_within.1 ih.of_within.2 allowed.1).mpr allowed.2
      exact .step event ih ⟨allowed.1, later⟩

theorem run_within_iff (initial : ∀ s, m.start s → holds s)
    (precise : ∀ s event, holds s → m.enabled s event →
      (holds (m.next s event) ↔ condition s event)) :
    (m.within holds).Run trace s ↔ (m.restrict condition).Run trace s :=
  run_within_iff_of_run initial fun _ s event _ => precise s event

/-- The environment may take the listed steps one after the other. -/
def Admits (m : Machine σ ε) : σ → List ε → Prop
  | _, [] => True
  | s, event :: rest => m.enabled s event ∧ m.Admits (m.next s event) rest

instance decidableAdmits (m : Machine σ ε) [∀ s event, Decidable (m.enabled s event)] :
    ∀ (s : σ) (script : List ε), Decidable (m.Admits s script)
  | _, [] => .isTrue trivial
  | s, event :: rest =>
    have := decidableAdmits m (m.next s event) rest
    inferInstanceAs (Decidable (_ ∧ _))

theorem admits_of_enabled (free : ∀ s event, m.enabled s event) (s : σ) (script : List ε) :
    m.Admits s script := by
  induction script generalizing s with
  | nil => exact trivial
  | cons event rest ih => exact ⟨free s event, ih _⟩

theorem Run.script (run : m.Run trace s) (events : List ε) (admitted : m.Admits s events) :
    m.Run (events.reverse ++ trace) (events.foldl m.next s) := by
  -- Each event moves from the front of the script to the front of the trace.
  induction events generalizing trace s with
  | nil => exact run
  | cons event rest ih =>
    simpa using ih (.step event run admitted.1) admitted.2

theorem Run.of_script (begun : m.start s) (events : List ε) (admitted : m.Admits s events) :
    m.Run events.reverse (events.foldl m.next s) := by
  simpa using (Run.start begun).script events admitted

theorem Run.invariant_after (holds : σ → Prop)
    (preserved : ∀ trace s event, m.Run trace s → holds s → m.enabled s event →
      holds (m.next s event)) (run : m.Run trace s) (here : holds s) (events : List ε)
    (admitted : m.Admits s events) : holds (events.foldl m.next s) := by
  induction events generalizing trace s with
  | nil => exact here
  | cons event rest ih =>
    have later := preserved trace s event run here admitted.1
    exact ih (run.step event admitted.1) later admitted.2

end Machine
