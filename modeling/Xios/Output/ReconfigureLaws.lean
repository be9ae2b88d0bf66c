import Xios.Output.ExtentLaws
import Xios.Output.Reconfigure

/-! A failed reconfiguration changes nothing, and the output keeps its pixels as long as the scale
divides them whenever the device is rotated. -/

namespace Xios

theorem le_units (o : Screen) {px : Int} (positive : 0 < px) :
    px ≤ bufferToLogical px o.scale * o.outputScale := by
  have scale := o.outputScale_pos
  rw [ShownSurface.units_eq o positive]
  -- The rounded quotient leaves less than one unit of what it was asked for.
  have quotient := Int.emod_add_mul_ediv (px + o.outputScale - 1) o.outputScale
  have rest := Int.emod_lt_of_pos (px + o.outputScale - 1) scale
  rw [mul_comm]
  omega

theorem quarter_eq (t : BitVec 32) : quarter t = t.getLsbD 0 := by
  have low : (t &&& 1).toNat = t.toNat % 2 := by
    rw [BitVec.toNat_and]
    exact Nat.and_one_is_mod _
  have zero : (0 : BitVec 32).toNat = 0 := rfl
  have odd : t &&& 1 ≠ 0 ↔ t.toNat % 2 = 1 := by
    rw [ne_eq, ← BitVec.toNat_inj, low, zero]
    omega
  rw [quarter, BitVec.getLsbD, Nat.testBit_zero, decide_eq_decide]
  exact odd

theorem quarter_xor (s t : BitVec 32) : quarter (s ^^^ t) = (quarter s != quarter t) := by
  rw [quarter_eq, quarter_eq, quarter_eq, BitVec.getLsbD_xor]

namespace Desk

theorem outputScale_eq (d : Desk) : d.screen.outputScale = d.screen.scale :=
  if_pos d.positive.2.2

theorem setScale_back (d : Desk) (scale : Int) (positive : 0 < scale) :
    (d.setScale scale positive).setScale d.screen.outputScale (Output.outputScale_pos _) = d := by
  simp only [setScale, outputScale_eq]

theorem settle_inSync (d : Desk) (transform : BitVec 32) : (d.settle transform).InSync := by
  have scale := d.positive.2.2
  have units (px : Int) :
      bufferToLogical px d.screen.scale = (px + d.screen.scale - 1).tdiv d.screen.scale := by
    simp only [bufferToLogical, if_pos scale]
  simp only [InSync, naturalSize, settle, size, units]
  by_cases turned : quarter transform = true
  · simp [turned]
  · simp [turned]

/-- What a reconfiguration can end with. -/
inductive Outcome (a : Answers) (d : Desk) (size : Int × Int) (transform : BitVec 32) :
    Int × Desk → Prop where
  | kept (refused : size.1 ≤ 0 ∨ size.2 ≤ 0 ∨
      (0 < a.maxTarget ∧ (a.maxTarget < size.1 ∨ a.maxTarget < size.2)) ∨
      size ≠ d.size ∧ a.resize = none) : Outcome a d size transform (-1, d)
  -- Nothing was to be changed.
  | matched (same : size = d.size) (kind : transform = d.transform) :
      Outcome a d size transform (1, d)
  -- The GPU has lost the output.
  | stopped (next : Desk) (stops : next.terminated = true) (changed : size ≠ d.size)
      (lost : a.rebound = false) : Outcome a d size transform (-1, next)
  -- The output is as it was asked for.
  | applied (next : Desk)
      (within : ¬(0 < a.maxTarget ∧ (a.maxTarget < size.1 ∨ a.maxTarget < size.2)))
      (had : size = d.size ∨ a.resize ≠ none ∧ a.rebound = true)
      (runs : next.terminated = d.terminated) (taken : next.size = size)
      (turned : next.transform = transform) (sync : next.InSync) :
      Outcome a d size transform (0, next)

theorem reconfigurePx_outcome (a : Answers) (d : Desk) (pw ph : Int) (transform : BitVec 32)
    (scale : Int) : Outcome a d (pw, ph) transform (d.reconfigurePx a pw ph transform scale) := by
  unfold reconfigurePx
  split
  next empty => exact .kept (by tauto)
  next sized =>
    split
    next large => exact .kept (.inr (.inr (.inl large)))
    next within =>
      simp only
      split
      next same => exact .matched (by simp [size, same.2.1, same.2.2.1]) same.2.2.2
      next =>
        split
        next changed =>
          have changed : (pw, ph) ≠ d.size := by
            simp only [size, ne_eq, Prod.mk.injEq]
            tauto
          cases resized : a.resize with
          | none =>
            -- The scale that was taken over is given back.
            simp only [setScale_back]
            exact .kept (.inr (.inr (.inr ⟨changed, resized⟩)))
          | some stride =>
            simp only
            split
            · next rebound =>
              have had : a.resize ≠ none := by simp [resized]
              exact .applied _ within (.inr ⟨had, rebound⟩) rfl rfl rfl (settle_inSync _ _)
            · next lost => exact .stopped _ rfl changed (by simpa using lost)
        next same =>
          -- The surface stays, so the size that was asked for is the one it has.
          have same : d.size = (pw, ph) := by
            simp only [size, Prod.mk.injEq]
            omega
          exact .applied _ within (.inl same.symm) rfl same rfl (settle_inSync _ _)

theorem reconfigurePx_atomic (a : Answers) (d : Desk) (pw ph : Int) (transform : BitVec 32)
    (scale : Int) (failed : (d.reconfigurePx a pw ph transform scale).1 = -1)
    (runs : (d.reconfigurePx a pw ph transform scale).2.terminated = false) :
    (d.reconfigurePx a pw ph transform scale).2 = d := by
  have outcome := reconfigurePx_outcome a d pw ph transform scale
  generalize d.reconfigurePx a pw ph transform scale = r at *
  -- Of the outcomes, only the first two leave what was there, and only one of the others fails.
  cases outcome with
  | kept => rfl
  | matched => rfl
  | stopped next stops =>
    simp only [stops] at runs
    contradiction
  | applied =>
    simp only at failed
    contradiction

def oriented (d : Desk) (transform : BitVec 32) : Int × Int :=
  if quarter transform = quarter d.transform then d.size else d.size.swap

@[simp] theorem oriented_self (d : Desk) : d.oriented d.transform = d.size :=
  if_pos rfl

variable {origin d : Desk}

theorem steady_iff {next : Desk} (steady : Steady origin d) (runs : d.terminated = false)
    (still : next.terminated = false) :
    Steady origin next ↔ next.size = d.oriented next.transform := by
  have here := steady.resolve_left (by simp [runs])
  simp only [Steady, still, Bool.false_eq_true, false_or, oriented, here]
  -- Only which of the three transforms turn the sides matters.
  cases quarter next.transform <;> cases quarter d.transform <;> cases quarter origin.transform <;>
    simp

theorem Outcome.steady {a : Answers} {transform : BitVec 32} {r : Int × Desk}
    (outcome : Outcome a d (d.oriented transform) transform r) (steady : Steady origin d)
    (runs : d.terminated = false) : Steady origin r.2 := by
  cases outcome with
  | kept => exact steady
  | matched => exact steady
  | stopped next stops => exact .inl stops
  | applied next _ _ still taken turned =>
    -- The size is the one that was asked for, and the transform the one it was asked with.
    rw [steady_iff steady runs (still.trans runs), turned]
    exact taken

theorem Outcome.inSync {a : Answers} {size : Int × Int} {transform : BitVec 32} {r : Int × Desk}
    (outcome : Outcome a d size transform r) (sync : d.InSync) :
    r.2.terminated = true ∨ r.2.InSync := by
  cases outcome with
  | kept => exact .inr sync
  | matched => exact .inr sync
  | stopped next stops => exact .inl stops
  | applied next _ _ _ _ _ sync => exact .inr sync

theorem kdeConfigApply_outcome (a : Answers) (devices : List KdeDevice) (cfg : KdeConfig)
    (d : Desk) :
    (d.kdeConfigApply a devices cfg).2.2 = d ∨
      ∃ r, Outcome a d (d.oriented (cfg.transform.getD d.transform))
          (cfg.transform.getD d.transform) r ∧ (d.kdeConfigApply a devices cfg).2.2 = r.2 := by
  unfold kdeConfigApply
  split
  · exact .inl rfl
  simp only
  split
  · exact .inl rfl
  split
  · exact .inl rfl
  -- What is left asks for the size with its sides swapped if the transforms differ by a quarter.
  generalize cfg.transform.getD d.transform = transform
  refine .inr ⟨_, ?_, rfl⟩
  have asked : d.oriented transform =
      (if quarter (transform ^^^ d.transform) then d.screen.height else d.screen.width,
        if quarter (transform ^^^ d.transform) then d.screen.width else d.screen.height) := by
    rw [quarter_xor, oriented]
    cases quarter transform <;> cases quarter d.transform <;> rfl
  rw [asked]
  exact reconfigurePx_outcome a d _ _ transform _

theorem kdeConfigApply_size (a : Answers) (devices : List KdeDevice) (cfg : KdeConfig) (d : Desk)
    (kind : cfg.transform = none) : (d.kdeConfigApply a devices cfg).2.2.size = d.size := by
  rcases kdeConfigApply_outcome a devices cfg d with same | ⟨r, outcome, result⟩
  · rw [same]
  · rw [kind, Option.getD_none, oriented_self] at outcome
    rw [result]
    cases outcome with
    | kept => rfl
    | matched => rfl
    -- The surface is replaced only for another size.
    | stopped next _ changed => exact absurd rfl changed
    | applied next _ _ _ taken => exact taken

/-- The length of the units that hold a number of pixels. -/
def wholePx (d : Desk) (px : Int) : Int :=
  bufferToLogical px d.screen.scale * d.screen.outputScale

theorem rotated_eq (sync : d.InSync) (code : BitVec 32) :
    d.rotated code =
      ((d.wholePx (d.oriented (code &&& 3)).1), (d.wholePx (d.oriented (code &&& 3)).2)) := by
  obtain ⟨across, along⟩ := sync
  simp only [rotated, across, along, naturalSize, oriented, wholePx, size]
  generalize quarter (code &&& 3) = turns
  generalize quarter d.transform = turned
  cases turns <;> cases turned <;> rfl

/-- A rotation asks for the pixels the output has exactly if the scale divides both sides, and
otherwise for more than it has. -/
theorem rotated_spec (sync : d.InSync) (code : BitVec 32) :
    (0 < (d.rotated code).1 ∧ 0 < (d.rotated code).2) ∧
      (d.rotated code = d.oriented (code &&& 3) ↔
        d.screen.width % d.screen.outputScale = 0 ∧ d.screen.height % d.screen.outputScale = 0) ∧
      (d.rotated code = d.size → d.rotated code = d.oriented (code &&& 3)) := by
  obtain ⟨wide, high, -⟩ := d.positive
  obtain ⟨-, wholeAcross⟩ := ShownSurface.units_spec d.screen wide
  obtain ⟨-, wholeAlong⟩ := ShownSurface.units_spec d.screen high
  have across := le_units d.screen wide
  have along := le_units d.screen high
  rw [rotated_eq sync]
  by_cases same : quarter (code &&& 3) = quarter d.transform
  · -- The sides stay where they are, each with as many pixels as its units hold.
    simp only [oriented, same, ↓reduceIte, size, wholePx, Prod.mk.injEq, wholeAcross, wholeAlong]
    exact ⟨by omega, trivial, id⟩
  · simp only [oriented, same, ↓reduceIte, size, wholePx, Prod.swap_prod_mk, Prod.mk.injEq,
      wholeAcross, wholeAlong]
    -- Sides that change places without growing are equal, so none has grown.
    refine ⟨by omega, and_comm, fun swapped => ?_⟩
    have square : d.screen.width = d.screen.height := by omega
    rw [square] at wholeAcross swapped ⊢
    exact ⟨wholeAlong.mp swapped.1, wholeAlong.mp swapped.1⟩

theorem inputOutput_outcome (a : Answers) (sync : d.InSync) (code : BitVec 32) :
    (d.inputOutput a 0 0 code = d ∧ TurnedDown a (d.rotated code)) ∨
      ((d.rotated code).1 ≤ 2147483647 ∧ (d.rotated code).2 ≤ 2147483647) ∧
        ∃ r, Outcome a d (d.rotated code) (code &&& 3) r ∧ d.inputOutput a 0 0 code = r.2 := by
  have asked : (if quarter (code &&& 3) then d.naturalLh else d.naturalLw) * d.screen.outputScale =
      (d.rotated code).1 ∧
      (if quarter (code &&& 3) then d.naturalLw else d.naturalLh) * d.screen.outputScale =
        (d.rotated code).2 := by
    simp only [rotated]
    split <;> exact ⟨rfl, rfl⟩
  have positive := (rotated_spec sync code).1
  have scale := d.screen.outputScale_pos
  rw [← asked.1, ← asked.2] at positive
  simp only [inputOutput, Int.lt_irrefl, ↓reduceIte, reconfigure]
  generalize (if quarter (code &&& 3) then d.naturalLh else d.naturalLw) = lw at *
  generalize (if quarter (code &&& 3) then d.naturalLw else d.naturalLh) = lh at *
  split
  next empty =>
    -- The natural size is not empty, as the pixels are not.
    rcases empty with empty | empty
    · exact absurd (Int.mul_nonpos_of_nonpos_of_nonneg empty scale.le) (by omega)
    · exact absurd (Int.mul_nonpos_of_nonpos_of_nonneg empty scale.le) (by omega)
  next =>
    rw [asked.1, asked.2]
    split
    next large => exact .inl ⟨rfl, by rw [TurnedDown]; tauto⟩
    next small =>
      exact .inr ⟨by omega, _, reconfigurePx_outcome a d _ _ _ _, rfl⟩

theorem inputOutput_steady_iff (a : Answers) (sync : d.InSync) (code : BitVec 32)
    (steady : Steady origin d) (runs : d.terminated = false) :
    Steady origin (d.inputOutput a 0 0 code) ↔ Exact d (.rotate a code) := by
  obtain ⟨positive, whole, still⟩ := rotated_spec sync code
  simp only [Exact, ← whole]
  rcases inputOutput_outcome a sync code with ⟨same, down⟩ | ⟨small, r, outcome, result⟩
  · rw [same]
    exact ⟨fun _ => .inr down, fun _ => steady⟩
  rw [result]
  by_cases kept : d.rotated code = d.oriented (code &&& 3)
  · rw [kept] at outcome
    exact ⟨fun _ => .inl kept, fun _ => outcome.steady steady runs⟩
  -- The output is asked to grow, and does unless this is turned down.
  have grown : d.rotated code ≠ d.size := fun same => kept (still same)
  simp only [kept, false_or]
  cases outcome with
  | kept refused =>
    refine ⟨fun _ => ?_, fun _ => steady⟩
    rw [TurnedDown]
    rcases refused with empty | empty | large | ⟨-, missing⟩
    · omega
    · omega
    · exact .inr (.inr (.inl large))
    · exact .inr (.inr (.inr (.inl missing)))
  | matched same => exact absurd same grown
  | stopped next stops _ lost =>
    exact ⟨fun _ => .inr (.inr (.inr (.inr lost))), fun _ => .inl stops⟩
  | applied next within had still taken turned =>
    rw [steady_iff steady runs (still.trans runs), turned, taken]
    refine ⟨fun same => absurd same kept, ?_⟩
    rintro (large | large | large | missing | lost)
    · omega
    · omega
    · exact absurd large within
    · exact absurd missing (had.resolve_left grown).1
    · exact absurd lost (by simp [(had.resolve_left grown).2])

theorem request_inSync (sync : d.InSync) (event : OutputRequest) :
    (d.request event).terminated = true ∨ (d.request event).InSync := by
  cases event with
  | apply a devices cfg =>
    rcases kdeConfigApply_outcome a devices cfg d with same | ⟨r, outcome, result⟩
    · rw [request, same]
      exact .inr sync
    · rw [request, result]
      exact outcome.inSync sync
  | rotate a code =>
    rcases inputOutput_outcome a sync code with ⟨same, -⟩ | ⟨-, r, outcome, result⟩
    · rw [request, same]
      exact .inr sync
    · rw [request, result]
      exact outcome.inSync sync

theorem request_steady_iff (sync : d.InSync) (steady : Steady origin d)
    (runs : d.terminated = false) (event : OutputRequest) :
    Steady origin (d.request event) ↔ Exact d event := by
  cases event with
  | apply a devices cfg =>
    refine ⟨fun _ => trivial, fun _ => ?_⟩
    rcases kdeConfigApply_outcome a devices cfg d with same | ⟨r, outcome, result⟩
    · rw [request, same]
      exact steady
    · rw [request, result]
      exact outcome.steady steady runs
  | rotate a code => exact inputOutput_steady_iff a sync code steady runs

theorem reconfigurations_inSync {trace : List OutputRequest}
    (run : (reconfigurations origin).Run trace d) : d.terminated = true ∨ d.InSync := by
  refine run.invariant (fun _ d => d.terminated = true ∨ d.InSync) ?_ ?_
  · rintro d ⟨rfl, sync⟩
    exact .inr sync
  · intro _ d event before (runs : d.terminated = false)
    exact request_inSync (before.resolve_left (by simp [runs])) event

/-- A reconfiguration that fails changes nothing, a scale alone keeps the pixels, and the pixels are
those of the beginning throughout exactly if all rotations are exact. -/
theorem reconfigurations_steady_iff (origin : Desk) :
    (∀ (a : Answers) (d : Desk) (pw ph : Int) (transform : BitVec 32) (scale : Int),
      (d.reconfigurePx a pw ph transform scale).1 = -1 →
      (d.reconfigurePx a pw ph transform scale).2.terminated = false →
      (d.reconfigurePx a pw ph transform scale).2 = d) ∧
    (∀ (a : Answers) (devices : List KdeDevice) (cfg : KdeConfig) (d : Desk),
      cfg.transform = none → (d.kdeConfigApply a devices cfg).2.2.size = d.size) ∧
    ∀ trace d, ((reconfigurations origin).within (Steady origin)).Run trace d ↔
      ((reconfigurations origin).restrict Exact).Run trace d := by
  refine ⟨reconfigurePx_atomic, kdeConfigApply_size, fun trace d => ?_⟩
  apply Machine.run_within_iff_of_run
  · rintro d ⟨rfl, -⟩
    exact .inr (if_pos rfl).symm
  · intro trace d event run steady (runs : d.terminated = false)
    have sync := (reconfigurations_inSync run).resolve_left (by simp [runs])
    exact request_steady_iff sync steady runs event

/-- The output as `main` sets it up for its size in pixels and its scale. -/
def launch (width height scale : Int) (positive : 0 < width ∧ 0 < height ∧ 0 < scale) : Desk where
  screen := { width, height, scale }
  naturalLw := bufferToLogical width scale
  naturalLh := bufferToLogical height scale
  positive

theorem launch_inSync (width height scale : Int)
    (positive : 0 < width ∧ 0 < height ∧ 0 < scale) :
    (launch width height scale positive).InSync := by
  have natural : (launch width height scale positive).naturalSize = (width, height) :=
    if_neg (show ¬quarter 0 = true by decide)
  rw [InSync, natural]
  exact ⟨rfl, rfl⟩

def tablet : Desk :=
  launch 2360 1640 2 (by decide)

def turnedTwice : List OutputRequest :=
  let answers : Answers := { resize := some 9472, rebound := true }
  [.apply answers [] { scale := some 768 }, .rotate answers 1, .rotate answers 0]

/-- After them, a column and a row more are there than in the beginning. -/
theorem rotations_grow :
    ¬∀ origin trace d, (reconfigurations origin).Run trace d → d.terminated = false →
      quarter d.transform = quarter origin.transform → d.size = origin.size := by
  intro restored
  have admitted : (reconfigurations tablet).Admits tablet turnedTwice :=
    ⟨by decide, by decide, by decide, trivial⟩
  have run := Machine.Run.of_script (m := reconfigurations tablet)
    ⟨rfl, launch_inSync 2360 1640 2 (by decide)⟩ turnedTwice admitted
  have same := restored tablet _ _ run (by decide) (by decide)
  exact absurd same (by decide)

end Desk

end Xios
