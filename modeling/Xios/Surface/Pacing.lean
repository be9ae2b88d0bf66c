import Xios.Lib.Machine
import Xios.Surface.ClientTable

/-! The display clock of `xios_surface.c` in machine words, and what `iosc.c` makes of it. -/

namespace Xios

/-- Age after which nobody believes a display clock. -/
def vblankStaleMs : BitVec 64 := 250#64

/-- The app's display clock, in the words that keep it. -/
structure VblankClock where
  intervalUs : BitVec 32 := 0#32
  deadlineMs : BitVec 64 := 0#64
  rxMs : BitVec 64 := 0#64
  minMfps : BitVec 32 := 0#32
  maxMfps : BitVec 32 := 0#32
  deriving DecidableEq

/-- What a caller is told of the clock. -/
structure ClockReading where
  nextDeadlineMs : BitVec 64
  intervalUs : BitVec 32
  minMfps : BitVec 32
  maxMfps : BitVec 32
  deriving DecidableEq

namespace VblankClock

def positive (field : BitVec 32) : BitVec 32 :=
  if (0#32).slt field then field else 0#32

/-- A time in microseconds, rounded up to milliseconds. -/
def untilMs (untilUs : BitVec 32) : BitVec 64 :=
  (untilUs.signExtend 64 + 999#64).sdiv 1000#64

def handlePacingMsg (clock : VblankClock) (now : BitVec 64) (m : XiosMsg) : VblankClock :=
  if positive m.b < 1000#32 ∨ 250000#32 < positive m.b then clock
  else
    { intervalUs := positive m.b
      deadlineMs := if (0#64).slt (untilMs m.a) then now + untilMs m.a else now
      rxMs := now
      minMfps := positive m.c
      maxMfps := positive m.d }

def stop (clock : VblankClock) : VblankClock :=
  { clock with intervalUs := 0#32, rxMs := 0#64, deadlineMs := 0#64 }

def wholeMs (intervalUs : BitVec 32) : BitVec 64 :=
  let intervalMs := ((intervalUs + 999#32) / 1000#32).setWidth 64
  if intervalMs = 0#64 then 1#64 else intervalMs

/-- The last record is recent enough. -/
def Live (clock : VblankClock) (now : BitVec 64) : Prop :=
  0#32 < clock.intervalUs ∧ 0#64 < clock.rxMs ∧ now - clock.rxMs ≤ vblankStaleMs
  deriving Decidable

/-- The deadline, walked forward in whole intervals until it is in the future. -/
def nextDeadline (clock : VblankClock) (now : BitVec 64) : BitVec 64 :=
  let intervalMs := wholeMs clock.intervalUs
  if clock.deadlineMs ≤ now then
    clock.deadlineMs + ((now - clock.deadlineMs) / intervalMs + 1#64) * intervalMs
  else clock.deadlineMs

def xiosDisplayClock (clock : VblankClock) (now : BitVec 64) : Option ClockReading :=
  if clock.Live now then
    some ⟨clock.nextDeadline now, clock.intervalUs, clock.minMfps, clock.maxMfps⟩
  else none

def leadMs (intervalUs : BitVec 32) : BitVec 64 :=
  (intervalUs / 4#32 / 1000#32).setWidth 64

/-- The time by which a repaint is deferred, with a second look at the time. -/
def repaintDelayMs (clock : VblankClock) (now later : BitVec 64) : Int :=
  match clock.xiosDisplayClock now with
  | none => -1
  | some reading =>
    let lead := leadMs reading.intervalUs
    if reading.nextDeadlineMs ≤ later + lead then -1
    else
      let delay := reading.nextDeadlineMs - lead - later
      let cap := wholeMs reading.intervalUs
      ((if cap < delay then cap else delay).setWidth 32).toInt

/-- What the clock is told. -/
inductive Event where
  -- A record of the app's arrives at some time.
  | pacing (now : BitVec 64) (m : XiosMsg)
  -- The last app goes.
  | stop

def next (clock : VblankClock) : Event → VblankClock
  | .pacing now m => clock.handlePacingMsg now m
  | .stop => clock.stop

/-- A reading of the monotonic clock, whose milliseconds count from the start of the system. -/
def Steady (now : BitVec 64) : Prop :=
  now.toNat < 2 ^ 63

def machine : Machine VblankClock Event where
  start clock := clock = {}
  enabled _ := fun
    | .pacing now _ => Steady now
    | .stop => True
  next := next

def intervalMs (clock : VblankClock) : Nat :=
  (clock.intervalUs.toNat + 999) / 1000

/-- What is told of the next frame. -/
structure Ahead (clock : VblankClock) (now : BitVec 64) (reading : ClockReading) : Prop where
  future : now < reading.nextDeadlineMs
  -- The stored deadline counts until it has passed, and then the first one a few intervals later.
  kept : now < clock.deadlineMs → reading.nextDeadlineMs = clock.deadlineMs
  near : clock.deadlineMs ≤ now → reading.nextDeadlineMs.toNat ≤ now.toNat + clock.intervalMs
  congruent : reading.nextDeadlineMs.toNat ≡ clock.deadlineMs.toNat [MOD clock.intervalMs]
  -- The age of the clock is no negative number.
  age : now.usubOverflow clock.rxMs = false

/-- By how much a repaint is deferred. -/
structure Defers (clock : VblankClock) (now later : BitVec 64) : Prop where
  range : clock.repaintDelayMs now later = -1 ∨
    1 ≤ clock.repaintDelayMs now later ∧ clock.repaintDelayMs now later ≤ clock.intervalMs
  -- Neither subtraction takes more than there is.
  exact : ∀ reading, clock.xiosDisplayClock now = some reading →
    later + leadMs reading.intervalUs < reading.nextDeadlineMs →
    reading.nextDeadlineMs.usubOverflow (leadMs reading.intervalUs) = false ∧
      (reading.nextDeadlineMs - leadMs reading.intervalUs).usubOverflow later = false

/-- What holds between steps. -/
structure Sound (clock : VblankClock) : Prop where
  interval : clock.intervalUs = 0#32 ∨
    1000 ≤ clock.intervalUs.toNat ∧ clock.intervalUs.toNat ≤ 250000
  steady : Steady clock.rxMs

variable {clock : VblankClock} {now later : BitVec 64}

theorem steady_zero : Steady 0#64 :=
  show (0#64).toNat < 2 ^ 63 by decide

theorem Sound.next (sound : clock.Sound) (event : Event) (allowed : machine.enabled clock event) :
    (clock.next event).Sound := by
  cases event with
  | stop => exact ⟨.inl rfl, steady_zero⟩
  | pacing now m =>
    show (clock.handlePacingMsg now m).Sound
    unfold handlePacingMsg
    split
    · exact sound
    · rename_i believed
      simp only [not_or, BitVec.not_lt, BitVec.le_def] at believed
      exact ⟨.inr believed, allowed⟩

theorem sound_of_run {trace : List Event} (run : machine.Run trace clock) : clock.Sound := by
  refine run.invariant (fun _ => Sound) ?_ fun _ _ event sound allowed => sound.next event allowed
  rintro _ rfl
  exact ⟨.inl rfl, steady_zero⟩

theorem Sound.live (sound : clock.Sound) (live : clock.Live now) :
    1000 ≤ clock.intervalUs.toNat ∧ clock.intervalUs.toNat ≤ 250000 := by
  obtain none | bounds := sound.interval
  · exact absurd live.1 (by rw [none]; decide)
  · exact bounds

/-- The clock in words shows what the clock of the client table does. -/
structure Shows (clock : VblankClock) (numbers : DisplayClock) : Prop where
  interval : clock.intervalUs.toNat = numbers.intervalUs
  deadline : clock.deadlineMs.toNat = numbers.deadlineMs
  received : clock.rxMs.toNat = numbers.rxMs
  slowest : clock.minMfps.toNat = numbers.minMfps
  fastest : clock.maxMfps.toNat = numbers.maxMfps

variable {numbers : DisplayClock}

theorem Shows.stop (shows : clock.Shows numbers) : clock.stop.Shows numbers.stop :=
  ⟨rfl, rfl, rfl, shows.slowest, shows.fastest⟩

theorem toNat_positive (field : BitVec 32) :
    (positive field).toNat = DisplayClock.clamped field := by
  have bounded := field.isLt
  unfold positive DisplayClock.clamped
  rw [BitVec.slt_eq_decide]
  split
  · rename_i above
    have above := of_decide_eq_true above
    rw [BitVec.toInt_zero] at above
    rw [BitVec.toInt_eq_toNat_cond] at above ⊢
    split at above <;> omega
  · rename_i below
    have below := of_decide_eq_false (Bool.eq_false_iff.2 below)
    rw [BitVec.toInt_zero] at below
    rw [BitVec.toNat_ofNat]
    omega

theorem toInt_untilMs (untilUs : BitVec 32) :
    (untilMs untilUs).toInt = (untilUs.toInt + 999).tdiv 1000 := by
  have low := BitVec.le_toInt untilUs
  have high := BitVec.toInt_lt (x := untilUs)
  have sum : (untilUs.signExtend 64 + 999#64).toInt = untilUs.toInt + 999 := by
    rw [BitVec.toInt_add, BitVec.toInt_signExtend_of_le (by decide),
      show (999#64).toInt = 999 by decide, Int.bmod_eq_of_le (by omega) (by omega)]
  rw [untilMs, BitVec.toInt_sdiv_of_ne_or_ne _ _ (.inr (by decide)), sum]
  rfl

theorem Shows.handlePacingMsg (shows : clock.Shows numbers)
    (steady : Steady now) (m : XiosMsg) :
    (clock.handlePacingMsg now m).Shows (numbers.handlePacingMsg now.toNat m) := by
  unfold VblankClock.handlePacingMsg DisplayClock.handlePacingMsg
  have bounds : (positive m.b < 1000#32 ∨ 250000#32 < positive m.b) ↔
      (DisplayClock.clamped m.b < 1000 ∨ 250000 < DisplayClock.clamped m.b) := by
    rw [BitVec.lt_def, BitVec.lt_def, toNat_positive]
    rfl
  rw [if_congr bounds rfl rfl]
  split
  · exact shows
  · refine ⟨toNat_positive _, ?_, rfl, toNat_positive _, toNat_positive _⟩
    -- The offset is far smaller than what is left of the time.
    have offset := toInt_untilMs m.a
    have low := BitVec.le_toInt m.a
    have high := BitVec.toInt_lt (x := m.a)
    have near := Int.natAbs_tdiv_le_natAbs (m.a.toInt + 999) 1000
    have words := BitVec.toInt_eq_toNat_cond (untilMs m.a)
    unfold Steady at steady
    dsimp only
    rw [BitVec.slt_eq_decide, BitVec.toInt_zero, ← offset]
    split
    · rename_i ahead
      have ahead := of_decide_eq_true ahead
      have counted : (untilMs m.a).toInt = (untilMs m.a).toNat := by
        split at words <;> omega
      rw [BitVec.toNat_add, counted, Int.toNat_natCast, Nat.mod_eq_of_lt (by omega)]
    · rename_i passed
      have passed := of_decide_eq_false (Bool.eq_false_iff.2 passed)
      omega

def Event.apply : Event → DisplayClock → DisplayClock
  | .pacing now m => (·.handlePacingMsg now.toNat m)
  | .stop => DisplayClock.stop

/-- In every run the clock in machine words is the clock in numbers, and no sum wraps around. -/
theorem words_show_numbers {trace : List Event} (run : machine.Run trace clock) :
    clock.Shows (trace.foldr Event.apply {}) := by
  induction run with
  | start begun => exact begun ▸ ⟨rfl, rfl, rfl, rfl, rfl⟩
  | step event _ allowed shows =>
    cases event with
    | pacing now m => exact shows.handlePacingMsg allowed m
    | stop => exact shows.stop

theorem toNat_wholeMs {intervalUs : BitVec 32} (large : 1000 ≤ intervalUs.toNat)
    (small : intervalUs.toNat ≤ 250000) :
    (wholeMs intervalUs).toNat = (intervalUs.toNat + 999) / 1000 := by
  have whole : (((intervalUs + 999#32) / 1000#32).setWidth 64).toNat =
      (intervalUs.toNat + 999) / 1000 := by
    rw [BitVec.toNat_setWidth, BitVec.toNat_udiv, BitVec.toNat_add,
      show (999#32).toNat = 999 from rfl, show (1000#32).toNat = 1000 from rfl,
      Nat.mod_eq_of_lt (a := intervalUs.toNat + 999) (by omega), Nat.mod_eq_of_lt (by omega)]
  have some : ((intervalUs + 999#32) / 1000#32).setWidth 64 ≠ 0#64 := by
    intro none
    rw [none] at whole
    simp only [BitVec.toNat_ofNat] at whole
    omega
  rw [wholeMs, if_neg some, whole]

theorem toNat_walk (interval : BitVec 64) {deadline : BitVec 64} (passed : deadline ≤ now)
    (some : 0 < interval.toNat) (room : now.toNat + interval.toNat < 2 ^ 64) :
    (deadline + ((now - deadline) / interval + 1#64) * interval).toNat =
      deadline.toNat + ((now.toNat - deadline.toNat) / interval.toNat + 1) * interval.toNat := by
  have behind : (now - deadline).toNat = now.toNat - deadline.toNat := BitVec.toNat_sub_of_le passed
  have order : deadline.toNat ≤ now.toNat := passed
  have whole := Nat.div_mul_le_self (now.toNat - deadline.toNat) interval.toNat
  have few := Nat.div_le_self (now.toNat - deadline.toNat) interval.toNat
  rw [BitVec.toNat_add, BitVec.toNat_mul, BitVec.toNat_add, BitVec.toNat_udiv, behind,
    show (1#64).toNat = 1 from rfl]
  generalize (now.toNat - deadline.toNat) / interval.toNat = steps at whole few ⊢
  have step : (steps + 1) * interval.toNat = steps * interval.toNat + interval.toNat :=
    Nat.succ_mul _ _
  rw [Nat.mod_eq_of_lt (a := steps + 1) (by omega), step,
    Nat.mod_eq_of_lt (a := steps * _ + _) (by omega), Nat.mod_eq_of_lt (by omega)]

/-- The next deadline is later than now and on the grid of the frames. -/
theorem Sound.ahead (sound : clock.Sound) (steady : Steady now) (live : clock.Live now) :
    clock.Ahead now
      ⟨clock.nextDeadline now, clock.intervalUs, clock.minMfps, clock.maxMfps⟩ := by
  obtain ⟨large, small⟩ := sound.live live
  have whole : (wholeMs clock.intervalUs).toNat = clock.intervalMs := toNat_wholeMs large small
  have bound : 1 ≤ clock.intervalMs ∧ clock.intervalMs ≤ 250 := by
    unfold intervalMs
    omega
  unfold Steady at steady
  have age : now.usubOverflow clock.rxMs = false := by
    -- A record of the future would make the clock look very old.
    have stored := sound.steady
    unfold Steady at stored
    have fresh : (now - clock.rxMs).toNat ≤ 250 := live.2.2
    rw [BitVec.toNat_sub] at fresh
    rw [BitVec.usubOverflow, decide_eq_false_iff_not]
    omega
  by_cases passed : clock.deadlineMs ≤ now
  · have walked := toNat_walk (wholeMs clock.intervalUs) passed (by omega) (by omega)
    rw [whole] at walked
    have next : clock.nextDeadline now = clock.deadlineMs +
        ((now - clock.deadlineMs) / wholeMs clock.intervalUs + 1#64) *
          wholeMs clock.intervalUs := if_pos passed
    rw [← next] at walked
    have order : clock.deadlineMs.toNat ≤ now.toNat := passed
    have below := Nat.lt_div_mul_add (a := now.toNat - clock.deadlineMs.toNat) bound.1
    have above := Nat.div_mul_le_self (now.toNat - clock.deadlineMs.toNat) clock.intervalMs
    have step : ((now.toNat - clock.deadlineMs.toNat) / clock.intervalMs + 1) * clock.intervalMs =
        (now.toNat - clock.deadlineMs.toNat) / clock.intervalMs * clock.intervalMs +
          clock.intervalMs := Nat.succ_mul _ _
    refine ⟨?_, fun later => ?_, fun _ => ?_, ?_, age⟩
    · show now.toNat < (clock.nextDeadline now).toNat
      omega
    · exact absurd passed (BitVec.not_le.2 later)
    · show (clock.nextDeadline now).toNat ≤ now.toNat + clock.intervalMs
      omega
    · show (clock.nextDeadline now).toNat ≡ _ [MOD _]
      rw [walked]
      exact (Nat.modEq_iff_dvd' (Nat.le_add_right _ _)).2 (by simp) |>.symm
  · have next : clock.nextDeadline now = clock.deadlineMs := if_neg passed
    rw [next]
    exact ⟨BitVec.not_le.1 passed, fun _ => rfl, fun early => absurd early passed, rfl, age⟩

theorem toNat_leadMs (intervalUs : BitVec 32) :
    (leadMs intervalUs).toNat = intervalUs.toNat / 4000 := by
  have bounded := intervalUs.isLt
  rw [leadMs, BitVec.toNat_setWidth, BitVec.toNat_udiv, BitVec.toNat_udiv,
    show (4#32).toNat = 4 from rfl, show (1000#32).toNat = 1000 from rfl, Nat.div_div_eq_div_mul,
    Nat.mod_eq_of_lt (by omega)]

theorem toInt_setWidth_of_le {delay : BitVec 64} (few : delay.toNat ≤ 250) :
    (delay.setWidth 32).toInt = delay.toNat := by
  have short : (delay.setWidth 32).toNat = delay.toNat := by
    rw [BitVec.toNat_setWidth, Nat.mod_eq_of_lt (by omega)]
  rw [BitVec.toInt_eq_toNat_of_lt (by omega), short]

theorem Sound.defers (sound : clock.Sound) (steady : Steady later) : clock.Defers now later := by
  by_cases live : clock.Live now
  · obtain ⟨large, small⟩ := sound.live live
    have whole : (wholeMs clock.intervalUs).toNat = clock.intervalMs := toNat_wholeMs large small
    have bound : 1 ≤ clock.intervalMs ∧ clock.intervalMs ≤ 250 := by
      unfold intervalMs
      omega
    have lead := toNat_leadMs clock.intervalUs
    have told : clock.xiosDisplayClock now =
        some ⟨clock.nextDeadline now, clock.intervalUs, clock.minMfps, clock.maxMfps⟩ :=
      if_pos live
    unfold Steady at steady
    -- The window of a frame does not reach past the end of time.
    have window : (later + leadMs clock.intervalUs).toNat =
        later.toNat + (leadMs clock.intervalUs).toNat := by
      rw [BitVec.toNat_add, Nat.mod_eq_of_lt (by omega)]
    have left : later + leadMs clock.intervalUs < clock.nextDeadline now →
        (clock.nextDeadline now - leadMs clock.intervalUs).toNat =
            (clock.nextDeadline now).toNat - (leadMs clock.intervalUs).toNat ∧
          later.toNat + (leadMs clock.intervalUs).toNat < (clock.nextDeadline now).toNat := by
      intro early
      have order : (later + leadMs clock.intervalUs).toNat < (clock.nextDeadline now).toNat := early
      rw [window] at order
      exact ⟨BitVec.toNat_sub_of_le (show _ ≤ _ by rw [BitVec.le_def]; omega), order⟩
    constructor
    · rw [repaintDelayMs, told]
      dsimp only
      split
      · exact .inl rfl
      · rename_i early
        obtain ⟨rest, order⟩ := left (BitVec.not_le.1 early)
        have delay : (clock.nextDeadline now - leadMs clock.intervalUs - later).toNat =
            (clock.nextDeadline now).toNat - (leadMs clock.intervalUs).toNat - later.toNat := by
          rw [BitVec.toNat_sub_of_le (show _ ≤ _ by rw [BitVec.le_def]; omega), rest]
        refine .inr ?_
        split
        · rw [toInt_setWidth_of_le (by omega), whole]
          omega
        · rename_i within
          rw [BitVec.not_lt, BitVec.le_def] at within
          rw [toInt_setWidth_of_le (by omega)]
          omega
    · intro reading read early
      obtain rfl := Option.some.inj (told.symm.trans read)
      obtain ⟨rest, order⟩ := left early
      rw [BitVec.usubOverflow, BitVec.usubOverflow, decide_eq_false_iff_not,
        decide_eq_false_iff_not]
      dsimp only
      omega
  · have silent : clock.xiosDisplayClock now = none := if_neg live
    refine ⟨.inl ?_, fun reading read => ?_⟩
    · rw [repaintDelayMs, silent]
    · rw [silent] at read
      cases read

/-- The next frame is near, and no repaint waits for longer than a frame. -/
theorem display_clock {trace : List Event} (run : machine.Run trace clock) (steady : Steady now)
    (steady' : Steady later) :
    (∀ reading, clock.xiosDisplayClock now = some reading → clock.Ahead now reading) ∧
      clock.Defers now later := by
  have sound := sound_of_run run
  refine ⟨fun reading read => ?_, sound.defers steady'⟩
  obtain ⟨live, told⟩ := Option.ite_none_right_eq_some.1 read
  obtain rfl := Option.some.inj told
  exact sound.ahead steady live

/-- A frame is due in five milliseconds, and sixty come in a second. -/
def sixtyHertz : XiosMsg :=
  { magic := msgMagic, type := msgPacing, a := 5000#32, b := 16667#32 }

theorem words_show_numbers_sixtyHertz :
    (VblankClock.handlePacingMsg {} 1000#64 sixtyHertz).Shows
      (DisplayClock.handlePacingMsg {} 1000 sixtyHertz) := by
  have steady : Steady 1000#64 := show (1000#64).toNat < 2 ^ 63 by decide
  exact words_show_numbers
    (Machine.Run.step (m := machine) (.pacing 1000#64 sixtyHertz) (.start rfl) steady)

theorem display_clock_sixtyHertz :
    (∃ reading, (VblankClock.handlePacingMsg {} 1000#64 sixtyHertz).xiosDisplayClock 1030#64 =
        some reading ∧ reading.nextDeadlineMs = 1039#64 ∧
        (VblankClock.handlePacingMsg {} 1000#64 sixtyHertz).Ahead 1030#64 reading) ∧
      (VblankClock.handlePacingMsg {} 1000#64 sixtyHertz).repaintDelayMs 1030#64 1030#64 = 5 ∧
      (VblankClock.handlePacingMsg {} 1000#64 sixtyHertz).Defers 1030#64 1030#64 := by
  have early : Steady 1030#64 := show (1030#64).toNat < 2 ^ 63 by decide
  have run := Machine.Run.step (m := machine) (.pacing 1000#64 sixtyHertz) (.start rfl)
    (show (1000#64).toNat < 2 ^ 63 by decide)
  have clock := display_clock run early early
  exact ⟨⟨⟨1039#64, 16667#32, 0#32, 0#32⟩, by decide, rfl, clock.1 _ (by decide)⟩, by decide,
    clock.2⟩

end VblankClock

end Xios
