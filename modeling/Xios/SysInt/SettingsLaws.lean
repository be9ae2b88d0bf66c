import Xios.Lib.Newest
import Xios.SysInt.Settings

/-! The polls return the settings in order, and the last one is never lost. -/

namespace Xios

open Newest

namespace SettingPolls

variable {s : SettingPolls} {wanted setting : DeviceSetting}

/-- Every setting is handed over in order, and the newest one is handed over or put aside. -/
def Sound (s : SettingPolls) : Prop :=
  ∀ setting, Newest.Kept (s.values setting) (s.returned setting) (s.pending setting)

@[simp] theorem other_ne (setting : DeviceSetting) : setting.other ≠ setting := by
  cases setting <;> decide

theorem eq_or_eq_other (setting wanted : DeviceSetting) :
    setting = wanted ∨ setting = wanted.other := by
  cases setting <;> cases wanted <;> decide

@[simp] theorem values_setPending (s : SettingPolls) (v : Option Nat) :
    (s.setPending wanted v).values setting = s.values setting := rfl

theorem values_receive (s : SettingPolls) (m : XiosMsg) (setting : DeviceSetting) :
    ({ s with received := s.received ++ [m] } : SettingPolls).values setting =
      s.values setting ++ (setting.value m).toList := by
  cases known : setting.value m <;> simp [values, List.filterMap_append, known]

/--
What the look for a setting does.

A setting that is found is the last one received, nothing was put aside for it, and whatever else
came is accounted for.
-/
structure Looked (s : SettingPolls) (wanted : DeviceSetting) (result : Option Nat × SettingPolls) :
    Prop where
  returned : result.2.returned = s.returned
  pending : result.2.pending wanted = none
  found : result.2.values wanted = s.values wanted ++ result.1.toList
  other : Newest.Kept (result.2.values wanted.other) (s.returned wanted.other)
    (result.2.pending wanted.other)
  grows : s.values wanted.other <+: result.2.values wanted.other
  same : result.2.values wanted.other = s.values wanted.other →
    result.2.pending wanted.other = s.pending wanted.other

theorem looked_nothing (free : s.pending wanted = none)
    (kept : Newest.Kept (s.values wanted.other) (s.returned wanted.other) (s.pending wanted.other)) :
    Looked s wanted (none, s) :=
  ⟨rfl, free, (List.append_nil _).symm, kept, List.prefix_refl _, fun _ => rfl⟩

theorem Looked.of_setLink {l : SiLink} {result : Option Nat × SettingPolls}
    (looked : Looked (s.setLink l) wanted result) : Looked s wanted result :=
  ⟨looked.returned, looked.pending, looked.found, looked.other, looked.grows, looked.same⟩

theorem looked_putAside (free : s.pending wanted = none)
    (kept : Newest.Kept (s.values wanted.other) (s.returned wanted.other) (s.pending wanted.other))
    {m : XiosMsg} (unwanted : wanted.value m = none) :
    Looked s wanted (none, { s with received := s.received ++ [m] }.putAside wanted m) := by
  have wanted' := values_receive s m wanted
  have other' := values_receive s m wanted.other
  rw [unwanted] at wanted'
  unfold putAside
  cases known : wanted.other.value m with
  | none =>
    rw [known, Option.toList_none, List.append_nil] at other'
    refine ⟨rfl, free, wanted', ?_, ?_, fun _ => rfl⟩
    · dsimp only
      rw [other']
      exact kept
    · simp only [other']
      exact List.prefix_refl _
  | some v =>
    rw [known] at other'
    refine ⟨rfl, ?_, wanted', ?_, ?_, ?_⟩
    · show Function.update s.pending wanted.other (some v) wanted = none
      rw [Function.update_of_ne (other_ne wanted).symm]
      exact free
    · rw [values_setPending, other']
      show Newest.Kept _ _ (Function.update s.pending wanted.other (some v) wanted.other)
      rw [Function.update_self]
      exact kept.stash v
    · rw [values_setPending, other']
      exact List.prefix_append _ _
    · intro unchanged
      -- The value that was put aside has been received.
      rw [values_setPending, other'] at unchanged
      have longer := congrArg List.length unchanged
      simp at longer

theorem Looked.trans {s' : SettingPolls} {result : Option Nat × SettingPolls}
    (first : Looked s wanted (none, s')) (later : Looked s' wanted result) :
    Looked s wanted result where
  returned := later.returned.trans first.returned
  pending := later.pending
  found := by
    have before := first.found
    rw [Option.toList_none, List.append_nil] at before
    rw [later.found, before]
  other := by
    have kept := later.other
    rwa [first.returned] at kept
  grows := first.grows.trans later.grows
  same := by
    intro unchanged
    -- What is the same at the end has been the same in between.
    have between : s'.values wanted.other = s.values wanted.other :=
      (first.grows.eq_of_length_le (unchanged ▸ later.grows.length_le)).symm
    rw [later.same (unchanged.trans between.symm), first.same between]

theorem looked_pollLoop (wanted : DeviceSetting) (answers : List PollAnswer)
    (free : s.pending wanted = none)
    (kept : Newest.Kept (s.values wanted.other) (s.returned wanted.other) (s.pending wanted.other)) :
    Looked s wanted (pollLoop wanted s answers) := by
  -- The induction follows the records that the loop looks at.
  induction answers generalizing s with
  | nil => exact looked_nothing free kept
  | cons answer rest ih =>
    unfold pollLoop
    dsimp only
    generalize (s.handle.link .sysint).pollMsg .sysint answer.attempt
      (s.handle.remembered .sysint) answer.writes answer.reads = polled
    apply Looked.of_setLink (l := polled.2)
    cases polled.1 with
    | none => exact looked_nothing free kept
    | some m =>
      dsimp only
      cases known : wanted.value m with
      | some v =>
        -- The record is what was looked for, so that it sets nothing else.
        have found := values_receive (s.setLink polled.2) m wanted
        have other := values_receive (s.setLink polled.2) m wanted.other
        rw [known] at found
        rw [DeviceSetting.value_other known, Option.toList_none, List.append_nil] at other
        refine ⟨rfl, free, found, ?_, ?_, fun _ => rfl⟩
        · dsimp only
          rw [other]
          exact kept
        · simp only [other]
          exact List.prefix_refl _
      | none =>
        have aside := looked_putAside (s := s.setLink polled.2) free kept known
        refine aside.trans (ih aside.pending ?_)
        have same := aside.returned
        rw [same]
        exact aside.other

theorem looked_pollSet (sound : s.Sound) (free : s.pending wanted = none) (first : PollAnswer)
    (answers : List PollAnswer) : Looked s wanted (s.pollSet wanted first answers) := by
  unfold pollSet
  rw [free]
  dsimp only
  apply Looked.of_setLink
    (l := ((s.handle.link .sysint).ensure first.attempt (s.handle.remembered .sysint)
      first.writes).2.1)
  split
  · exact looked_nothing free (sound wanted.other)
  · exact looked_pollLoop wanted answers free (sound wanted.other)

theorem pollSet_some {v : Nat} (aside : s.pending wanted = some v) (first : PollAnswer)
    (answers : List PollAnswer) :
    s.pollSet wanted first answers = (some v, s.setPending wanted none) := by
  unfold pollSet
  rw [aside]

theorem poll_eq (s : SettingPolls) (first : PollAnswer) (answers : List PollAnswer)
    (wanted : DeviceSetting) : s.poll first answers wanted = s.pollSet wanted first answers := by
  cases wanted <;> rfl

theorem Sound.poll (sound : s.Sound) (wanted : DeviceSetting) (first : PollAnswer)
    (answers : List PollAnswer) : (noteReturned wanted (s.pollSet wanted first answers)).Sound := by
  intro setting
  cases aside : s.pending wanted with
  | some v =>
    rw [pollSet_some aside]
    rcases eq_or_eq_other setting wanted with rfl | rfl
    · have kept := sound setting
      rw [aside] at kept
      simp only [noteReturned, setPending, Function.update_self, Option.toList_some]
      exact kept.take
    · simp only [noteReturned, setPending, Function.update_of_ne (other_ne wanted)]
      exact sound wanted.other
  | none =>
    have looked := looked_pollSet sound aside first answers
    generalize s.pollSet wanted first answers = result at looked
    rcases eq_or_eq_other setting wanted with rfl | rfl
    · have kept := sound setting
      rw [aside] at kept
      simp only [noteReturned, Function.update_self, looked.pending, looked.returned]
      show Newest.Kept (result.2.values setting) _ none
      rw [looked.found]
      cases result.1 with
      | none => simpa using kept
      | some v => exact kept.handOver v
    · simp only [noteReturned, Function.update_of_ne (other_ne wanted), looked.returned]
      exact looked.other

/-- Every call keeps everything accounted for. -/
theorem Sound.next (sound : s.Sound) (event : Event) : (s.next event).Sound := by
  cases event with
  | poll wanted first answers =>
    show (noteReturned wanted (s.poll first answers wanted)).Sound
    rw [poll_eq]
    exact sound.poll wanted first answers
  | other event => exact sound

theorem sound_of_run {trace : List Event} (run : machine.Run trace s) : s.Sound := by
  refine run.invariant (fun _ s => s.Sound) ?_ ?_
  · intro s begun
    obtain ⟨handle, -, rfl⟩ := begun
    exact fun _ => kept_nil
  · intro _ s event sound _
    exact sound.next event

theorem pending_pollSet (sound : s.Sound) (wanted : DeviceSetting) (first : PollAnswer)
    (answers : List PollAnswer) : (s.pollSet wanted first answers).2.pending wanted = none := by
  cases aside : s.pending wanted with
  | some v =>
    rw [pollSet_some aside]
    exact Function.update_self ..
  | none => exact (looked_pollSet sound aside first answers).pending

theorem next_keeps (sound : s.Sound) (event : Event) (setting : DeviceSetting) :
    s.values setting <+: (s.next event).values setting ∧
      ((s.next event).values setting = s.values setting → s.pending setting = none →
        (s.next event).pending setting = none) := by
  cases event with
  | other event => exact ⟨List.prefix_refl _, fun _ free => free⟩
  | poll wanted first answers =>
    show s.values setting <+: (s.poll first answers wanted).2.values setting ∧
      ((s.poll first answers wanted).2.values setting = s.values setting →
        s.pending setting = none → (s.poll first answers wanted).2.pending setting = none)
    rw [poll_eq]
    rcases eq_or_eq_other setting wanted with rfl | rfl
    · refine ⟨?_, fun _ _ => pending_pollSet sound setting first answers⟩
      cases aside : s.pending setting with
      | some v =>
        rw [pollSet_some aside]
        exact List.prefix_refl _
      | none =>
        rw [(looked_pollSet sound aside first answers).found]
        exact List.prefix_append _ _
    · cases aside : s.pending wanted with
      | some v =>
        rw [pollSet_some aside]
        refine ⟨List.prefix_refl _, ?_⟩
        intro _ free
        show Function.update s.pending wanted none wanted.other = none
        rw [Function.update_of_ne (other_ne wanted)]
        exact free
      | none =>
        have looked := looked_pollSet sound aside first answers
        exact ⟨looked.grows, fun unchanged free => (looked.same unchanged).trans free⟩

theorem script_keeps (sound : s.Sound) (script : List Event) (setting : DeviceSetting) :
    (script.foldl SettingPolls.next s).Sound ∧
      s.values setting <+: (script.foldl SettingPolls.next s).values setting ∧
      ((script.foldl SettingPolls.next s).values setting = s.values setting →
        s.pending setting = none → (script.foldl SettingPolls.next s).pending setting = none) := by
  induction script generalizing s with
  | nil => exact ⟨sound, List.prefix_refl _, fun _ free => free⟩
  | cons event rest ih =>
    obtain ⟨grows, keeps⟩ := next_keeps sound event setting
    obtain ⟨sound', grows', keeps'⟩ := ih (sound.next event)
    refine ⟨sound', grows.trans grows', ?_⟩
    intro unchanged free
    have between : (s.next event).values setting = s.values setting :=
      (grows.eq_of_length_le (unchanged ▸ grows'.length_le)).symm
    exact keeps' (unchanged.trans between.symm) (keeps between free)

/--
The polls lose no setting.

What the polls for a setting return came in this order, and each value is returned at most once.
Once a poll comes to nothing, the last value returned is the last one received, and it remains so
whatever else is called, until the next value of this kind is received.
-/
theorem settings_kept {trace : List Event} (run : machine.Run trace s) (setting : DeviceSetting) :
    (s.returned setting).Sublist (s.values setting) ∧
      ∀ (first : PollAnswer) (answers : List PollAnswer) (script : List Event),
        (s.poll first answers setting).1 = none →
        let polled := s.next (.poll setting first answers)
        let after := script.foldl SettingPolls.next polled
        after.values setting = polled.values setting →
        (after.returned setting).getLast? = (after.values setting).getLast? := by
  have sound := sound_of_run run
  refine ⟨(sound setting).sublist, ?_⟩
  intro first answers script _ polled after unchanged
  have free : polled.pending setting = none := by
    show (s.poll first answers setting).2.pending setting = none
    rw [poll_eq]
    exact pending_pollSet sound setting first answers
  obtain ⟨sound', -, keeps⟩ := script_keeps (sound.next (.poll setting first answers)) script setting
  have kept := sound' setting
  rw [keeps unchanged free] at kept
  exact kept.last_returned

def opened : SettingPolls :=
  { handle := { link := fun _ => { configured := true } } }

def brighten : XiosMsg :=
  .input inBrightness 0#32 0#32 65535#32 1#32 0#32

def brightened : List Event :=
  [.poll .brightness ⟨⟨1, true⟩, [], []⟩
    [⟨⟨1, true⟩, [], [.data 0x31 (XiosMsg.hello.encode.drop 1), .data 0x31 (brighten.encode.drop 1)]⟩]]

theorem settings_kept_brightened :
    (((brightened.foldl SettingPolls.next opened).next
      (.poll .brightness ⟨⟨1, true⟩, [], []⟩ [])).returned .brightness).getLast? = some 65535 := by
  have run : machine.Run brightened.reverse (brightened.foldl SettingPolls.next opened) :=
    .of_script (m := machine) (s := opened) ⟨_, ⟨fun _ => true, rfl⟩, rfl⟩ brightened
      ⟨trivial, trivial⟩
  have last := (settings_kept run .brightness).2 ⟨⟨1, true⟩, [], []⟩ [] [] (by decide) rfl
  exact last.trans (by decide)

/-- Both polls may have come to nothing while a setting is still put aside. -/
theorem not_both_empty :
    ¬∀ (trace : List Event) (s : SettingPolls), machine.Run trace s →
      ∀ (wanted : DeviceSetting) (first second : PollAnswer) (answers answers' : List PollAnswer),
        (s.poll first answers wanted).1 = none →
        ((s.next (.poll wanted first answers)).poll second answers' wanted.other).1 = none →
        ∀ setting,
          let after := (s.next (.poll wanted first answers)).next
            (.poll wanted.other second answers')
          (after.returned setting).getLast? = (after.values setting).getLast? := by
  intro both
  have run : machine.Run [] opened := .start ⟨_, ⟨fun _ => true, rfl⟩, rfl⟩
  have last := both [] opened run .brightness ⟨⟨1, true⟩, [], []⟩ ⟨⟨1, true⟩, [], []⟩
    [⟨⟨1, true⟩, [], [.data 0x31 (XiosMsg.hello.encode.drop 1)]⟩]
    [⟨⟨1, true⟩, [], [.data 0x31 (brighten.encode.drop 1)]⟩] (by decide) (by decide) .brightness
  exact absurd last (by decide)

end SettingPolls

end Xios
