import Xios.Seat.Shift

/-! The Shift key that shifted symbols need goes down and up equally often. -/

namespace Xios

/-- No key is held twice. -/
def KeysApart (held : List KeymapEntry) : Prop :=
  held.Pairwise fun entry other => entry.evdev ≠ other.evdev

def shiftsHeld (held : List KeymapEntry) : Nat :=
  held.countP (·.shift)

theorem shiftsHeld_others {held : List KeymapEntry} {evdev : Nat}
    (plain : ∀ other ∈ held, other.evdev = evdev → other.shift = false) :
    shiftsHeld (held.filter fun other => other.evdev ≠ evdev) = shiftsHeld held := by
  unfold shiftsHeld
  rw [List.countP_filter]
  apply List.countP_congr
  intro other member
  by_cases same : other.evdev = evdev
  · simp [plain other member same]
  · simp [same]

theorem shiftsHeld_of_held {held : List KeymapEntry} (apart : KeysApart held) {evdev : Nat}
    (needs : ∃ other ∈ held, other.evdev = evdev ∧ other.shift = true) :
    shiftsHeld held = shiftsHeld (held.filter fun other => other.evdev ≠ evdev) + 1 := by
  induction held with
  | nil => simp at needs
  | cons entry held ih =>
    obtain ⟨first, apart⟩ := List.pairwise_cons.mp apart
    by_cases same : entry.evdev = evdev
    · -- This is the key, and no other entry is about it.
      subst same
      have plain : ∀ other ∈ held, other.evdev = entry.evdev → other.shift = false :=
        fun other member equal => absurd equal.symm (first other member)
      have shifted : entry.shift = true := by
        obtain ⟨other, member, equal, shifted⟩ := needs
        rcases List.mem_cons.mp member with rfl | member
        · exact shifted
        · exact absurd equal.symm (first other member)
      have rest := shiftsHeld_others plain
      unfold shiftsHeld at rest ⊢
      rw [List.countP_cons, List.filter_cons_of_neg (by simp), rest, if_pos shifted]
    · have later : ∃ other ∈ held, other.evdev = evdev ∧ other.shift = true := by
        obtain ⟨other, member, equal, shifted⟩ := needs
        rcases List.mem_cons.mp member with rfl | member
        · exact absurd equal same
        · exact ⟨other, member, equal, shifted⟩
      have counted := ih apart later
      unfold shiftsHeld at counted ⊢
      rw [List.countP_cons, List.filter_cons_of_pos (by simpa using same), List.countP_cons,
        counted]
      omega

theorem KeysApart.note {held : List KeymapEntry} (apart : KeysApart held) (keymap : Keymap)
    (record : KeyRecord) : KeysApart (record.note keymap held) := by
  unfold KeyRecord.note
  split
  · exact apart
  · rename_i entry found
    have others : KeysApart (held.filter fun other => other.evdev ≠ entry.evdev) :=
      apart.filter _
    split
    · refine List.pairwise_cons.mpr ⟨fun other member => ?_, others⟩
      have different := (List.mem_filter.mp member).2
      exact Ne.symm (by simpa using different)
    · exact others

theorem keysApart_heldKeys (keymap : Keymap) (log : List KeyTrace) :
    KeysApart (heldKeys keymap log) := by
  induction log with
  | nil => exact .nil
  | cons entry log ih =>
    cases entry with
    | record record => exact ih.note keymap record
    | mods depressed locked => exact ih
    | key evdev pressed => exact ih
    | shift pressed => exact ih

/-- Two logs that say the same about Shift. -/
structure SameShift (keymap : Keymap) (log later : List KeyTrace) : Prop where
  count : ∀ pressed, shiftCount pressed later = shiftCount pressed log
  held : heldKeys keymap later = heldKeys keymap log
  kept : ShiftKept keymap later ↔ ShiftKept keymap log

namespace SameShift

variable {keymap : Keymap} {log later : List KeyTrace}

theorem refl (keymap : Keymap) (log : List KeyTrace) : SameShift keymap log log :=
  ⟨fun _ => rfl, rfl, Iff.rfl⟩

theorem mods (keymap : Keymap) (log : List KeyTrace) (depressed locked : BitVec 32) :
    SameShift keymap log (.mods depressed locked :: log) :=
  ⟨fun _ => List.count_cons_of_ne (by simp), rfl, Iff.rfl⟩

theorem key (keymap : Keymap) (log : List KeyTrace) (evdev : Nat) (pressed : Bool) :
    SameShift keymap log (.key evdev pressed :: log) :=
  ⟨fun _ => List.count_cons_of_ne (by simp), rfl, Iff.rfl⟩

end SameShift

/-- What the log says about Shift as long as the records agree. -/
structure ShiftSound (keymap : Keymap) (log : List KeyTrace) : Prop where
  -- The Shift key went down once more for each key that is held and needs it.
  owed : shiftCount true log = shiftCount false log + shiftsHeld (heldKeys keymap log)
  -- It went up only when no key needed it.
  kept : ShiftKept keymap log

theorem SameShift.sound {keymap : Keymap} {log later : List KeyTrace}
    (same : SameShift keymap log later) (sound : ShiftSound keymap log) :
    ShiftSound keymap later where
  owed := by
    rw [same.count, same.count, same.held]
    exact sound.owed
  kept := same.kept.mpr sound.kept

theorem ShiftSound.balanced {keymap : Keymap} {log : List KeyTrace}
    (sound : ShiftSound keymap log) : ShiftBalanced keymap log := by
  intro released
  have owed := sound.owed
  rw [released] at owed
  exact owed

namespace FocusedKeyboard

variable (keymap : Keymap)

theorem keyboardSendMods_same (k : FocusedKeyboard) (depressed locked : BitVec 32) :
    SameShift keymap k.log (k.keyboardSendMods depressed locked).log ∧
      (k.keyboardSendMods depressed locked).kbdFocus = k.kbdFocus ∧
      (k.keyboardSendMods depressed locked).grabbed = k.grabbed := by
  unfold keyboardSendMods
  split
  · exact ⟨.refl keymap k.log, rfl, rfl⟩
  · exact ⟨.mods keymap k.log depressed locked, rfl, rfl⟩

variable {keymap}

theorem keyboardSendRawKey_of_focus {k : FocusedKeyboard} (focused : k.kbdFocus ≠ none)
    (evdev : Nat) (pressed : Bool) :
    k.keyboardSendRawKey evdev pressed = { k with log := .key evdev pressed :: k.log } :=
  if_neg focused

theorem keyboardSendShift_of_focus {k : FocusedKeyboard} (focused : k.kbdFocus ≠ none)
    (pressed : Bool) : k.keyboardSendShift pressed = { k with log := .shift pressed :: k.log } :=
  if_neg focused

/-- A key with Shift is told between its press of Shift and the release. -/
theorem handleKey_log {k : FocusedKeyboard} (focused : k.kbdFocus ≠ none) (free : k.grabbed = false)
    (record : KeyRecord) {entry : KeymapEntry} (found : keymap.lookup record.keysym = some entry) :
    ∃ before, SameShift keymap k.log before ∧
      SameShift keymap
        (if entry.shift then .shift (record.state ≠ 0#32) :: before else before)
        (handleKey keymap k record).log := by
  simp only [handleKey, focused, found, free, ↓reduceIte, Bool.false_eq_true]
  by_cases pressed : record.state ≠ 0#32
  · -- The modifiers come first, and the key itself last.
    simp only [pressed, ne_eq, not_false_eq_true, decide_true, ↓reduceIte]
    obtain ⟨same, focus, -⟩ := keyboardSendMods_same keymap k
      (keyboardMasksFromApp keymap.mods record.appmods (true && entry.shift)).1
      (keyboardMasksFromApp keymap.mods record.appmods (true && entry.shift)).2
    rw [← focus] at focused
    generalize k.keyboardSendMods _ _ = sent at same focused ⊢
    refine ⟨_, same, ?_⟩
    cases entry.shift with
    | true =>
      have shifted : (sent.keyboardSendShift true).kbdFocus ≠ none := by
        rw [keyboardSendShift_of_focus focused]
        exact focused
      rw [if_pos rfl, if_pos rfl, keyboardSendRawKey_of_focus shifted,
        keyboardSendShift_of_focus focused]
      exact .key ..
    | false =>
      rw [if_neg Bool.false_ne_true, if_neg Bool.false_ne_true, keyboardSendRawKey_of_focus focused]
      exact .key ..
  · -- The key itself comes first, and the modifiers last.
    have released : decide (record.state ≠ 0#32) = false := by simpa using pressed
    simp only [released, Bool.false_eq_true, ↓reduceIte]
    have same : SameShift keymap k.log (k.keyboardSendRawKey entry.evdev false).log := by
      rw [keyboardSendRawKey_of_focus focused]
      exact .key ..
    have focused : (k.keyboardSendRawKey entry.evdev false).kbdFocus ≠ none := by
      rw [keyboardSendRawKey_of_focus focused]
      exact focused
    generalize k.keyboardSendRawKey entry.evdev false = sent at same focused ⊢
    refine ⟨_, same, ?_⟩
    cases entry.shift with
    | true =>
      rw [if_pos rfl, if_pos rfl, keyboardSendShift_of_focus focused]
      exact (keyboardSendMods_same keymap { sent with log := .shift false :: sent.log } _ _).1
    | false =>
      rw [if_neg Bool.false_ne_true, if_neg Bool.false_ne_true]
      exact (keyboardSendMods_same keymap _ _ _).1

theorem handleKey_focus (keymap : Keymap) (k : FocusedKeyboard) (record : KeyRecord) :
    (handleKey keymap k record).kbdFocus = k.kbdFocus ∧
      (handleKey keymap k record).grabbed = k.grabbed := by
  unfold handleKey keyboardSendMods keyboardSendShift keyboardSendRawKey
  grind

end FocusedKeyboard

theorem ShiftSound.record {keymap : Keymap} {log before : List KeyTrace}
    (sound : ShiftSound keymap log) {record : KeyRecord}
    (agrees : record.Agrees keymap (heldKeys keymap log)) {entry : KeymapEntry}
    (found : keymap.lookup record.keysym = some entry)
    (same : SameShift keymap (.record record :: log) before) :
    ShiftSound keymap
      (if entry.shift then .shift (record.state ≠ 0#32) :: before else before) := by
  have agrees := agrees entry found
  have owed := sound.owed
  have count (pressed : Bool) : shiftCount pressed before = shiftCount pressed log :=
    (same.count pressed).trans (List.count_cons_of_ne (by simp))
  have kept : ShiftKept keymap before := same.kept.mpr sound.kept
  have held : heldKeys keymap before = record.note keymap (heldKeys keymap log) := same.held
  have apart := keysApart_heldKeys keymap log
  simp only [KeyRecord.note, found] at held
  by_cases pressed : record.state ≠ 0#32
  · rw [if_pos pressed] at agrees held
    have others := shiftsHeld_others agrees
    have now : shiftsHeld (heldKeys keymap before) =
        shiftsHeld (heldKeys keymap log) + if entry.shift then 1 else 0 := by
      rw [held, ← others]
      exact List.countP_cons
    cases needs : entry.shift with
    | true =>
      -- Shift goes down for one key more.
      have down : decide (record.state ≠ 0#32) = true := by simpa using pressed
      rw [if_pos rfl, down]
      refine ⟨?_, kept⟩
      rw [needs, if_pos rfl] at now
      simp only [shiftCount, heldKeys, List.count_cons] at count owed ⊢
      simp [count, now, owed]
      omega
    | false =>
      refine ⟨?_, kept⟩
      rw [needs] at now
      simpa [count, now] using owed
  · rw [if_neg pressed] at agrees held
    obtain ⟨needed, alone⟩ := agrees
    cases needs : entry.shift with
    | true =>
      -- Shift goes up for one key less, and for the last one that needed it.
      have up : decide (record.state ≠ 0#32) = false := by simpa using pressed
      have less := shiftsHeld_of_held apart (needed.mp needs)
      rw [if_pos rfl, up]
      refine ⟨?_, ?_, kept⟩
      · rw [← held] at less
        simp only [shiftCount, heldKeys, List.count_cons] at count owed ⊢
        simp [count, owed]
        omega
      · intro other member
        rw [held, List.mem_filter] at member
        exact alone needs other member.1 (by simpa using member.2)
    | false =>
      have plain : ∀ other ∈ heldKeys keymap log, other.evdev = entry.evdev →
          other.shift = false := by
        intro other member same
        by_contra shifted
        have needs' := needed.mpr ⟨other, member, same, by simpa using shifted⟩
        rw [needs] at needs'
        nomatch needs'
      have others := shiftsHeld_others plain
      refine ⟨?_, kept⟩
      rw [← held] at others
      simpa [count, others] using owed

namespace FocusedKeyboard

variable {keymap : Keymap}

/-- The invariant of the runs in which all records agree with the held keys. -/
structure Careful (keymap : Keymap) (k : FocusedKeyboard) : Prop where
  focused : k.kbdFocus ≠ none
  free : k.grabbed = false
  sound : ShiftSound keymap k.log

/-- A record that agrees is handled well. -/
theorem Careful.next {k : FocusedKeyboard} (careful : k.Careful keymap) {record : KeyRecord}
    (agrees : record.Agrees keymap (heldKeys keymap k.log)) :
    (k.next keymap record).Careful keymap := by
  obtain ⟨focus, grab⟩ := handleKey_focus keymap
    { k with log := .record record :: k.log } record
  refine ⟨by rw [FocusedKeyboard.next, focus]; exact careful.focused,
    by rw [FocusedKeyboard.next, grab]; exact careful.free, ?_⟩
  cases found : keymap.lookup record.keysym with
  | none =>
    -- A symbol that the keyboard does not have is left out on both sides.
    have skipped : k.next keymap record = { k with log := .record record :: k.log } := by
      simp [FocusedKeyboard.next, handleKey, careful.focused, found]
    have same : SameShift keymap k.log (.record record :: k.log) :=
      ⟨fun _ => List.count_cons_of_ne (by simp), by simp [heldKeys, KeyRecord.note, found], Iff.rfl⟩
    rw [skipped]
    exact same.sound careful.sound
  | some entry =>
    obtain ⟨before, same, later⟩ := handleKey_log (k := { k with log := .record record :: k.log })
      careful.focused careful.free record found
    exact later.sound (careful.sound.record agrees found same)

theorem Focused.careful {k : FocusedKeyboard} (focused : k.Focused) : k.Careful keymap where
  focused := Option.isSome_iff_ne_none.mp focused.focus
  free := focused.grabbed
  sound := by
    rw [focused.log]
    exact ⟨rfl, trivial⟩

def agreeing (keymap : Keymap) : Machine FocusedKeyboard KeyRecord :=
  (machine keymap).restrict fun k record => record.Agrees keymap (heldKeys keymap k.log)

instance (keymap : Keymap) (k : FocusedKeyboard) (record : KeyRecord) :
    Decidable ((agreeing keymap).enabled k record) :=
  inferInstanceAs (Decidable (True ∧ record.Agrees keymap (heldKeys keymap k.log)))

/-- As long as the records agree with the keys that are held, the Shift key goes up as often as it
went down once all keys are released, and never while a key that is held needs it. -/
theorem shift_balanced {trace : List KeyRecord} {k : FocusedKeyboard}
    (run : (agreeing keymap).Run trace k) :
    ShiftBalanced keymap k.log ∧ ShiftKept keymap k.log := by
  have careful : k.Careful keymap :=
    run.invariant (fun _ k => k.Careful keymap) (fun _ begun => Focused.careful begun)
      fun _ _ _ careful allowed => careful.next allowed.2
  exact ⟨careful.sound.balanced, careful.sound.kept⟩

def twoKeys : Keymap where
  lookup
    | 97 => some ⟨30, false⟩
    | 65 => some ⟨30, true⟩
    | 98 => some ⟨48, false⟩
    | 66 => some ⟨48, true⟩
    | _ => none
  mods := ⟨1#32, 4#32, 8#32, 64#32, 2#32, 16#32⟩

/-- A key goes down or up while the user holds no modifier. -/
def keyDown (keysym : Nat) : KeyRecord :=
  ⟨keysym, 1#32, 0#32⟩

def keyUp (keysym : Nat) : KeyRecord :=
  ⟨keysym, 0#32, 0#32⟩

def overlapping : List KeyRecord :=
  [keyDown 97, keyDown 66, keyDown 97, keyUp 66, keyUp 97]

def otherCase : List KeyRecord :=
  [keyDown 65, keyUp 97]

theorem shift_balanced_overlapping :
    ShiftBalanced twoKeys (overlapping.foldl (next twoKeys) { kbdFocus := some 0 }).log ∧
      ShiftKept twoKeys (overlapping.foldl (next twoKeys) { kbdFocus := some 0 }).log :=
  shift_balanced (Machine.Run.of_script (m := agreeing twoKeys) ⟨rfl, rfl, rfl⟩ overlapping
    (by decide))

theorem not_shift_balanced :
    ¬ ∀ (keymap : Keymap) (trace : List KeyRecord) (k : FocusedKeyboard),
      (machine keymap).Run trace k → ShiftBalanced keymap k.log ∧ ShiftKept keymap k.log := by
  intro balanced
  have run := Machine.Run.of_script (m := machine twoKeys) (s := { kbdFocus := some 0 })
    ⟨rfl, rfl, rfl⟩ otherCase (Machine.admits_of_enabled (fun _ _ => trivial) _ _)
  exact absurd ((balanced twoKeys _ _ run).1 (by decide)) (by decide)

end FocusedKeyboard

end Xios
