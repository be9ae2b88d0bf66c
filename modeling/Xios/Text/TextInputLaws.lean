import Xios.Text.TextInput

/-! The input method and the hosts know the field with the keyboard focus, if it was enabled there. -/

namespace Xios

open Visit

namespace InputMethod

/-- Being turned on and off alternate, and the flag tells what came last. -/
structure Regular (im : InputMethod) : Prop where
  -- Being turned on comes first.
  alternates : Alternates im.activations
  -- The flag is set between being turned on and off.
  active : im.active = (current im.activations).isSome

theorem activations_tell (im : InputMethod) (event : InputMethodEvent) :
    (im.tell event).activations = event.activation?.toList ++ im.activations := by
  unfold activations tell
  cases event <;> rfl

theorem activations_sendRectangles (im : InputMethod) (field : FieldState) :
    (im.sendRectangles field).activations = im.activations := by
  unfold sendRectangles
  generalize im.popups = popups
  induction popups generalizing im with
  | nil => rfl
  | cons popup popups ih =>
    rw [List.foldl_cons, ih, activations_tell]
    rfl

theorem activations_sendState (im : InputMethod) (ti : TextInput) (activate : Bool) :
    (im.sendState ti activate).activations =
      if activate then .enter () :: im.activations else im.activations := by
  unfold sendState
  rw [activations_sendRectangles]
  cases activate <;> rfl

theorem active_updateActive (im : InputMethod) (field : Option TextInput) :
    (im.updateActive field).active = field.isSome := by
  cases field with
  | some ti => rfl
  | none =>
    unfold updateActive
    cases on : im.active <;> simp [on, clearPending]

theorem Regular.updateActive {im : InputMethod} (regular : im.Regular)
    (field : Option TextInput) : (im.updateActive field).Regular := by
  obtain ⟨alternates, active⟩ := regular
  cases field with
  | some ti =>
    have events : (im.updateActive (some ti)).activations =
        if !im.active then .enter () :: im.activations else im.activations :=
      activations_sendState im ti (!im.active)
    cases on : im.active with
    | true =>
      rw [on] at active events
      exact ⟨by rw [events]; exact alternates, by rw [events]; exact active⟩
    | false =>
      rw [on] at active events
      have free : current im.activations = none := by simpa using active.symm
      exact ⟨by rw [events]; exact alternates.enter free (), by rw [events]; rfl⟩
  | none =>
    cases on : im.active with
    | true =>
      rw [on] at active
      obtain ⟨_, held⟩ := Option.isSome_iff_exists.mp active.symm
      have events : (im.updateActive none).activations = .leave () :: im.activations := by
        simp only [InputMethod.updateActive, on, ↓reduceIte]
        rfl
      refine ⟨by rw [events]; exact alternates.leave held, ?_⟩
      rw [events, active_updateActive]
      rfl
    | false =>
      have same : im.updateActive none = im := by simp [InputMethod.updateActive, on]
      rw [same]
      exact ⟨alternates, active⟩

end InputMethod

namespace TextInput

/-- A text input has entered the surface it is at, and has been told so. -/
structure At (ti : TextInput) (place : Option Nat) : Prop where
  -- Enter and leave events alternate.
  alternates : Alternates ti.focusEvents
  -- The surface is the one of the last enter event that is not yet matched.
  entered : ti.focusSurface = current ti.focusEvents
  place : ti.focusSurface = place

theorem focusEvents_tell (ti : TextInput) (event : TextInputEvent) :
    (ti.tell event).focusEvents = event.focus?.toList ++ ti.focusEvents := by
  unfold focusEvents tell
  cases event <;> rfl

theorem At.leave {ti : TextInput} {old : Nat} (here : ti.At (some old)) :
    (ti.leaveSurface old).At none := by
  have events : (ti.leaveSurface old).focusEvents = .leave old :: ti.focusEvents :=
    focusEvents_tell ti (.leave old)
  have held : current ti.focusEvents = some old := here.entered.symm.trans here.place
  exact ⟨by rw [events]; exact here.alternates.leave held, by rw [events]; rfl, rfl⟩

theorem At.enter {ti : TextInput} (nowhere : ti.At none) (next : Nat) :
    (ti.enterSurface next).At (some next) := by
  have events : (ti.enterSurface next).focusEvents = .enter next :: ti.focusEvents :=
    focusEvents_tell { ti with focusSurface := some next } (.enter next)
  have free : current ti.focusEvents = none := nowhere.entered.symm.trans nowhere.place
  exact ⟨by rw [events]; exact nowhere.alternates.enter free next, by rw [events]; rfl, rfl⟩

theorem At.of_eq {ti ti' : TextInput} {place : Option Nat} (here : ti.At place)
    (surface : ti'.focusSurface = ti.focusSurface)
    (events : ti'.focusEvents = ti.focusEvents) : ti'.At place :=
  ⟨events ▸ here.alternates, by rw [surface, events]; exact here.entered,
    surface.trans here.place⟩

/-- A change of a text input that neither moves nor enables it. -/
structure Keeps (f : TextInput → TextInput) : Prop where
  client : ∀ ti, (f ti).client = ti.client
  focusSurface : ∀ ti, (f ti).focusSurface = ti.focusSurface
  enabled : ∀ ti, (f ti).enabled = ti.enabled
  focusEvents : ∀ ti, (f ti).focusEvents = ti.focusEvents

end TextInput

namespace TextState

variable {st : TextState}
/-- The surface with the keyboard focus, for a client that owns it. -/
def place (st : TextState) (client : Nat) : Option Nat :=
  st.kbdFocus.filter fun s => st.clientOf s = client

/-- What holds of the text inputs and the input method whatever the clients do. -/
structure Sound (st : TextState) : Prop where
  -- The input method is turned on and off in turns.
  regular : ∀ im, st.inputMethod = some im → im.Regular
  -- Every text input is where the keyboard is, if its client is there.
  placed : ∀ ti ∈ st.textInputs, ti.At (st.place ti.client)
  -- The hosts have been told something as soon as a text input was enabled.
  told : ∀ ti ∈ st.textInputs, ti.enabled = true → st.broadcasts ≠ []

/-- The input method and the hosts know the field with the keyboard focus. -/
structure Informed (st : TextState) : Prop where
  active : ∀ im, st.inputMethod = some im → im.active = st.textInputForFocus.isSome
  -- What the hosts were told last describes it, unless a proxy is in charge.
  traits : st.improxy = none → ∀ t, st.broadcasts.head? = some t → t = st.textInputFocusTraits

/-- The text inputs, the input method and the hosts agree. -/
structure Agrees (st : TextState) : Prop where
  -- The input method is on exactly if there is a field with the keyboard focus.
  active : ∀ im, st.inputMethod = some im → (im.active = true ↔ st.textInputForFocus.isSome)
  -- It is turned on and off in turns.
  activations : ∀ im, st.inputMethod = some im → Alternates im.activations
  -- Every text input enters and leaves surfaces in turns, and is at none or where the keyboard is.
  focus : ∀ ti ∈ st.textInputs, Alternates ti.focusEvents ∧
    ti.focusSurface = current ti.focusEvents ∧
    (ti.focusSurface = st.kbdFocus ∨ ti.focusSurface = none)
  -- What the hosts were told last describes the field, unless a proxy is in charge.
  traits : st.improxy = none → ∀ t, st.broadcasts.head? = some t → t = st.textInputFocusTraits

theorem place_of_focus {s : Nat} (focus : st.kbdFocus = some s) (client : Nat) :
    st.place client = if st.clientOf s = client then some s else none := by
  rw [place, focus, Option.filter_some]
  simp only [decide_eq_true_eq]

theorem place_eq_or (st : TextState) (client : Nat) :
    st.place client = st.kbdFocus ∨ st.place client = none := by
  cases focus : st.kbdFocus with
  | none => exact .inl (by rw [place, focus]; rfl)
  | some s =>
    rw [place_of_focus focus]
    split
    · exact .inl rfl
    · exact .inr rfl

theorem Sound.agrees_iff (sound : st.Sound) : st.Agrees ↔ st.Informed := by
  constructor
  · intro agrees
    refine ⟨fun im bound => ?_, agrees.traits⟩
    rw [Bool.eq_iff_iff]
    exact agrees.active im bound
  · intro informed
    refine ⟨fun im bound => ?_, fun im bound => (sound.regular im bound).alternates,
      fun ti member => ?_, informed.traits⟩
    · rw [informed.active im bound]
    · obtain ⟨alternates, entered, here⟩ := sound.placed ti member
      refine ⟨alternates, entered, ?_⟩
      rw [here]
      exact st.place_eq_or ti.client

theorem focused_iff (st : TextState) (ti : TextInput) :
    st.focused ti = true ↔
      ti.enabled = true ∧ ∃ s, st.kbdFocus = some s ∧ st.clientOf s = ti.client ∧
        ti.focusSurface = some s := by
  unfold focused focusClient
  cases st.kbdFocus with
  | none => simp
  | some s => simp [and_comm]

/-- A step after which everything is still in order and everyone still informed. -/
structure Quiet (st st' : TextState) : Prop where
  sound : st.Sound → st'.Sound
  informed : st.Informed → st'.Informed

theorem textInputForFocus_congr {st st' : TextState} (inputs : st'.textInputs = st.textInputs)
    (focus : st'.kbdFocus = st.kbdFocus) (client : st'.focusClient = st.focusClient) :
    st'.textInputForFocus = st.textInputForFocus := by
  have same : st'.focused = st.focused := by
    funext ti
    simp only [focused, focus, client]
  rw [textInputForFocus, textInputForFocus, inputs, same]

theorem textInputForFocus_modify (st : TextState) (r : Nat) {f : TextInput → TextInput}
    (keeps : TextInput.Keeps f) :
    (st.modify r f).textInputForFocus =
      st.textInputForFocus.map fun ti => if ti.resource = r then f ti else ti := by
  unfold textInputForFocus
  -- A text input is found in its changed form exactly if it is found in its old one.
  have same : (st.modify r f).focused ∘ (fun ti => if ti.resource = r then f ti else ti) =
      st.focused := by
    funext ti
    simp only [Function.comp_apply]
    split
    · simp only [focused, keeps.client, keeps.focusSurface, keeps.enabled]
      rfl
    · rfl
  rw [show (st.modify r f).textInputs = st.textInputs.map
    fun ti => if ti.resource = r then f ti else ti from rfl, List.find?_map, same]

theorem textInputForFocus_announce (st : TextState) :
    st.announce.textInputForFocus = st.textInputForFocus :=
  textInputForFocus_congr rfl rfl rfl

theorem informed_announce (st : TextState) : st.announce.Informed := by
  refine ⟨fun im bound => ?_, fun alone t last => ?_⟩
  · obtain ⟨before, -, rfl⟩ := Option.map_eq_some_iff.mp bound
    rw [InputMethod.active_updateActive, textInputForFocus_announce]
  · have told : some (st.improxy.getD st.textInputFocusTraits) = some t := last
    have proxy : st.improxy = none := alone
    rw [proxy] at told
    rw [textInputFocusTraits, textInputForFocus_announce]
    exact (Option.some.inj told).symm

theorem sound_announce (regular : ∀ im, st.inputMethod = some im → im.Regular)
    (placed : ∀ ti ∈ st.textInputs, ti.At (st.place ti.client)) : st.announce.Sound := by
  refine ⟨fun im bound => ?_, placed, fun ti _ _ => List.cons_ne_nil _ _⟩
  obtain ⟨before, had, rfl⟩ := Option.map_eq_some_iff.mp bound
  exact (regular before had).updateActive _

theorem mem_modify {r : Nat} {f : TextInput → TextInput} {ti : TextInput}
    (member : ti ∈ (st.modify r f).textInputs) :
    ∃ before ∈ st.textInputs, ti = before ∨ ti = f before := by
  obtain ⟨before, here, rfl⟩ := List.mem_map.mp member
  refine ⟨before, here, ?_⟩
  split
  · exact .inr rfl
  · exact .inl rfl

theorem Sound.placed_modify (sound : st.Sound) (r : Nat) {f : TextInput → TextInput}
    (client : ∀ ti, (f ti).client = ti.client)
    (surface : ∀ ti, (f ti).focusSurface = ti.focusSurface)
    (events : ∀ ti, (f ti).focusEvents = ti.focusEvents) :
    ∀ ti ∈ (st.modify r f).textInputs, ti.At (st.place ti.client) := by
  intro ti member
  obtain ⟨before, here, rfl | rfl⟩ := mem_modify member
  · exact sound.placed _ here
  · rw [client]
    exact (sound.placed before here).of_eq (surface before) (events before)

theorem Sound.modify (sound : st.Sound) (r : Nat) {f : TextInput → TextInput}
    (keeps : TextInput.Keeps f) : (st.modify r f).Sound := by
  refine ⟨sound.regular, sound.placed_modify r keeps.client keeps.focusSurface keeps.focusEvents,
    fun ti member on => ?_⟩
  obtain ⟨before, here, rfl | rfl⟩ := mem_modify member
  · exact sound.told _ here on
  · exact sound.told before here ((keeps.enabled before).symm.trans on)

theorem quiet_modify (st : TextState) (r : Nat) {f : TextInput → TextInput}
    (keeps : TextInput.Keeps f)
    (traits : ∀ ti, TextInput.traits (some (f ti)) = TextInput.traits (some ti)) :
    st.Quiet (st.modify r f) := by
  refine ⟨fun sound => sound.modify r keeps, fun informed =>
    ⟨fun im bound => ?_, fun alone t last => ?_⟩⟩
  · rw [textInputForFocus_modify st r keeps, Option.isSome_map]
    exact informed.active im bound
  · rw [informed.traits alone t last, textInputFocusTraits, textInputFocusTraits,
      textInputForFocus_modify st r keeps]
    cases st.textInputForFocus with
    | none => rfl
    | some ti =>
      simp only [Option.map_some]
      split
      · exact (traits ti).symm
      · rfl

theorem client_moveFocus (st : TextState) (old next : Option Nat) (ti : TextInput) :
    (st.moveFocus old next ti).client = ti.client := by
  unfold moveFocus
  cases old <;> cases next <;> dsimp only <;> split_ifs <;> rfl

theorem moveFocus_none {ti : TextInput} (here : ti.At (st.place ti.client)) :
    st.moveFocus st.kbdFocus none ti =
        (match st.kbdFocus with
        | some o => if st.clientOf o = ti.client then ti.leaveSurface o else ti
        | none => ti) ∧
      (st.moveFocus st.kbdFocus none ti).At none := by
  unfold moveFocus
  cases focus : st.kbdFocus with
  | none =>
    rw [place, focus] at here
    exact ⟨rfl, here⟩
  | some o =>
    rw [place_of_focus focus] at here
    dsimp only
    by_cases owner : st.clientOf o = ti.client
    · rw [if_pos owner] at here
      rw [if_pos ⟨here.place, owner.symm⟩, if_pos owner]
      exact ⟨rfl, here.leave⟩
    · rw [if_neg owner] at here
      rw [if_neg (fun both => owner both.2.symm), if_neg owner]
      exact ⟨rfl, here⟩

theorem moveFocus_eq (st : TextState) (old next : Option Nat) (ti : TextInput) :
    st.moveFocus old next ti =
      match next with
      | some n =>
        if ti.client = st.clientOf n then (st.moveFocus old none ti).enterSurface n
        else st.moveFocus old none ti
      | none => st.moveFocus old none ti := by
  cases next with
  | none => rfl
  | some n =>
    have client := client_moveFocus st old none ti
    unfold moveFocus at client ⊢
    dsimp only at client ⊢
    rw [client]

theorem at_moveFocus {ti : TextInput} (here : ti.At (st.place ti.client)) (next : Option Nat) :
    (st.moveFocus st.kbdFocus next ti).At ({ st with kbdFocus := next }.place ti.client) := by
  have nowhere := (moveFocus_none here).2
  rw [moveFocus_eq]
  cases next with
  | none => exact nowhere
  | some n =>
    rw [place_of_focus rfl]
    dsimp only
    by_cases owner : ti.client = st.clientOf n
    · rw [if_pos owner, if_pos owner.symm]
      exact nowhere.enter n
    · rw [if_neg owner, if_neg (Ne.symm owner)]
      exact nowhere

theorem enabled_moveFocus {ti : TextInput} (here : ti.At (st.place ti.client)) (next : Option Nat) :
    (st.moveFocus st.kbdFocus next ti).enabled = true ↔
      ti.enabled = true ∧ st.focusClient ≠ some ti.client := by
  have entered : (st.moveFocus st.kbdFocus next ti).enabled =
      (st.moveFocus st.kbdFocus none ti).enabled := by
    rw [moveFocus_eq st st.kbdFocus next ti]
    cases next with
    | none => rfl
    | some n => dsimp only; split <;> rfl
  rw [entered, (moveFocus_none here).1, focusClient]
  cases st.kbdFocus with
  | none => simp
  | some o =>
    by_cases owner : st.clientOf o = ti.client
    · simp [owner, TextInput.leaveSurface, TextInput.resetState]
    · simp [owner]

theorem textInputForFocus_moved (sound : st.Sound) {next : Option Nat}
    (moves : st.kbdFocus ≠ next) :
    { st with
      textInputs := st.textInputs.map (st.moveFocus st.kbdFocus next) }.textInputForFocus =
      none := by
  unfold textInputForFocus
  rw [List.find?_eq_none]
  intro ti member used
  obtain ⟨before, here, rfl⟩ := List.mem_map.mp member
  obtain ⟨-, s, focus, -, surface⟩ := (focused_iff _ _).mp used
  have moved := at_moveFocus (sound.placed before here) next
  rcases place_eq_or { st with kbdFocus := next } before.client with there | nowhere
  · exact moves (focus.trans (surface.symm.trans (moved.place.trans there)))
  · rw [moved.place, nowhere] at surface
    cases surface

theorem Sound.keyboardSetFocus (sound : st.Sound) (next : Option Nat) :
    (st.keyboardSetFocus next).Sound := by
  unfold TextState.keyboardSetFocus
  split
  · exact sound
  · refine ⟨fun im bound => ?_, fun ti member => ?_, fun ti _ _ => List.cons_ne_nil _ _⟩
    · obtain ⟨before, had, rfl⟩ := Option.map_eq_some_iff.mp bound
      exact (sound.regular before had).updateActive _
    · obtain ⟨before, here, rfl⟩ := List.mem_map.mp member
      rw [client_moveFocus]
      exact at_moveFocus (sound.placed before here) next

/-- No text input of the client that gets the keyboard is enabled, unless that client had it. -/
def FocusPrepared (st : TextState) (next : Option Nat) : Prop :=
  ∀ ti ∈ st.textInputs, ti.enabled = true → next.map st.clientOf = some ti.client →
    st.focusClient = some ti.client

theorem textInputForFocus_keyboardSetFocus (sound : st.Sound) {next : Option Nat}
    (moves : st.kbdFocus ≠ next) :
    (st.keyboardSetFocus next).textInputForFocus = none ↔ st.FocusPrepared next := by
  have inputs : (st.keyboardSetFocus next).textInputs =
      st.textInputs.map (st.moveFocus st.kbdFocus next) := by
    rw [TextState.keyboardSetFocus, if_neg moves]
    rfl
  have owners : (st.keyboardSetFocus next).clientOf = st.clientOf := by
    rw [TextState.keyboardSetFocus, if_neg moves]
    rfl
  have focus : (st.keyboardSetFocus next).kbdFocus = next := by
    rw [TextState.keyboardSetFocus, if_neg moves]
  rw [textInputForFocus, List.find?_eq_none, inputs]
  constructor
  · intro unused ti member on owner
    by_contra other
    obtain ⟨n, rfl, owns⟩ := Option.map_eq_some_iff.mp owner
    refine unused _ (List.mem_map_of_mem member) ((focused_iff _ _).mpr ⟨?_, n, focus, ?_, ?_⟩)
    · exact (enabled_moveFocus (sound.placed ti member) _).mpr ⟨on, other⟩
    · rw [owners, client_moveFocus, owns]
    · rw [(at_moveFocus (sound.placed ti member) _).place]
      rw [place_of_focus rfl, if_pos owns]
  · intro prepared ti member used
    obtain ⟨before, here, rfl⟩ := List.mem_map.mp member
    obtain ⟨on, s, stored, owns, -⟩ := (focused_iff _ _).mp used
    obtain ⟨was, other⟩ := (enabled_moveFocus (sound.placed before here) _).mp on
    rw [focus] at stored
    rw [owners, client_moveFocus] at owns
    exact other (prepared before here was (by rw [stored, Option.map_some, owns]))

theorem keyboardSetFocus_eq (sound : st.Sound) {next : Option Nat} (moves : st.kbdFocus ≠ next) :
    st.keyboardSetFocus next =
      { st with
        kbdFocus := next
        textInputs := st.textInputs.map (st.moveFocus st.kbdFocus next)
        inputMethod := st.inputMethod.map (InputMethod.updateActive · none)
        broadcasts := st.improxy.getD {} :: st.broadcasts } := by
  have unused := textInputForFocus_moved sound moves
  rw [TextState.keyboardSetFocus, if_neg moves, textInputFocusSurface, announce,
    inputClientsSendTraits, textInputFocusTraits]
  have silent : ∀ st : TextState, st.inputMethodUpdateActive.textInputForFocus =
      st.textInputForFocus := fun st => textInputForFocus_congr rfl rfl rfl
  rw [silent, unused, inputMethodUpdateActive, unused]
  rfl

theorem traits_ne_of_enabled {ti : TextInput} (on : ti.enabled = true) :
    TextInput.traits none ≠ TextInput.traits (some ti) := by
  intro same
  have flags := congrArg Traits.enabled same
  simp [TextInput.traits, on] at flags

/-- When a change of focus leaves the input method informed. -/
theorem informed_keyboardSetFocus_iff (sound : st.Sound) {next : Option Nat}
    (moves : st.kbdFocus ≠ next) :
    (st.keyboardSetFocus next).Informed ↔
      st.FocusPrepared next ∨ st.inputMethod = none ∧ st.improxy.isSome = true := by
  have prepared := textInputForFocus_keyboardSetFocus sound moves
  have result := keyboardSetFocus_eq sound moves
  have methods : (st.keyboardSetFocus next).inputMethod =
      st.inputMethod.map (InputMethod.updateActive · none) := by rw [result]
  have proxies : (st.keyboardSetFocus next).improxy = st.improxy := by rw [result]
  have last : (st.keyboardSetFocus next).broadcasts.head? = some (st.improxy.getD {}) := by
    rw [result]
    rfl
  rw [← prepared]
  constructor
  · rintro ⟨active, traits⟩
    by_contra neither
    obtain ⟨waiting, watched⟩ := not_or.mp neither
    obtain ⟨ti, found⟩ := Option.ne_none_iff_exists'.mp waiting
    have on := ((focused_iff _ _).mp (List.find?_some found)).1
    -- Either the input method or the hosts would have to know the field that was found.
    cases bound : st.inputMethod with
    | some im =>
      have known := active _ (methods.trans (by rw [bound]; rfl))
      rw [InputMethod.active_updateActive, found] at known
      cases known
    | none =>
      have alone : st.improxy = none := by
        by_contra proxy
        exact watched ⟨bound, Option.isSome_iff_ne_none.mpr proxy⟩
      have known := traits (proxies.trans alone) _ last
      rw [alone, textInputFocusTraits, found] at known
      exact traits_ne_of_enabled on known
  · rintro (unused | ⟨unbound, proxy⟩)
    · refine ⟨fun im bound => ?_, fun alone t told => ?_⟩
      · rw [methods] at bound
        obtain ⟨before, -, rfl⟩ := Option.map_eq_some_iff.mp bound
        rw [InputMethod.active_updateActive, unused]
      · rw [proxies] at alone
        rw [last, alone] at told
        rw [textInputFocusTraits, unused]
        exact (Option.some.inj told).symm
    · refine ⟨fun im bound => ?_, fun alone => ?_⟩
      · rw [methods, unbound] at bound
        cases bound
      · rw [← proxies, alone] at proxy
        cases proxy

/-- What has to hold of a state for everyone to be informed after an event. -/
def Meets (st : TextState) : Event → Prop
  -- No field of the client that gets the keyboard has been enabled before.
  | .focus next =>
    st.kbdFocus = next ∨ st.FocusPrepared next ∨ st.inputMethod = none ∧ st.improxy.isSome = true
  -- The kind of text expected in the field with the keyboard is not changed.
  | .setContentType r hint purpose =>
    st.improxy.isSome = true ∨ ∀ ti ∈ st.textInputForFocus, ti.resource = r →
      ti.field.contentHint = hint ∧ ti.field.contentPurpose = purpose
  | _ => True

instance decidableMeets (st : TextState) (event : Event) : Decidable (st.Meets event) := by
  unfold Meets FocusPrepared
  induction event using Event.casesOn <;> infer_instance

theorem keeps_field (f : FieldState → FieldState) :
    TextInput.Keeps fun ti => { ti with field := f ti.field } :=
  ⟨fun _ => rfl, fun _ => rfl, fun _ => rfl, fun _ => rfl⟩

theorem quiet_modifyField (st : TextState) (r : Nat) {f : FieldState → FieldState}
    (hint : ∀ field, (f field).contentHint = field.contentHint)
    (purpose : ∀ field, (f field).contentPurpose = field.contentPurpose) :
    st.Quiet (st.modifyField r f) := by
  refine st.quiet_modify r (keeps_field f) fun ti => ?_
  simp only [TextInput.traits, hint, purpose]

theorem keeps_tell {told : List TextInputEvent} (silent : ∀ event ∈ told, event.focus? = none)
    (ti : TextInput) :
    (told.foldl TextInput.tell ti).client = ti.client ∧
      (told.foldl TextInput.tell ti).focusSurface = ti.focusSurface ∧
      (told.foldl TextInput.tell ti).enabled = ti.enabled ∧
      (told.foldl TextInput.tell ti).focusEvents = ti.focusEvents ∧
      (told.foldl TextInput.tell ti).field = ti.field := by
  induction told generalizing ti with
  | nil => exact ⟨rfl, rfl, rfl, rfl, rfl⟩
  | cons event told ih =>
    obtain ⟨client, surface, enabled, focus, field⟩ :=
      ih (fun e member => silent e (List.mem_cons_of_mem _ member)) (ti.tell event)
    rw [List.foldl_cons]
    refine ⟨client, surface, enabled, focus.trans ?_, field⟩
    rw [TextInput.focusEvents_tell, silent event List.mem_cons_self]
    rfl

theorem quiet_tell (st : TextState) (r : Nat) (events : TextInput → List TextInputEvent)
    (silent : ∀ ti, ∀ event ∈ events ti, event.focus? = none) :
    st.Quiet (st.modify r fun ti => (events ti).foldl TextInput.tell ti) := by
  refine st.quiet_modify r ⟨fun ti => (keeps_tell (silent ti) ti).1,
    fun ti => (keeps_tell (silent ti) ti).2.1, fun ti => (keeps_tell (silent ti) ti).2.2.1,
    fun ti => (keeps_tell (silent ti) ti).2.2.2.1⟩ fun ti => ?_
  obtain ⟨-, -, enabled, -, field⟩ := keeps_tell (silent ti) ti
  simp only [TextInput.traits, enabled, field]

theorem focus?_changes (p : PendingText) : ∀ event ∈ p.changes, event.focus? = none := by
  intro event member
  unfold PendingText.changes at member
  rcases List.mem_append.mp member with before | composed
  · rcases List.mem_append.mp before with deleted | entered
    · split at deleted
      · rw [List.mem_singleton.mp deleted]
        rfl
      · cases deleted
    · split at entered
      · rw [List.mem_singleton.mp entered]
        rfl
      · cases entered
  · split at composed
    · rw [List.mem_singleton.mp composed]
      rfl
    · cases composed

theorem focus?_events (p : PendingText) (serial : BitVec 32) :
    ∀ event ∈ p.events serial, event.focus? = none := by
  intro event member
  unfold PendingText.events at member
  split at member
  · cases member
  · rcases List.mem_append.mp member with changed | last
    · exact focus?_changes p event changed
    · rw [List.mem_singleton.mp last]
      rfl

theorem textInputForFocus_concat (st : TextState) {ti : TextInput} (off : ti.enabled = false) :
    { st with textInputs := st.textInputs ++ [ti] }.textInputForFocus = st.textInputForFocus := by
  have unused : st.focused ti = false := by simp [focused, off]
  show (st.textInputs ++ [ti]).find? st.focused = st.textInputs.find? st.focused
  rw [List.find?_append, List.find?_singleton, unused]
  simp

theorem getTextInput_eq (st : TextState) (client r : Nat) :
    ∃ ti : TextInput, ti.client = client ∧ ti.enabled = false ∧ ti.At (st.place client) ∧
      st.textInputManagerGetTextInput client r =
        if maxTextInputs ≤ st.textInputs.length then st
        else { st with textInputs := st.textInputs ++ [ti] } := by
  have nowhere : TextInput.At { resource := r, client } none := ⟨trivial, rfl, rfl⟩
  unfold textInputManagerGetTextInput
  cases focus : st.kbdFocus with
  | none => exact ⟨_, rfl, rfl, by rw [place, focus]; exact nowhere, rfl⟩
  | some s =>
    rw [place_of_focus focus]
    dsimp only
    by_cases owner : st.clientOf s = client
    · rw [if_pos owner, if_pos owner]
      exact ⟨_, rfl, rfl, nowhere.enter s, rfl⟩
    · rw [if_neg owner, if_neg owner]
      exact ⟨_, rfl, rfl, nowhere, rfl⟩

theorem quiet_modifyMethod (st : TextState) (r : Nat) {f : InputMethod → InputMethod}
    (active : ∀ im, (f im).active = im.active) (sent : ∀ im, (f im).sent = im.sent) :
    st.Quiet (st.modifyMethod r f) := by
  have origin : ∀ im, (st.modifyMethod r f).inputMethod = some im → ∃ before,
      st.inputMethod = some before ∧ im.active = before.active ∧
        im.activations = before.activations := by
    intro im bound
    obtain ⟨before, had, rfl⟩ := Option.map_eq_some_iff.mp bound
    refine ⟨before, had, ?_, ?_⟩
    · split
      · exact active before
      · rfl
    · split
      · rw [InputMethod.activations, sent before]
        rfl
      · rfl
  constructor
  · intro sound
    refine ⟨fun im bound => ?_, sound.placed, sound.told⟩
    obtain ⟨before, had, flag, log⟩ := origin im bound
    obtain ⟨alternates, current⟩ := sound.regular before had
    exact ⟨log ▸ alternates, by rw [flag, log]; exact current⟩
  · intro informed
    refine ⟨fun im bound => ?_, informed.traits⟩
    obtain ⟨before, had, flag, -⟩ := origin im bound
    rw [flag]
    exact informed.active before had

theorem quiet_sendTraits (st : TextState) (proxy : Option Traits) :
    st.Quiet { st with improxy := proxy }.inputClientsSendTraits := by
  refine ⟨fun sound => ⟨sound.regular, sound.placed, fun _ _ _ => List.cons_ne_nil _ _⟩,
    fun informed => ⟨informed.active, fun alone t last => ?_⟩⟩
  have told : some (proxy.getD st.textInputFocusTraits) = some t := last
  have nobody : proxy = none := alone
  rw [nobody] at told
  exact (Option.some.inj told).symm

theorem quiet_createSurface {s : Nat} (free : st.kbdFocus ≠ some s) (client : Nat) :
    st.Quiet (st.createSurface s client) := by
  have owner : ∀ o, st.kbdFocus = some o →
      (st.createSurface s client).clientOf o = st.clientOf o := by
    intro o focus
    apply Function.update_of_ne
    rintro rfl
    exact free focus
  have places : ∀ c, (st.createSurface s client).place c = st.place c := by
    intro c
    cases focus : st.kbdFocus with
    | none => simp only [place, createSurface, focus]; rfl
    | some o =>
      have focus' : (st.createSurface s client).kbdFocus = some o := focus
      rw [place_of_focus focus, place_of_focus focus', owner o focus]
  have field : (st.createSurface s client).textInputForFocus = st.textInputForFocus := by
    refine textInputForFocus_congr rfl rfl ?_
    show st.kbdFocus.map (st.createSurface s client).clientOf = st.kbdFocus.map st.clientOf
    cases focus : st.kbdFocus with
    | none => rfl
    | some o => rw [Option.map_some, Option.map_some, owner o focus]
  constructor
  · intro sound
    refine ⟨sound.regular, fun ti member => ?_, sound.told⟩
    rw [places]
    exact sound.placed ti member
  · intro informed
    refine ⟨fun im bound => ?_, fun alone t last => ?_⟩
    · rw [field]
      exact informed.active im bound
    · rw [textInputFocusTraits, field]
      exact informed.traits alone t last

theorem quiet_getTextInput (st : TextState) (client r : Nat) :
    st.Quiet (st.textInputManagerGetTextInput client r) := by
  obtain ⟨ti, owner, off, here, created⟩ := st.getTextInput_eq client r
  rw [created]
  split
  · exact ⟨id, id⟩
  · have field := st.textInputForFocus_concat off
    refine ⟨fun sound => ⟨sound.regular, fun ti' member => ?_, fun ti' member on => ?_⟩,
      fun informed => ⟨fun im bound => ?_, fun alone t last => ?_⟩⟩
    · rcases List.mem_append.mp member with old | new
      · exact sound.placed ti' old
      · rw [List.mem_singleton.mp new, owner]
        exact here
    · rcases List.mem_append.mp member with old | new
      · exact sound.told ti' old on
      · rw [List.mem_singleton.mp new, off] at on
        cases on
    · rw [field]
      exact informed.active im bound
    · rw [textInputFocusTraits, field]
      exact informed.traits alone t last

theorem quiet_getInputMethod (st : TextState) (r : Nat) :
    st.Quiet (st.inputMethodManagerGetInputMethod r) := by
  unfold inputMethodManagerGetInputMethod
  split
  · exact ⟨id, id⟩
  · refine ⟨fun sound => ⟨fun im bound => ?_, sound.placed, sound.told⟩,
      fun informed => ⟨fun im bound => ?_, informed.traits⟩⟩
    · have fresh : InputMethod.Regular { resource := r } := ⟨trivial, rfl⟩
      rw [← Option.some.inj bound]
      exact fresh.updateActive _
    · rw [← Option.some.inj bound]
      exact InputMethod.active_updateActive _ _

theorem quiet_inputMethodCommit (st : TextState) (r : Nat) (serial : BitVec 32) :
    st.Quiet (st.inputMethodCommit r serial) := by
  have cleared : st.Quiet (st.modifyMethod r InputMethod.clearPending) :=
    st.quiet_modifyMethod r (fun _ => rfl) (fun _ => rfl)
  unfold inputMethodCommit
  split
  · split
    · have changed := quiet_tell (st.modifyMethod r InputMethod.clearPending)
      exact ⟨(changed _ _ fun ti => focus?_events _ _).sound ∘ cleared.sound,
        (changed _ _ fun ti => focus?_events _ _).informed ∘ cleared.informed⟩
    · exact cleared
  · exact cleared

def Event.disturbs : Event → Bool
  | .focus _ | .setContentType _ _ _ => true
  | _ => false

/-- All other events leave what the input method knows as it is. -/
theorem quiet_next {event : Event} (allowed : st.Allowed event) (quiet : event.disturbs = false) :
    st.Quiet (st.next event) := by
  cases event with
  | focus s => cases quiet
  | setContentType r hint purpose => cases quiet
  | createSurface s client => exact quiet_createSurface allowed client
  | getTextInput client r => exact st.quiet_getTextInput client r
  | enable r | disable r =>
    exact st.quiet_modify r ⟨fun _ => rfl, fun _ => rfl, fun _ => rfl, fun _ => rfl⟩ fun _ => rfl
  | setSurroundingText r text cursor anchor =>
    rw [next, textInputSetSurroundingText]
    exact st.quiet_modifyField r (by simp) (by simp)
  | setTextChangeCause r cause =>
    rw [next, textInputSetTextChangeCause]
    exact st.quiet_modifyField r (by simp) (by simp)
  | setCursorRectangle r x y w h =>
    rw [next, textInputSetCursorRectangle]
    exact st.quiet_modifyField r (by simp) (by simp)
  | commit r =>
    refine ⟨fun sound => sound_announce sound.regular ?_, fun _ => informed_announce _⟩
    exact sound.placed_modify r (fun _ => rfl) (fun _ => rfl) (fun _ => rfl)
  | textInputDestroyed r =>
    refine ⟨fun sound => sound_announce sound.regular ?_, fun _ => informed_announce _⟩
    exact fun ti member => sound.placed ti (mem_of_swapRemove member)
  | text text =>
    rw [next, textInputCommitText]
    split
    · split
      · exact ⟨id, id⟩
      · exact st.quiet_tell _ (fun ti => [.commitString text, .done ti.serial])
          (by simp [TextInputEvent.focus?])
    · exact ⟨id, id⟩
  | getInputMethod r => exact st.quiet_getInputMethod r
  | commitString r text =>
    rw [next, inputMethodCommitString]
    exact st.quiet_modifyMethod r (by simp) (by simp)
  | setPreeditString r text first last =>
    rw [next, inputMethodSetPreeditString]
    exact st.quiet_modifyMethod r (by simp) (by simp)
  | deleteSurroundingText r before after =>
    rw [next, inputMethodDeleteSurroundingText]
    exact st.quiet_modifyMethod r (by simp) (by simp)
  | commitMethod r serial => exact st.quiet_inputMethodCommit r serial
  | getPopupSurface r popup =>
    rw [next, inputMethodGetPopupSurface]
    refine st.quiet_modifyMethod r (fun im => ?_) (fun im => ?_)
    · split <;> rfl
    · split <;> rfl
  | popupDestroyed r popup =>
    rw [next, inputPopupResourceDestroy]
    exact st.quiet_modifyMethod r (by simp) (by simp)
  | inputMethodDestroyed r =>
    have kept : ∀ im, (st.inputMethodResourceDestroy r).inputMethod = some im →
        st.inputMethod = some im := fun im bound => (Option.filter_eq_some_iff.mp bound).1
    exact ⟨fun sound => ⟨fun im bound => sound.regular im (kept im bound), sound.placed,
      sound.told⟩, fun informed => ⟨fun im bound => informed.active im (kept im bound),
      informed.traits⟩⟩
  | proxyTraits traits => exact st.quiet_sendTraits (some traits)
  | proxyGone =>
    rw [next, improxyGone]
    split
    · exact st.quiet_sendTraits none
    · exact ⟨id, id⟩
  | hostConnected => exact st.quiet_sendTraits st.improxy

/-- Everything stays in order whatever happens. -/
theorem Sound.next (sound : st.Sound) {event : Event} (allowed : st.Allowed event) :
    (st.next event).Sound := by
  cases event with
  | focus s => exact sound.keyboardSetFocus s
  | setContentType r hint purpose => exact sound.modify r (keeps_field fun field =>
      { field with contentHint := hint, contentPurpose := purpose })
  | _ => exact (quiet_next allowed rfl).sound sound

theorem sound_of_run {trace : List Event} (run : machine.Run trace st) :
    st.Sound := by
  refine run.invariant (fun _ st => st.Sound) ?_ (fun _ _ _ sound allowed => sound.next allowed)
  intro st begun
  subst begun
  exact ⟨fun _ bound => (by cases bound), fun _ member => (by cases member),
    fun _ member => (by cases member)⟩

theorem informed_setContentType_iff (sound : st.Sound) (informed : st.Informed) (r : Nat)
    (hint purpose : BitVec 32) :
    (st.textInputSetContentType r hint purpose).Informed ↔
      st.Meets (.setContentType r hint purpose) := by
  have keeps := keeps_field fun field =>
    { field with contentHint := hint, contentPurpose := purpose }
  have field : (st.textInputSetContentType r hint purpose).textInputForFocus = _ :=
    textInputForFocus_modify st r keeps
  constructor
  · intro after
    cases proxy : st.improxy with
    | some traits => exact .inl (by rw [proxy]; rfl)
    | none =>
      refine .inr fun ti found is => ?_
      have member := List.mem_of_find?_eq_some found
      have on := ((focused_iff _ _).mp (List.find?_some found)).1
      obtain ⟨t, rest, told⟩ := List.exists_cons_of_ne_nil (sound.told ti member on)
      have last : st.broadcasts.head? = some t := by rw [told]; rfl
      have before := informed.traits proxy t last
      have now := after.traits proxy t last
      rw [before, textInputFocusTraits, textInputFocusTraits, field, found, Option.map_some,
        if_pos is] at now
      exact ⟨congrArg Traits.hint now, congrArg Traits.purpose now⟩
  · rintro (proxy | same)
    · refine ⟨fun im bound => ?_, fun alone => ?_⟩
      · rw [field, Option.isSome_map]
        exact informed.active im bound
      · have none : st.improxy = none := alone
        rw [none] at proxy
        cases proxy
    · refine ⟨fun im bound => ?_, fun alone t last => ?_⟩
      · rw [field, Option.isSome_map]
        exact informed.active im bound
      · rw [informed.traits alone t last, textInputFocusTraits, textInputFocusTraits, field]
        cases found : st.textInputForFocus with
        | none => rfl
        | some ti =>
          rw [Option.map_some]
          split
          · next is =>
            obtain ⟨rfl, rfl⟩ := same ti found is
            rfl
          · rfl

theorem informed_next_iff (sound : st.Sound) (informed : st.Informed) {event : Event}
    (allowed : st.Allowed event) :
    (st.next event).Informed ↔ st.Meets event := by
  cases event with
  | focus s =>
    show (st.keyboardSetFocus s).Informed ↔ _
    by_cases moves : st.kbdFocus = s
    · rw [keyboardSetFocus, if_pos moves]
      exact iff_of_true informed (.inl moves)
    · rw [informed_keyboardSetFocus_iff sound moves]
      exact (or_iff_right moves).symm
  | setContentType r hint purpose => exact informed_setContentType_iff sound informed r hint purpose
  | _ => exact iff_of_true ((quiet_next allowed rfl).informed informed) trivial

theorem informed_of_run {trace : List Event} (run : (machine.restrict Meets).Run trace st) :
    st.Informed := by
  induction run with
  | start begun =>
    cases begun
    exact ⟨fun _ bound => (by cases bound), fun _ _ told => (by cases told)⟩
  | step event before allowed ih =>
    exact (informed_next_iff (sound_of_run before.of_restrict) ih allowed.1).mpr allowed.2

/-- Agreement holds along runs that meet the condition, and each further step keeps it if and
only if it meets the condition. -/
theorem text_input_agreement {trace : List Event} {st : TextState}
    (run : (machine.restrict Meets).Run trace st) :
    st.Agrees ∧ ∀ event, st.Allowed event → ((st.next event).Agrees ↔ st.Meets event) := by
  have sound := sound_of_run run.of_restrict
  have informed := informed_of_run run
  refine ⟨sound.agrees_iff.mpr informed, fun event allowed => ?_⟩
  rw [(sound.next allowed).agrees_iff]
  exact informed_next_iff sound informed allowed

def enabledScript : List Event :=
  [.createSurface 1 7, .getTextInput 7 0, .getInputMethod 3, .focus (some 1), .enable 0,
    .setContentType 0 2 5, .commit 0, .focus none]

theorem text_input_agreement_enabled :
    ((enabledScript.take 7).foldl next {}).textInputForFocus.isSome = true ∧
      ((enabledScript.take 7).foldl next {}).broadcasts.head? = some ⟨2, 5, 1⟩ ∧
      (enabledScript.foldl next {}).Agrees := by
  have run : (machine.restrict Meets).Run enabledScript.reverse (enabledScript.foldl next {}) :=
    .of_script (m := machine.restrict Meets) (s := {}) rfl enabledScript (by decide)
  exact ⟨by decide, by decide, (text_input_agreement run).1⟩

def earlyScript : List Event :=
  [.createSurface 1 7, .getTextInput 7 0, .enable 0, .commit 0, .getInputMethod 3, .focus (some 1)]

/-- The input method stays off for a field that was enabled before its surface got the keyboard. -/
theorem not_text_input_agreement :
    ¬∀ trace st, machine.Run trace st → st.Agrees := by
  intro claimed
  have run : machine.Run earlyScript.reverse (earlyScript.foldl next {}) :=
    .of_script (m := machine) (s := {}) rfl earlyScript (by decide)
  have agrees := claimed _ _ run
  have found : (earlyScript.foldl next {}).textInputForFocus.isSome = true := by decide
  have off : ((earlyScript.foldl next {}).inputMethod.map InputMethod.active) = some false := by
    decide
  obtain ⟨im, bound, inactive⟩ := Option.map_eq_some_iff.mp off
  have active := (agrees.active im bound).mpr found
  rw [inactive] at active
  cases active

end TextState

end Xios
