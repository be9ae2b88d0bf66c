import Xios.Clipboard.Primary

/-! Who owns the primary selection, and who is told of having lost it. -/

namespace Xios

namespace PrimarySelection

/-- At most one of the two protocols has an owner of the primary selection. -/
def OneOwner (s : PrimarySelection) : Prop :=
  s.primarySource = none ∨ s.primaryDcSource = none

def OwnsPrimary (s : PrimarySelection) : SelectionSource → Bool
  | .zwp number => s.primarySource = some number
  | .control number => s.primaryDcSource = some number

def OwnsClipboard (s : PrimarySelection) : SelectionSource → Bool
  | .zwp _ => false
  | .control number => s.dataControlClipSource = some number

variable {s : PrimarySelection} {number : Nat}

theorem ownsPrimary_zwp : s.OwnsPrimary (.zwp number) = true ↔ s.primarySource = some number :=
  decide_eq_true_iff

theorem ownsPrimary_control :
    s.OwnsPrimary (.control number) = true ↔ s.primaryDcSource = some number :=
  decide_eq_true_iff

theorem ownsClipboard_control :
    s.OwnsClipboard (.control number) = true ↔ s.dataControlClipSource = some number :=
  decide_eq_true_iff

/-- A source that owned a selection is alive after a step but no longer the owner. -/
def Superseded (owns : PrimarySelection → SelectionSource → Bool) (s s' : PrimarySelection)
    (source : SelectionSource) : Bool :=
  owns s source && s'.Alive source && !owns s' source

def after (trace : List Event) : PrimarySelection :=
  trace.foldr (fun event s => s.next event) {}

def losses (owns : PrimarySelection → SelectionSource → Bool) (source : SelectionSource) :
    List Event → Nat
  | [] => 0
  | event :: trace =>
    losses owns source trace +
      (Superseded owns (after trace) ((after trace).next event) source).toNat

def cancellations (s : PrimarySelection) (source : SelectionSource) : Nat :=
  s.sent.count (.cancelled source)

/-- No source of the primary selection protocol takes the selection from another such source. -/
def Unrivalled (s : PrimarySelection) : Event → Prop
  | .setSelection source _ => s.primarySource = none ∨ s.primarySource = source
  | _ => True

/-- What a whole history of the selections maintains. -/
structure Owned (s : PrimarySelection) : Prop where
  -- The protocols never both have an owner.
  one : s.OneOwner
  primary : ∀ source, s.OwnsPrimary source = true → s.Alive source = true
  clipboard : ∀ source, s.OwnsClipboard source = true → s.Alive source = true

variable {s' : PrimarySelection}

theorem Owned.of_eq (owned : s.Owned)
    (alive : ∀ source, s.Alive source = true → s'.Alive source = true)
    (primary : s'.primarySource = s.primarySource) (dc : s'.primaryDcSource = s.primaryDcSource)
    (clip : s'.dataControlClipSource = s.dataControlClipSource) : s'.Owned := by
  refine ⟨?_, ?_, ?_⟩
  · unfold OneOwner
    rw [primary, dc]
    exact owned.one
  · intro source owns
    refine alive source (owned.primary source ?_)
    cases source <;> simpa [OwnsPrimary, primary, dc] using owns
  · intro source owns
    refine alive source (owned.clipboard source ?_)
    cases source with
    | zwp number => cases owns
    | control number => simpa [OwnsClipboard, clip] using owns

theorem count_cancelled_offerTo (s : PrimarySelection)
    (event : Option (List String) → SelectionEvent) (memory : Bool) (source : SelectionSource)
    (other : ∀ offer, event offer ≠ .cancelled source) :
    (s.offerTo event memory).count (.cancelled source) = 0 := by
  rw [List.count_eq_zero]
  intro member
  unfold offerTo at member
  split at member
  · exact other _ (List.mem_singleton.mp member).symm
  · split at member
    · exact other _ (List.mem_singleton.mp member).symm
    · cases member

theorem count_cancelled_sendToDevice (s : PrimarySelection) (memory : Nat → Bool)
    (device : PrimaryDevice) (source : SelectionSource) :
    (s.primarySelectionSendToDevice memory device).count (.cancelled source) = 0 :=
  s.count_cancelled_offerTo _ _ source fun _ same => by cases same

theorem count_cancelled_sendPrimaryToDevice (s : PrimarySelection) (memory : Nat → Bool)
    (device : ControlDevice) (source : SelectionSource) :
    (s.dataControlSendPrimaryToDevice memory device).count (.cancelled source) = 0 := by
  unfold dataControlSendPrimaryToDevice
  split
  · rfl
  · exact s.count_cancelled_offerTo _ _ source fun _ same => by cases same

@[simp]
theorem cancellations_broadcast (s : PrimarySelection) (memory : Nat → Bool)
    (source : SelectionSource) :
    (s.primarySelectionBroadcast memory).cancellations source = s.cancellations source := by
  have devices : ∀ told : List PrimaryDevice,
      (told.flatMap (s.primarySelectionSendToDevice memory)).count (.cancelled source) = 0 := by
    intro told
    simp [List.count_flatMap, Function.comp_def, count_cancelled_sendToDevice]
  have controls : ∀ told : List ControlDevice,
      (told.flatMap (s.dataControlSendPrimaryToDevice memory)).count (.cancelled source) = 0 := by
    intro told
    simp [List.count_flatMap, Function.comp_def, count_cancelled_sendPrimaryToDevice]
  simp [primarySelectionBroadcast, cancellations, List.count_append, devices, controls]

@[simp]
theorem cancellations_sendCancelled (s : PrimarySelection) (told : Option SelectionSource)
    (source : SelectionSource) :
    (s.sendCancelled told).cancellations source =
      s.cancellations source + (decide (told = some source)).toNat := by
  cases told with
  | none => simp [sendCancelled, cancellations]
  | some other =>
    by_cases same : other = source
    · simp [sendCancelled, cancellations, List.count_append, same]
    · simp [sendCancelled, cancellations, List.count_append, same]

theorem superseded_eq_false {owns : PrimarySelection → SelectionSource → Bool}
    {source : SelectionSource}
    (kept : owns s source = true → s'.Alive source = true → owns s' source = true) :
    Superseded owns s s' source = false := by
  unfold Superseded
  cases owned : owns s source with
  | false => rfl
  | true =>
    cases alive : s'.Alive source with
    | false => rfl
    | true => simp [kept owned alive]

/-- A step tells each source exactly of the selections it lost. -/
def Answers (s s' : PrimarySelection) : Prop :=
  ∀ source, s'.cancellations source = s.cancellations source +
    (Superseded OwnsPrimary s s' source).toNat + (Superseded OwnsClipboard s s' source).toNat

theorem answers_of_eq (primary : s'.primarySource = s.primarySource)
    (dc : s'.primaryDcSource = s.primaryDcSource)
    (clip : s'.dataControlClipSource = s.dataControlClipSource)
    (told : ∀ source, s'.cancellations source = s.cancellations source) : Answers s s' := by
  intro source
  have primaryKept : Superseded OwnsPrimary s s' source = false := by
    refine superseded_eq_false fun owns _ => ?_
    cases source <;> simpa [OwnsPrimary, primary, dc] using owns
  have clipboardKept : Superseded OwnsClipboard s s' source = false := by
    refine superseded_eq_false fun owns _ => ?_
    cases source with
    | zwp number => cases owns
    | control number => simpa [OwnsClipboard, clip] using owns
  rw [primaryKept, clipboardKept, told]
  rfl

theorem alive_update_zwp (s : PrimarySelection) (number : Nat)
    (change : List String → List String) (source : SelectionSource) :
    Alive { s with
      zwpSources := Function.update s.zwpSources number ((s.zwpSources number).map change) }
      source = s.Alive source := by
  cases source with
  | zwp other =>
    by_cases same : other = number
    · subst same
      simp [Alive]
    · simp [Alive, Function.update_of_ne same]
  | control other => rfl

theorem alive_update_control (s : PrimarySelection) (number : Nat)
    (change : ControlSource → ControlSource) (source : SelectionSource) :
    Alive { s with
      controlSources :=
        Function.update s.controlSources number ((s.controlSources number).map change) }
      source = s.Alive source := by
  cases source with
  | zwp other => rfl
  | control other =>
    by_cases same : other = number
    · subst same
      simp [Alive]
    · simp [Alive, Function.update_of_ne same]

theorem use_spec {source : Option Nat} (used : s.use source = some s') :
    ∃ control, s' = { s with controlSources := control } ∧
      (∀ other, s'.Alive other = s.Alive other) ∧
      ∀ number, source = some number → s'.Alive (.control number) = true := by
  unfold use at used
  split at used
  · cases used
    exact ⟨_, rfl, fun _ => rfl, fun _ same => by cases same⟩
  · rename_i number
    split at used
    · cases used
    · rename_i entry found
      split at used
      · cases used
      · cases used
        have alive := s.alive_update_control number fun entry => { entry with used := true }
        rw [found] at alive
        refine ⟨_, rfl, alive, ?_⟩
        intro other same
        cases same
        simp [Alive]

theorem Owned.broadcast (owned : s.Owned) (memory : Nat → Bool) :
    (s.primarySelectionBroadcast memory).Owned :=
  ⟨owned.one, owned.primary, owned.clipboard⟩

theorem Answers.broadcast (answers : Answers s s') (memory : Nat → Bool) :
    Answers s (s'.primarySelectionBroadcast memory) := by
  intro source
  rw [cancellations_broadcast]
  exact answers source

theorem OneOwner.of_owns (one : s.OneOwner)
    (owns : ∀ source, s'.OwnsPrimary source = true → s.OwnsPrimary source = true) :
    s'.OneOwner := by
  unfold OneOwner at one ⊢
  cases primary : s'.primarySource with
  | none => exact Or.inl rfl
  | some number =>
    cases dc : s'.primaryDcSource with
    | none => exact Or.inr rfl
    | some other =>
      -- Two owners would have been two owners before.
      have first := owns (.zwp number) (by simp [OwnsPrimary, primary])
      have second := owns (.control other) (by simp [OwnsPrimary, dc])
      simp only [OwnsPrimary, decide_eq_true_eq] at first second
      rw [first, second] at one
      cases one with
      | inl impossible => cases impossible
      | inr impossible => cases impossible

theorem Owned.release (owned : s.Owned) (gone : SelectionSource)
    (alive : ∀ source, s'.Alive source = (s.Alive source && source != gone))
    (primary : ∀ source, s'.OwnsPrimary source = (s.OwnsPrimary source && source != gone))
    (clipboard : ∀ source, s'.OwnsClipboard source = (s.OwnsClipboard source && source != gone))
    (told : ∀ source, s'.cancellations source = s.cancellations source) :
    s'.Owned ∧ Answers s s' := by
  refine ⟨⟨owned.one.of_owns ?_, ?_, ?_⟩, ?_⟩
  · intro source owns
    rw [primary, Bool.and_eq_true] at owns
    exact owns.1
  · intro source owns
    rw [primary, Bool.and_eq_true] at owns
    rw [alive, owned.primary source owns.1, owns.2]
    rfl
  · intro source owns
    rw [clipboard, Bool.and_eq_true] at owns
    rw [alive, owned.clipboard source owns.1, owns.2]
    rfl
  · intro source
    -- The only owner that does not stay one is the source that ended, and it is not alive.
    have primaryKept : Superseded OwnsPrimary s s' source = false := by
      refine superseded_eq_false fun owns live => ?_
      rw [alive, Bool.and_eq_true] at live
      rw [primary, owns, live.2]
      rfl
    have clipboardKept : Superseded OwnsClipboard s s' source = false := by
      refine superseded_eq_false fun owns live => ?_
      rw [alive, Bool.and_eq_true] at live
      rw [clipboard, owns, live.2]
      rfl
    rw [primaryKept, clipboardKept, told]
    rfl

theorem alive_destroy_zwp (s : PrimarySelection) (number : Nat) (source : SelectionSource) :
    Alive { s with zwpSources := Function.update s.zwpSources number none } source =
      (s.Alive source && source != .zwp number) := by
  cases source with
  | zwp other =>
    by_cases same : other = number
    · simp [Alive, same]
    · simp [Alive, same]
  | control other => simp [Alive]

theorem alive_destroy_control (s : PrimarySelection) (number : Nat) (source : SelectionSource) :
    Alive { s with controlSources := Function.update s.controlSources number none } source =
      (s.Alive source && source != .control number) := by
  cases source with
  | zwp other => simp [Alive]
  | control other =>
    by_cases same : other = number
    · simp [Alive, same]
    · simp [Alive, same]

theorem Owned.primarySourceResDestroy (owned : s.Owned) (number : Nat) (memory : Nat → Bool) :
    (s.primarySourceResDestroy number memory).Owned ∧
      Answers s (s.primarySourceResDestroy number memory) := by
  have clipboard : ∀ source, s.OwnsClipboard source =
      (s.OwnsClipboard source && source != .zwp number) := by
    intro source
    cases source <;> simp [OwnsClipboard]
  unfold PrimarySelection.primarySourceResDestroy
  simp only
  split
  · rename_i owner
    -- The devices are told only if the source owned the selection.
    have released : Owned { s with
          zwpSources := Function.update s.zwpSources number none, primarySource := none } ∧
        Answers s { s with
          zwpSources := Function.update s.zwpSources number none, primarySource := none } := by
      refine owned.release (.zwp number) (s.alive_destroy_zwp number) ?_ clipboard fun _ => rfl
      intro source
      cases source with
      | zwp other => by_cases same : other = number <;> simp [OwnsPrimary, owner, same, Ne.symm]
      | control other => simp [OwnsPrimary]
    exact ⟨released.1.broadcast memory, released.2.broadcast memory⟩
  · rename_i owner
    refine owned.release (.zwp number) (s.alive_destroy_zwp number) ?_ clipboard fun _ => rfl
    intro source
    cases source with
    | zwp other => by_cases same : other = number <;> simp [OwnsPrimary, owner, same]
    | control other => simp [OwnsPrimary]

/-- A destroyed source gives up what it owned, and only it is told of that. -/
theorem Owned.dataControlSourceResDestroy (owned : s.Owned) (number : Nat) (memory : Nat → Bool) :
    (s.dataControlSourceResDestroy number memory).Owned ∧
      Answers s (s.dataControlSourceResDestroy number memory) := by
  have clipboard : ∀ source, OwnsClipboard { s with
      dataControlClipSource :=
        if s.dataControlClipSource = some number then none else s.dataControlClipSource } source =
      (s.OwnsClipboard source && source != .control number) := by
    intro source
    cases source with
    | zwp other => rfl
    | control other =>
      by_cases owner : s.dataControlClipSource = some number
      · by_cases same : other = number <;> simp [OwnsClipboard, owner, same, Ne.symm]
      · by_cases same : other = number <;> simp [OwnsClipboard, owner, same]
  unfold PrimarySelection.dataControlSourceResDestroy
  simp only
  split
  · rename_i owner
    have released : Owned { s with
          controlSources := Function.update s.controlSources number none
          dataControlClipSource :=
            if s.dataControlClipSource = some number then none else s.dataControlClipSource
          primaryDcSource := none } ∧
        Answers s { s with
          controlSources := Function.update s.controlSources number none
          dataControlClipSource :=
            if s.dataControlClipSource = some number then none else s.dataControlClipSource
          primaryDcSource := none } := by
      refine owned.release (.control number) (s.alive_destroy_control number) ?_ clipboard
        fun _ => rfl
      intro source
      cases source with
      | zwp other => simp [OwnsPrimary]
      | control other => by_cases same : other = number <;> simp [OwnsPrimary, owner, same, Ne.symm]
    exact ⟨released.1.broadcast memory, released.2.broadcast memory⟩
  · rename_i owner
    refine owned.release (.control number) (s.alive_destroy_control number) ?_ clipboard
      fun _ => rfl
    intro source
    cases source with
    | zwp other => simp [OwnsPrimary]
    | control other => by_cases same : other = number <;> simp [OwnsPrimary, owner, same]

theorem Owned.answers (owned : s.Owned)
    (alive : ∀ source, s'.Alive source = s.Alive source)
    (told : ∀ source, s'.cancellations source = s.cancellations source +
      (s.OwnsPrimary source && !s'.OwnsPrimary source).toNat +
      (s.OwnsClipboard source && !s'.OwnsClipboard source).toNat) : Answers s s' := by
  intro source
  have primary : Superseded OwnsPrimary s s' source =
      (s.OwnsPrimary source && !s'.OwnsPrimary source) := by
    unfold Superseded
    cases owns : s.OwnsPrimary source with
    | false => rfl
    | true => rw [alive, owned.primary source owns, Bool.and_self]
  have clipboard : Superseded OwnsClipboard s s' source =
      (s.OwnsClipboard source && !s'.OwnsClipboard source) := by
    unfold Superseded
    cases owns : s.OwnsClipboard source with
    | false => rfl
    | true => rw [alive, owned.clipboard source owns, Bool.and_self]
  rw [primary, clipboard]
  exact told source

@[simp]
theorem replaced_eq_some {owner source : Option Nat} :
    replaced owner source = some (.control number) ↔
      owner = some number ∧ source ≠ some number := by
  unfold replaced
  split
  · rename_i same
    simp [same]
  · rename_i differ
    simp only [Option.map_eq_some_iff, SelectionSource.control.injEq, exists_eq_right, ne_eq,
      iff_self_and]
    rintro rfl same
    exact differ same.symm

@[simp]
theorem replaced_ne_zwp (owner source : Option Nat) (number : Nat) :
    replaced owner source ≠ some (.zwp number) := by
  unfold replaced
  split <;> simp

theorem Owned.primaryDeviceSetSelection (owned : s.Owned) (source : Option Nat)
    (memory : Nat → Bool) (live : ∀ number, source = some number → s.Alive (.zwp number) = true) :
    (s.primaryDeviceSetSelection source memory).Owned ∧
      ((s.primarySource = none ∨ s.primarySource = source) →
        Answers s (s.primaryDeviceSetSelection source memory)) := by
  unfold PrimarySelection.primaryDeviceSetSelection
  constructor
  · refine Owned.broadcast ?_ memory
    refine ⟨Or.inr rfl, ?_, owned.clipboard⟩
    intro owner owns
    cases owner with
    | zwp number => exact live number (ownsPrimary_zwp.mp owns)
    | control number => cases ownsPrimary_control.mp owns
  · intro unrivalled
    refine Answers.broadcast ?_ memory
    refine owned.answers (fun _ => rfl) fun owner => ?_
    refine (s.cancellations_sendCancelled _ _).trans ?_
    cases owner with
    | zwp number =>
      -- An owner of this protocol is the new one as well.
      cases unrivalled with
      | inl free => simp [OwnsPrimary, OwnsClipboard, free]
      | inr same => simp [OwnsPrimary, OwnsClipboard, same]
    | control number =>
      -- The other protocol is left without an owner, and whoever it had has been told.
      by_cases owns : s.primaryDcSource = some number
      · simp [OwnsPrimary, OwnsClipboard, owns, sendCancelled]
      · simp [OwnsPrimary, OwnsClipboard, owns, sendCancelled]

theorem Owned.dataControlDeviceSetPrimarySelection (owned : s.Owned) (source : Option Nat)
    (memory : Nat → Bool) :
    (s.dataControlDeviceSetPrimarySelection source memory).Owned ∧
      Answers s (s.dataControlDeviceSetPrimarySelection source memory) := by
  unfold PrimarySelection.dataControlDeviceSetPrimarySelection
  split
  · exact ⟨owned, answers_of_eq rfl rfl rfl fun _ => rfl⟩
  · rename_i used found
    obtain ⟨control, rfl, alive, live⟩ := use_spec found
    constructor
    · refine Owned.broadcast ?_ memory
      refine ⟨Or.inl rfl, ?_, ?_⟩
      · intro owner owns
        cases owner with
        | zwp number => cases ownsPrimary_zwp.mp owns
        | control number => exact live number (ownsPrimary_control.mp owns)
      · intro owner owns
        exact (alive owner).trans (owned.clipboard owner owns)
    · refine Answers.broadcast ?_ memory
      refine owned.answers alive fun owner => ?_
      -- Both protocols may have had an owner, and each is told in turn.
      refine (cancellations_sendCancelled _ _ _).trans ?_
      refine (congrArg (· + _) (cancellations_sendCancelled _ _ _)).trans ?_
      cases owner with
      | zwp number =>
        by_cases owns : s.primarySource = some number
        · simp [OwnsPrimary, OwnsClipboard, owns, sendCancelled, cancellations]
        · simp [OwnsPrimary, OwnsClipboard, owns, sendCancelled, cancellations]
      | control number =>
        by_cases owns : s.primaryDcSource = some number
        · simp [OwnsPrimary, OwnsClipboard, owns, sendCancelled, cancellations]
        · simp [OwnsPrimary, OwnsClipboard, owns, sendCancelled, cancellations]

theorem Owned.dataControlDeviceSetSelection (owned : s.Owned) (source : Option Nat) :
    (s.dataControlDeviceSetSelection source).Owned ∧
      Answers s (s.dataControlDeviceSetSelection source) := by
  unfold PrimarySelection.dataControlDeviceSetSelection
  split
  · exact ⟨owned, answers_of_eq rfl rfl rfl fun _ => rfl⟩
  · rename_i used found
    obtain ⟨control, rfl, alive, live⟩ := use_spec found
    constructor
    · refine ⟨owned.one, ?_, ?_⟩
      · intro owner owns
        exact (alive owner).trans (owned.primary owner owns)
      · intro owner owns
        cases owner with
        | zwp number => cases owns
        | control number => exact live number (ownsClipboard_control.mp owns)
    · refine owned.answers alive fun owner => ?_
      refine (cancellations_sendCancelled _ _ _).trans ?_
      -- The primary selection stays with its owner.
      change _ = _ + (s.OwnsPrimary owner && !s.OwnsPrimary owner).toNat + _
      rw [Bool.and_not_self]
      cases owner with
      | zwp number => simp [OwnsClipboard, cancellations]
      | control number => simp [OwnsClipboard, cancellations]

theorem Owned.dataControlCancelClipSource (owned : s.Owned) :
    s.dataControlCancelClipSource.Owned ∧ Answers s s.dataControlCancelClipSource := by
  unfold PrimarySelection.dataControlCancelClipSource
  constructor
  · refine ⟨owned.one, owned.primary, ?_⟩
    intro owner owns
    cases owner with
    | zwp number => cases owns
    | control number => cases ownsClipboard_control.mp owns
  · refine owned.answers (fun _ => rfl) fun owner => ?_
    refine (s.cancellations_sendCancelled _ _).trans ?_
    change _ = _ + (s.OwnsPrimary owner && !s.OwnsPrimary owner).toNat + _
    rw [Bool.and_not_self]
    cases owner with
    | zwp number => simp [OwnsClipboard]
    | control number => simp [OwnsClipboard]

theorem Owned.quiet (owned : s.Owned)
    (alive : ∀ source, s.Alive source = true → s'.Alive source = true)
    (primary : s'.primarySource = s.primarySource) (dc : s'.primaryDcSource = s.primaryDcSource)
    (clip : s'.dataControlClipSource = s.dataControlClipSource)
    (told : ∀ source, s'.cancellations source = s.cancellations source) : s'.Owned ∧ Answers s s' :=
  ⟨owned.of_eq alive primary dc clip, answers_of_eq primary dc clip told⟩

theorem Owned.primaryMgrGetDevice (owned : s.Owned) (client : Nat) (memory : Nat → Bool) :
    (s.primaryMgrGetDevice client memory).Owned ∧
      Answers s (s.primaryMgrGetDevice client memory) := by
  unfold PrimarySelection.primaryMgrGetDevice
  simp only
  split
  · exact owned.quiet (fun _ live => live) rfl rfl rfl fun _ => rfl
  · split
    · refine owned.quiet (fun _ live => live) rfl rfl rfl fun source => ?_
      simp [cancellations, List.count_append, count_cancelled_sendToDevice, newResource]
    · exact owned.quiet (fun _ live => live) rfl rfl rfl fun _ => rfl

theorem Owned.dataControlMgrGetDevice (owned : s.Owned) (version : Nat) (memory : Nat → Bool) :
    (s.dataControlMgrGetDevice version memory).Owned ∧
      Answers s (s.dataControlMgrGetDevice version memory) := by
  unfold PrimarySelection.dataControlMgrGetDevice
  simp only
  split
  · exact owned.quiet (fun _ live => live) rfl rfl rfl fun _ => rfl
  · refine owned.quiet (fun _ live => live) rfl rfl rfl fun source => ?_
    simp [cancellations, List.count_append, count_cancelled_sendPrimaryToDevice, newResource]

theorem alive_create (created : s'.zwpSources = Function.update s.zwpSources number (some []) ∧
        s'.controlSources = s.controlSources ∨
      s'.controlSources = Function.update s.controlSources number (some {}) ∧
        s'.zwpSources = s.zwpSources)
    (source : SelectionSource) (live : s.Alive source = true) : s'.Alive source = true := by
  cases created with
  | inl zwp =>
    cases source with
    | zwp other =>
      by_cases same : other = number
      · simp [Alive, zwp.1, same]
      · simpa [Alive, zwp.1, Function.update_of_ne same] using live
    | control other => simpa [Alive, zwp.2] using live
  | inr control =>
    cases source with
    | zwp other => simpa [Alive, control.2] using live
    | control other =>
      by_cases same : other = number
      · simp [Alive, control.1, same]
      · simpa [Alive, control.1, Function.update_of_ne same] using live

/-- Each event keeps owners owners, and tells who lost a selection unless to a rival. -/
theorem Owned.next (owned : s.Owned) (event : Event) (allowed : s.Allowed event) :
    (s.next event).Owned ∧ (s.Unrivalled event → Answers s (s.next event)) := by
  have known : ∀ s' : PrimarySelection, s'.Owned ∧ Answers s s' →
      s'.Owned ∧ (s.Unrivalled event → Answers s s') :=
    fun _ kept => ⟨kept.1, fun _ => kept.2⟩
  cases event with
  | createSource =>
    exact known _ (owned.quiet (alive_create (.inl ⟨rfl, rfl⟩)) rfl rfl rfl fun _ => rfl)
  | offer number mime memory =>
    refine known _ (owned.quiet (fun source live => ?_) rfl rfl rfl fun _ => rfl)
    exact (s.alive_update_zwp number _ source).trans live
  | destroySource number memory => exact known _ (owned.primarySourceResDestroy number memory)
  | createControlSource =>
    exact known _ (owned.quiet (alive_create (.inr ⟨rfl, rfl⟩)) rfl rfl rfl fun _ => rfl)
  | controlOffer number mime memory =>
    refine known _ (owned.quiet (fun source live => ?_) rfl rfl rfl fun _ => rfl)
    exact (s.alive_update_control number _ source).trans live
  | destroyControlSource number memory =>
    exact known _ (owned.dataControlSourceResDestroy number memory)
  | setSelection source memory =>
    refine owned.primaryDeviceSetSelection source memory fun number same => ?_
    subst same
    exact allowed
  | setPrimarySelection source memory =>
    exact known _ (owned.dataControlDeviceSetPrimarySelection source memory)
  | setClipboard source => exact known _ (owned.dataControlDeviceSetSelection source)
  | cancelClipboard => exact known _ owned.dataControlCancelClipSource
  | getDevice client memory => exact known _ (owned.primaryMgrGetDevice client memory)
  | getControlDevice version memory => exact known _ (owned.dataControlMgrGetDevice version memory)
  | destroyDevice resource | destroyControlDevice resource | focus client =>
    exact known _ (owned.quiet (fun _ live => live) rfl rfl rfl fun _ => rfl)

theorem owned_empty : Owned {} := by
  refine ⟨Or.inl rfl, ?_, ?_⟩
  · intro source owns
    cases source <;> cases owns
  · intro source owns
    cases source <;> cases owns

/--
There is at most one owner, and whoever loses a selection is told once.

In every history in which no source of the primary selection protocol takes the selection from
another one, each source has been told as often as it has lost the primary selection or the
clipboard while it was alive.
-/
theorem told_of_losses {trace : List Event} {s : PrimarySelection}
    (run : (machine.restrict Unrivalled).Run trace s) :
    s.OneOwner ∧ ∀ source, s.cancellations source =
      losses OwnsPrimary source trace + losses OwnsClipboard source trace := by
  -- Losses are counted along the history, so the state has to be the one the history leads to.
  have told : s = after trace ∧ s.Owned ∧ ∀ source, s.cancellations source =
      losses OwnsPrimary source trace + losses OwnsClipboard source trace := by
    refine run.invariant (fun trace s => s = after trace ∧ s.Owned ∧ ∀ source,
      s.cancellations source =
        losses OwnsPrimary source trace + losses OwnsClipboard source trace) ?_ ?_
    · intro s begun
      have empty : s = {} := begun
      rw [empty]
      exact ⟨rfl, owned_empty, fun _ => rfl⟩
    · intro trace s event kept allowed
      obtain ⟨reached, owned, counted⟩ := kept
      obtain ⟨owned', answers⟩ := owned.next event allowed.1
      refine ⟨?_, owned', fun source => ?_⟩
      · rw [reached]
        rfl
      · have once := answers allowed.2 source
        rw [counted source] at once
        simp only [losses, ← reached]
        refine once.trans ?_
        omega
  exact ⟨told.2.1.one, told.2.2⟩

def handOver : List Event :=
  [.createSource, .createControlSource, .setSelection (some 0) (fun _ => true),
    .setPrimarySelection (some 1) (fun _ => true)]

theorem told_of_losses_handOver :
    (handOver.foldl next {}).cancellations (.zwp 0) = 1 ∧
      (handOver.foldl next {}).primaryDcSource = some 1 := by
  have run : (machine.restrict Unrivalled).Run handOver.reverse (handOver.foldl next {}) :=
    .of_script (m := machine.restrict Unrivalled) (s := {}) rfl handOver
      ⟨⟨trivial, trivial⟩, ⟨trivial, trivial⟩, ⟨rfl, Or.inl rfl⟩, ⟨rfl, trivial⟩, trivial⟩
  have told := (told_of_losses run).2 (.zwp 0)
  exact ⟨told.trans (by decide), by decide⟩

def takeOver : List Event :=
  [.createSource, .createSource, .setSelection (some 0) (fun _ => true),
    .setSelection (some 1) (fun _ => true)]

/-- The first of them is not told that it lost the selection. -/
theorem not_told_of_losses :
    ¬∀ (trace : List Event) (s : PrimarySelection), machine.Run trace s →
      s.OneOwner ∧ ∀ source, s.cancellations source =
        losses OwnsPrimary source trace + losses OwnsClipboard source trace := by
  intro told
  have run : machine.Run takeOver.reverse (takeOver.foldl next {}) :=
    .of_script (m := machine) (s := {}) rfl takeOver ⟨trivial, trivial, rfl, rfl, trivial⟩
  have silent : (takeOver.foldl next {}).cancellations (.zwp 0) = 0 := by decide
  have lost : losses OwnsPrimary (.zwp 0) takeOver.reverse +
      losses OwnsClipboard (.zwp 0) takeOver.reverse = 1 := by decide
  have same := (told _ _ run).2 (.zwp 0)
  rw [silent, lost] at same
  cases same

end PrimarySelection

end Xios
