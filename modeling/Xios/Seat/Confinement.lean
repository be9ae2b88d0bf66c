import Xios.Seat.LockLaws

/-! While the session is locked, keyboard and pointer are on the lock surface or on nothing. -/

namespace Xios

namespace Seat

/-- The session is locked up. -/
structure Confined (d : Seat) : Prop where
  keyboard : d.locked = true → d.kbdFocus = none ∨ d.kbdFocus = d.windows.lockSurface
  -- At every point there is the lock surface or nothing.
  point : d.locked = true → ∀ contains, d.surfaceAt contains = none ∨
    d.surfaceAt contains = d.windows.lockSurface
  pointer : d.locked = true → d.ptrFocus = none ∨ d.ptrFocus = d.windows.lockSurface
  -- The lock surface was created through the lock that is held.
  origin : ∀ l, d.lock = some l → d.windows.lockSurface.isSome = true → d.lockOrigin = some l

/-- What a session maintains apart from the pointer. -/
structure Sealed (d : Seat) : Prop where
  -- Surfaces are used consistently.
  roles : d.windows.Roles
  -- The keyboard is on the lock surface or on nothing.
  keyboard : d.KeysConfined
  origin : ∀ l, d.lock = some l → d.windows.lockSurface.isSome = true → d.lockOrigin = some l

/-- What a session maintains. -/
structure Held (d : Seat) : Prop extends d.Sealed where
  -- The pointer of a locked session is on the lock surface or on nothing.
  pointer : d.locked = true → d.ptrFocus = none ∨ d.ptrFocus = d.windows.lockSurface

variable {d d' : Seat}

theorem Calm.sealed (calm : d.Calm d') (sealed : d.Sealed) : d'.Sealed := by
  refine ⟨calm.roles, calm.keys sealed.keyboard, fun l taken shown => ?_⟩
  rw [calm.origin]
  exact sealed.origin l (calm.lock ▸ taken) (calm.lockSurface ▸ shown)

theorem Calm.held (calm : d.Calm d') (held : d.Held) : d'.Held := by
  refine ⟨calm.sealed held.toSealed, fun locked => ?_⟩
  rw [calm.lockSurface]
  rcases calm.pointer with same | left
  · rw [same]
    exact held.pointer (calm.locked ▸ locked)
  · exact .inl left

theorem surfaceAt_of_locked (locked : d.locked = true) (contains : Nat → Bool) :
    d.surfaceAt contains = none ∨ d.surfaceAt contains = d.windows.lockSurface := by
  unfold surfaceAt
  rw [if_pos locked]
  cases d.windows.lockSurface with
  | none => exact .inl rfl
  | some s =>
    rw [Option.filter_some]
    split
    · exact .inr rfl
    · exact .inl rfl

theorem Held.confined (held : d.Held) : d.Confined :=
  ⟨held.keyboard, surfaceAt_of_locked, held.pointer, held.origin⟩

/-- The keyboard of a lock surface that is given up goes to no popup. -/
def KeysFree (d : Seat) (s : Nat) : Prop :=
  d.locked = true → d.kbdFocus = some s → d.windows.grabCount ≤ 0

/-- The pointer is not on a lock surface that is given up. -/
def PointerFree (d : Seat) (s : Nat) : Prop :=
  d.locked = true → d.ptrFocus ≠ some s

/-- A press on the lock surface gives the keyboard to no popup. -/
def PressFree (d : Seat) (hit : Option Nat) : Prop :=
  d.locked = true → hit.isSome = true → d.popupHitIsWithinGrab hit = true →
    d.windows.grabCount ≤ 0

/--
An event does not take a popup or an earlier lock for the lock surface.

Popups that hold a grab are dismissed before the session is locked, and the lock surface of an
earlier lock is gone by then. The lock surface is given up only without grabs and without the
pointer on it, and is not itself a child of a popup that holds a grab.
-/
def LockSafe (d : Seat) : Event → Prop
  | .lock _ => d.lock = none → d.windows.grabCount ≤ 0 ∧ d.windows.lockSurface = none
  | .getLockSurface l s =>
    (d.lock = some l ∧ d.locked = true) ∧ (d.surface s).role = .none ∧
      d.windows.lockSurface = none → d.windows.grabCount ≤ 0
  | .window (.lockSurfaceDestroyed s) => d.KeysFree s ∧ d.PointerFree s
  | .window (.commit s _) =>
    d.windows.lockSurface = some s → (d.surface s).bufferAttached = true →
      (d.surface s).pendingBuffer = false → d.KeysFree s ∧ d.PointerFree s
  | .window (.destroy s) => d.windows.lockSurface = some s → d.KeysFree s
  | .buttonDown => d.drag = none → d.PressFree d.ptrFocus
  | .touchDown contains room => room = true → d.PressFree (d.surfaceAt contains)
  | .pencilDown contains =>
    d.locked = true → (d.surfaceAt contains).isSome = true → d.windows.grabCount ≤ 0
  | _ => True

instance decidableLockSafe (d : Seat) (event : Event) : Decidable (d.LockSafe event) := by
  unfold LockSafe KeysFree PointerFree PressFree
  induction event using Event.casesOn with
  | window event =>
    induction event using WindowStack.Event.casesOn <;> infer_instance
  | _ => infer_instance

variable {s : Nat}

theorem Sealed.giveUp (sealed : d.Sealed) (shown : d.windows.lockSurface = some s)
    (keys : d.KeysFree s) {st : WindowStack} (roles : st.Roles)
    (grabs : st.grabCount = d.windows.grabCount) (gone : st.lockSurface = none) :
    (if (d.withWindows st).kbdFocus = some s then (d.withWindows st).keyboardSetFocus none
      else d.withWindows st).Sealed := by
  split
  · next focused =>
    refine ⟨roles, fun locked => .inr ?_, fun l _ shown => ?_⟩
    · refine focusTarget_of_locked locked fun _ grabbed => ?_
      have free := keys locked focused
      rw [windows_withWindows] at grabbed
      omega
    · rw [windows_keyboardSetFocus, windows_withWindows, gone] at shown
      cases shown
  · next unfocused =>
    refine ⟨roles, fun locked => .inl ?_, fun l _ shown => ?_⟩
    · rcases sealed.keyboard locked with none | lock
      · exact none
      · exact absurd (lock.trans shown) unfocused
    · rw [windows_withWindows, gone] at shown
      cases shown

theorem Held.pointer_none (held : d.Held) (shown : d.windows.lockSurface = some s)
    (pointer : d.PointerFree s) (locked : d.locked = true) : d.ptrFocus = none := by
  rcases held.pointer locked with none | lock
  · exact none
  · exact absurd (lock.trans shown) (pointer locked)

theorem surfaceUnmap_of_lock (roles : d.windows.Roles) (shown : d.windows.lockSurface = some s) :
    d.surfaceUnmap s = ((d.dragGone s).movingGone s).lockSurfaceGone s := by
  have hidden : (d.surface s).mapped = false :=
    ((roles.proper s).free (.inr (roles.locked s shown))).1
  have still : ((((d.dragGone s).movingGone s).lockSurfaceGone s).surface s).mapped = false := by
    rw [surface, windows_gone, if_pos shown]
    exact hidden
  have unmapped : ∀ gone, unmapWith gone d s =
      ((d.dragGone s).movingGone s).lockSurfaceGone s := by
    intro gone
    unfold unmapWith
    dsimp only
    rw [still]
    rfl
  unfold surfaceUnmap
  cases d.windows.grabCount.toNat with
  | zero => exact unmapped _
  | succ grabs => exact unmapped _

theorem Sealed.surfaceUnmap (sealed : d.Sealed) (shown : d.windows.lockSurface = some s)
    (keys : d.KeysFree s) :
    (d.surfaceUnmap s).Sealed ∧ (d.surfaceUnmap s).locked = d.locked ∧
      ((d.surfaceUnmap s).ptrFocus = d.ptrFocus ∨ (d.surfaceUnmap s).ptrFocus = none) := by
  have begun := calm_dragGone sealed.roles s
  have dragged : ((d.dragGone s).movingGone s).windows = d.windows ∧
      ((d.dragGone s).movingGone s).kbdFocus = d.kbdFocus := by
    unfold dragGone movingGone dndEnd
    split <;> split <;> (try split) <;> exact ⟨rfl, rfl⟩
  rw [surfaceUnmap_of_lock sealed.roles shown]
  have kept := begun.sealed sealed
  have locked := begun.locked
  have moved := begun.pointer
  generalize (d.dragGone s).movingGone s = d' at kept dragged locked moved
  have shown' : d'.windows.lockSurface = some s := by rw [dragged.1, shown]
  unfold lockSurfaceGone
  rw [if_pos shown']
  have free : d'.KeysFree s := by
    intro held focused
    rw [dragged.1]
    exact keys (locked ▸ held) (dragged.2 ▸ focused)
  refine ⟨kept.giveUp shown' free (kept.roles.of_eq rfl fun _ none => by cases none) rfl rfl,
    ?_, ?_⟩
  · dsimp only
    split <;> exact locked
  · dsimp only
    split <;> exact moved

theorem Held.surfaceUnmap (held : d.Held) (shown : d.windows.lockSurface = some s)
    (keys : d.KeysFree s) (pointer : d.PointerFree s) : (d.surfaceUnmap s).Held := by
  obtain ⟨sealed, same, moved⟩ := held.toSealed.surfaceUnmap shown keys
  refine ⟨sealed, fun locked => .inl ?_⟩
  rw [same] at locked
  rcases moved with stays | left
  · rw [stays]
    exact held.pointer_none shown pointer locked
  · exact left

theorem Held.slockSurfaceResourceDestroy (held : d.Held) (shown : d.windows.lockSurface = some s)
    (keys : d.KeysFree s) (pointer : d.PointerFree s) : (d.slockSurfaceResourceDestroy s).Held := by
  have roles : (d.windows.slockSurfaceResourceDestroy s).Roles :=
    held.roles.next (.lockSurfaceDestroyed s) shown
  unfold Seat.slockSurfaceResourceDestroy
  dsimp only
  refine ⟨held.toSealed.giveUp shown keys roles rfl rfl, fun locked => .inl ?_⟩
  have same : d.locked = true := by
    revert locked
    split <;> exact id
  have left := held.pointer_none shown pointer same
  split <;> exact left

theorem ptrFocus_pointerGone (d : Seat) (s : Nat) : (d.pointerGone s).ptrFocus ≠ some s := by
  unfold pointerGone
  split
  · simp
  · next other => exact other

theorem calm_bury (roles : d.windows.Roles) (other : d.windows.lockSurface ≠ some s) :
    d.Calm (d.bury s) ∧ (d.bury s).ptrFocus ≠ some s := by
  have stripped : d.Calm (d.withWindows ((d.windows.modify s fun x =>
      { x with subsurface := none, layer := none }).orphan s)) :=
    calm_withWindows ((roles.modify s (fun proper => { proper with
      subsurface := fun some => absurd some (by simp)
      layer := fun some => absurd some (by simp) }) fun _ => rfl).orphan s) rfl
  have gone := stripped.trans (calm_popupGrabOnSurfaceGone stripped.roles s)
  unfold bury
  dsimp only
  generalize (d.withWindows _).popupGrabOnSurfaceGone s = d' at gone
  have forgotten : d.Calm
      (if d'.grabPrevFocus = some s then { d' with grabPrevFocus := none } else d') := by
    split
    · exact gone.trans (.of_eq rfl rfl rfl rfl gone.roles rfl (.inl rfl))
    · exact gone
  generalize (if d'.grabPrevFocus = some s then { d' with grabPrevFocus := none } else d') = d''
    at forgotten
  have off := forgotten.trans (calm_pointerGone forgotten.roles s)
  have away := d''.ptrFocus_pointerGone s
  have left := off.trans (calm_keyboardGone off.roles (off.lockSurface ▸ other))
  have still : ((d''.pointerGone s).keyboardGone s).ptrFocus = (d''.pointerGone s).ptrFocus := by
    unfold keyboardGone
    split <;> rfl
  have blank : (((d''.pointerGone s).keyboardGone s).windows.modify s fun _ => {}).Roles := by
    refine left.roles.modify s (fun _ => ?_) fun held => ?_
    · constructor <;> simp
    · exact absurd held (left.lockSurface ▸ other)
  refine ⟨left.trans (.of_eq rfl rfl rfl rfl blank rfl (.inl rfl)), ?_⟩
  · show ((d''.pointerGone s).keyboardGone s).ptrFocus ≠ some s
    rw [still]
    exact away

theorem Held.surfaceResourceDestroy (held : d.Held) (s : Nat)
    (keys : d.windows.lockSurface = some s → d.KeysFree s) : (d.surfaceResourceDestroy s).Held := by
  have removed : d.Calm
      (d.withWindows { d.windows with surfaces := d.windows.surfaces.erase s }) :=
    calm_withWindows (held.roles.of_eq rfl fun _ => id) rfl
  have begun := removed.held held
  have unlocked := WindowStack.lock_surfaceUnmap
    { d.windows with surfaces := d.windows.surfaces.erase s } s
  rw [surfaceResourceDestroy_eq]
  by_cases other : d.windows.lockSurface = some s
  · -- The pointer may be on the lock surface until the surface is buried.
    obtain ⟨sealed, same, moved⟩ := begun.toSealed.surfaceUnmap other (keys other)
    have windows := windows_surfaceUnmap
      (d.withWindows { d.windows with surfaces := d.windows.surfaces.erase s }) s
    generalize (d.withWindows _).surfaceUnmap s = d' at sealed same moved windows
    obtain ⟨calm, away⟩ := calm_bury sealed.roles (s := s) (by rw [windows]; exact unlocked)
    refine ⟨calm.sealed sealed, fun locked => .inl ?_⟩
    rcases calm.pointer with stays | left
    · rw [stays]
      rw [stays] at away
      rcases moved with unmoved | left
      · rw [unmoved]
        rw [unmoved] at away
        rcases held.pointer (same ▸ calm.locked ▸ locked) with none | lock
        · exact none
        · exact absurd (lock.trans other) away
      · exact left
    · exact left
  · have hidden := calm_surfaceUnmap begun.roles (s := s) other
    have buried := (calm_bury hidden.roles (s := s) (hidden.lockSurface ▸ other)).1
    exact (hidden.trans buried).held begun

theorem Held.surfaceCommitApply (held : d.Held) (input : CommitInput) (s : Nat)
    (safe : d.windows.lockSurface = some s → (d.surface s).bufferAttached = true →
      (d.surface s).pendingBuffer = false → d.KeysFree s ∧ d.PointerFree s) :
    (d.surfaceCommitApply input s).Held := by
  by_cases role : (d.surface s).role = .lock
  · -- The surface's own part is a buffer and nothing else, and the children are subsurfaces.
    have own : (commitOwn input d s).Held := by
      rw [commitOwn, commitPrepare_of_lock input held.roles role]
      by_cases taken : d.windows.lockSurface = some s ∧ (d.surface s).bufferAttached = true ∧
          (d.surface s).pendingBuffer = false
      · obtain ⟨shown, attached, empty⟩ := taken
        obtain ⟨keys, pointer⟩ := safe shown attached empty
        have replaced : d.Calm (d.withWindows (d.windows.modify s fun x =>
            { x with
              pendingBuffer := false, bufferAttached := false
              currentBuffer := (d.surface s).pendingBuffer })) :=
          calm_withWindows ((WindowStack.keeps_replaceBuffer _ s _).roles held.roles) rfl
        unfold bufferCommit
        rw [if_pos attached, if_neg (by rw [empty]; decide)]
        exact (replaced.held held).surfaceUnmap shown keys pointer
      · refine (calm_bufferCommit held.roles fun shown attached => ?_).held held
        by_contra empty
        exact taken ⟨shown, attached, Bool.not_eq_true _ ▸ empty⟩
    unfold Seat.surfaceCommitApply
    cases d.windows.waiting with
    | zero => exact (calm_commitWith input (fun _ _ roles _ => .refl roles) rfl own.roles).held own
    | succ waiting =>
      exact (calm_commitWith input (calm_commitNested input waiting) rfl own.roles).held own
  · exact (calm_commitNested input _ d s held.roles role).held held

theorem calm_dropRole (hidden : d.Calm d') {f : Surface → Surface}
    (roles : (d'.withWindows (d'.windows.modify s f)).windows.Roles) :
    d.Calm (d'.withWindows (d'.windows.modify s f)) :=
  hidden.trans (calm_withWindows roles rfl)

theorem Held.roleGone (held : d.Held) {f : Surface → Surface}
    (free : d.windows.lockSurface ≠ some s)
    (roles : ((d.surfaceUnmap s).withWindows
      ((d.surfaceUnmap s).windows.modify s f)).windows.Roles) :
    ((d.surfaceUnmap s).withWindows ((d.surfaceUnmap s).windows.modify s f)).Held :=
  (calm_dropRole (calm_surfaceUnmap held.roles free) roles).held held

theorem Held.withWindows (held : d.Held) {st : WindowStack} (roles : st.Roles)
    (lockSurface : st.lockSurface = d.windows.lockSurface) : (d.withWindows st).Held :=
  (calm_withWindows roles lockSurface).held held

/-- A request that is made of the windows takes no focus away from the lock surface. -/
theorem Held.nextWindow (held : d.Held) (event : WindowStack.Event)
    (direct : Seat.direct event = true) (allowed : d.windows.Allowed event)
    (safe : d.LockSafe (.window event)) : (d.nextWindow event).Held := by
  have after : (d.nextWindow event).windows.Roles := by
    rw [windows_nextWindow]
    exact held.roles.next event allowed
  have proper := held.roles.proper
  have other : ∀ s, (d.surface s).role ≠ .lock → d.windows.lockSurface ≠ some s :=
    fun s => held.roles.ne_lock
  -- Only the lock surface itself matters to the lock, and most requests cannot name it.
  cases event with
  | destroy s => exact held.surfaceResourceDestroy s safe
  | commit s input =>
    rw [Seat.nextWindow, surfaceCommit]
    split
    · next waits =>
      rw [WindowStack.surfaceCommit, if_pos waits]
      refine (calm_withWindows ?_ ?_).held held
      · have after := held.roles.next (.commit s input) allowed
        rw [WindowStack.next, WindowStack.surfaceCommit, if_pos waits] at after
        exact after
      · rfl
    · exact held.surfaceCommitApply input s safe
  | lockSurfaceDestroyed s => exact held.slockSurfaceResourceDestroy allowed safe.1 safe.2
  -- These change surfaces one at a time, and the lock surface stays the one it is.
  | create s | attach s buffer | pendingBufferDestroyed s | placeBelow s | setSync s
  | setLayer s layer => exact held.withWindows after rfl
  | placeAbove s =>
    exact held.withWindows after (WindowStack.blind_surfaceRaise (fun _ _ => rfl) _ s)
  | getToplevel s =>
    refine held.withWindows after ?_
    rw [WindowStack.next, WindowStack.xsGetToplevel]
    split <;> rfl
  | setParent s parent =>
    refine held.withWindows after ?_
    rw [WindowStack.next, WindowStack.xtSetParent]
    split <;> rfl
  | getPopup s parent =>
    refine held.withWindows after ?_
    rw [WindowStack.next, WindowStack.xsGetPopup]
    split
    · rfl
    · split <;> rfl
  | getSubsurface s parent =>
    refine held.withWindows after ?_
    rw [WindowStack.next, WindowStack.getSubsurface]
    split
    · rfl
    · split <;> rfl
  | layerGetPopup s popup =>
    refine held.withWindows after ?_
    rw [WindowStack.next, WindowStack.layerSurfaceGetPopup]
    split <;> rfl
  | getLayerSurface s layer =>
    have same : (d.windows.getLayerSurface s layer).lockSurface = d.windows.lockSurface := by
      unfold WindowStack.getLayerSurface
      split <;> rfl
    have calm : d.Calm (d.getLayerSurface s layer) := .of_eq rfl rfl rfl same after rfl (.inl rfl)
    exact calm.held held
  | bufferDestroyed s =>
    have cleared : d.Calm
        (d.withWindows (d.windows.modify s fun x => { x with currentBuffer := false })) :=
      calm_withWindows (held.roles.modify s (fun proper => { proper with }) fun _ => rfl) rfl
    rw [Seat.nextWindow, onBufferDestroyed]
    split
    · next shown =>
      have free := held.roles.mapped_ne_lock shown
      exact (cleared.trans (calm_surfaceUnmap cleared.roles free)).held held
    · exact cleared.held held
  -- The surface has a role of its own, so that it is not the lock surface.
  | toplevelDestroyed s =>
    have free := other s (by rw [((proper s).toplevel allowed.2).1]; decide)
    exact held.roleGone free after
  | popupDestroyed s =>
    have free := other s (by rw [((proper s).popup allowed.2).1]; decide)
    have hidden := calm_surfaceUnmap held.roles free
    exact (calm_dropRole (hidden.trans (calm_popupGrabOnSurfaceGone hidden.roles s)) after).held
      held
  | subsurfaceDestroyed s =>
    have free := other s (by rw [(proper s).subsurface allowed.2]; decide)
    exact held.roleGone free after
  | layerDestroyed s =>
    have free := other s (by rw [(proper s).layer allowed.2]; decide)
    revert after
    rw [Seat.nextWindow, layerSurfaceResDestroy]
    split
    · exact fun _ => held
    · exact fun after => held.roleGone free after
  | unadopt s =>
    revert after
    rw [Seat.nextWindow, xwmUnadoptSurface]
    split
    · next foreign =>
      have free := other s ((proper s).adoptable (by rw [foreign]; simp)).2.2.2.2.1
      exact fun after => held.roleGone free after
    · exact fun _ => held
  | adopt s overrideRedirect => exact (calm_xwmAdoptSurface held.roles s overrideRedirect).held held
  | grab s =>
    rw [Seat.nextWindow, popupGrab]
    split
    · exact held
    · next granted =>
      simp only [not_or, ne_eq, not_not] at granted
      have grabbed : d.Calm { d.withWindows (d.windows.popupGrab s) with
          grabPrevFocus := if d.windows.grabCount = 0 then d.kbdFocus else d.grabPrevFocus } := by
        have roles := held.roles.next (.grab s) allowed
        refine .of_eq rfl rfl rfl ?_ roles rfl (.inl rfl)
        show (d.windows.popupGrab s).lockSurface = d.windows.lockSurface
        unfold WindowStack.popupGrab
        split <;> rfl
      refine (grabbed.trans (calm_keyboardSetFocus grabbed.roles fun _ lock => ?_)).held held
      rw [grabbed.lockSurface] at lock
      exact absurd lock.symm (other s (by rw [granted.1]; decide))
  | setDesync s input =>
    have role : (d.surface s).role ≠ .lock := by
      rw [(proper s).subsurface allowed.2]
      decide
    have desync : d.Calm (d.withWindows (d.windows.modify s fun x =>
        { x with subsurface := x.subsurface.map ({ · with sync := false }) })) := by
      refine calm_withWindows (held.roles.modify s (fun proper => ?_) fun _ => rfl) rfl
      exact { proper with subsurface := by simpa using proper.subsurface }
    rw [Seat.nextWindow, subsurfaceSetDesync]
    split
    · have released := desync.trans
        (calm_withWindows ((WindowStack.keeps_release _ s).roles desync.roles) rfl)
      refine (released.trans (calm_commitNested input _ _ s released.roles ?_)).held held
      simpa [surface, WindowStack.release] using role
    · exact desync.held held
  | getLockSurface s granted => cases direct
  | raise s => cases direct
  | pressOutside => cases direct

theorem calm_activate (roles : d.windows.Roles) (other : d.windows.lockSurface ≠ some s) :
    d.Calm (d.activate s) := by
  have raised : d.Calm (d.withWindows (d.windows.surfaceRaise s)) :=
    calm_withWindows ((WindowStack.keeps_surfaceRaise _ s).roles roles)
      (WindowStack.blind_surfaceRaise (fun _ _ => rfl) _ s)
  refine raised.trans (calm_keyboardSetFocus raised.roles fun _ lock => ?_)
  rw [raised.lockSurface] at lock
  exact absurd lock.symm other

theorem calm_pressFocus (roles : d.windows.Roles) (hit : Nat)
    (ended : d.locked = true → d.windows.grabCount ≤ 0) : d.Calm (d.pressFocus hit) := by
  have raised : d.Calm (d.withWindows (d.windows.surfaceRaise hit)) :=
    calm_withWindows ((WindowStack.keeps_surfaceRaise _ hit).roles roles)
      (WindowStack.blind_surfaceRaise (fun _ _ => rfl) _ hit)
  have count : (d.windows.surfaceRaise hit).grabCount = d.windows.grabCount :=
    WindowStack.blind_surfaceRaise (fun _ _ => rfl) _ hit
  unfold pressFocus
  split
  · exact .refl roles
  · refine raised.trans (calm_keyboardSetFocus raised.roles fun locked _ grabbed => ?_)
    have none := ended locked
    rw [windows_withWindows, count] at grabbed
    omega

theorem grabCount_popupGrabDismissAll (d : Seat) : d.popupGrabDismissAll.windows.grabCount = 0 := by
  rw [windows_popupGrabDismissAll, WindowStack.popupGrabDismissAll]
  split
  · next none => exact none
  · rfl

theorem calm_dismissOutside (roles : d.windows.Roles) (hit : Option Nat) :
    d.Calm (d.dismissOutside hit) ∧
      ((d.popupHitIsWithinGrab hit = true → d.windows.grabCount ≤ 0) →
        (d.dismissOutside hit).windows.grabCount ≤ 0) := by
  unfold dismissOutside
  split
  · exact ⟨calm_popupGrabDismissAll roles, fun _ => le_of_eq d.grabCount_popupGrabDismissAll⟩
  · next kept =>
    refine ⟨.refl roles, fun free => ?_⟩
    by_contra grabbed
    refine grabbed (free ?_)
    by_contra outside
    exact kept ⟨by omega, Bool.not_eq_true _ ▸ outside⟩

theorem calm_press (roles : d.windows.Roles) {hit : Option Nat} (free : d.PressFree hit)
    (some : hit = some s) : d.Calm ((d.dismissOutside hit).pressFocus s) := by
  obtain ⟨dismissed, ended⟩ := calm_dismissOutside roles hit
  refine dismissed.trans (calm_pressFocus dismissed.roles s fun locked => ended fun within => ?_)
  exact free (dismissed.locked ▸ locked) (some ▸ rfl) within

theorem calm_surfaceSetMinimized (roles : d.windows.Roles) (s : Nat) (minimized : Bool) :
    d.Calm (d.surfaceSetMinimized s minimized) := by
  unfold surfaceSetMinimized
  split
  · exact .refl roles
  · next changed =>
    simp only [not_or, ne_eq, not_not] at changed
    have noted : d.Calm { d with minimized := Function.update d.minimized s minimized } :=
      .of_eq rfl rfl rfl rfl roles rfl (.inl rfl)
    dsimp only
    split
    · next focused =>
      have other := roles.ne_lock (s := s) (by rw [changed.1]; decide)
      exact noted.trans (calm_takeKeyboard noted.roles other focused.2 _)
    · exact noted

/-- Every safe event leaves the session locked up. -/
theorem Held.next (held : d.Held) (event : Event) (allowed : d.Allowed event)
    (safe : d.LockSafe event) : (d.next event).Held := by
  have roles := held.roles
  cases event with
  | window event => exact held.nextWindow event allowed.1 allowed.2 safe
  | setKbd s wanted =>
    rw [Seat.next, layerSurfaceSetKbd]
    split
    · exact ⟨⟨roles, held.keyboard, held.origin⟩, held.pointer⟩
    · exact held
  | lock l =>
    rw [Seat.next, slockMgrLock]
    split
    · exact held
    · next free =>
      obtain ⟨ended, gone⟩ := safe (Option.not_isSome_iff_eq_none.mp free)
      -- The new lock takes the keyboard and the pointer away from everyone.
      have taken : Held { { d with lock := some l, locked := true }.keyboardSetFocus none with
          ptrFocus := none } := by
        refine ⟨⟨roles, fun _ => .inr ?_, fun o _ shown => ?_⟩, fun _ => .inl rfl⟩
        · exact focusTarget_of_locked rfl fun _ grabbed => absurd grabbed (not_lt.mpr ended)
        · have none : d.windows.lockSurface.isSome = false := by rw [gone]; rfl
          exact absurd shown (Bool.eq_false_iff.mp none)
      exact (calm_dndEnd taken.roles).held taken
  | getLockSurface l s =>
    rw [Seat.next, slockGetLockSurface]
    split
    · next granted =>
      have free : ¬(true = false ∨ (d.windows.surface s).role ≠ .none ∨
          d.windows.lockSurface.isSome = true) := by
        simp [granted.2.1, granted.2.2]
      have ended := safe granted
      -- The first surface of the lock that holds the session becomes the lock surface.
      have shown : d.windows.slockGetLockSurface s true =
          { d.windows with lockSurface := some s }.modify s fun x => { x with role := .lock } := by
        rw [WindowStack.slockGetLockSurface, if_neg free]
      have after := roles.next (.getLockSurface s true) allowed
      rw [WindowStack.next, shown] at after
      rw [shown]
      refine ⟨⟨after, fun locked => .inr ?_, fun o taken _ => ?_⟩, fun locked => .inl ?_⟩
      · refine focusTarget_of_locked locked fun _ grabbed => absurd grabbed (not_lt.mpr ended)
      · exact granted.1.1.symm.trans taken
      · rcases held.pointer locked with none | lock
        · exact none
        · exact lock.trans granted.2.2
    · exact held
  | unlock l =>
    rw [Seat.next, slockUnlockAndDestroy]
    split
    · refine ⟨⟨roles, ?_, ?_⟩, ?_⟩
      · exact fun locked => by cases locked
      · exact fun _ taken => by cases taken
      · exact fun locked => by cases locked
    · exact held
  | lockDestroyed l =>
    rw [Seat.next, slockResourceDestroy]
    split
    · exact ⟨⟨roles, held.keyboard, fun _ taken => by cases taken⟩, held.pointer⟩
    · exact held
  | motion contains held' =>
    rw [Seat.next, handleMotion]
    split
    · exact held
    · exact ⟨⟨roles, held.keyboard, held.origin⟩, fun locked => surfaceAt_of_locked locked contains⟩
  | buttonDown =>
    rw [Seat.next, handleButtonDown]
    split
    · exact held
    · next still =>
      have free := safe (Option.not_isSome_iff_eq_none.mp still)
      have dismissed := (calm_dismissOutside roles d.ptrFocus).1
      dsimp only
      split
      · next s hit =>
        have same : d.ptrFocus = some s := by
          rcases dismissed.pointer with stays | left
          · exact stays.symm.trans hit
          · rw [left] at hit
            cases hit
        exact (calm_press roles free same).held held
      · exact dismissed.held held
  | buttonUp drops =>
    rw [Seat.next, handleButtonUp]
    split
    · split
      · exact (calm_dndEnd roles).held held
      · exact held
    · exact ⟨⟨roles, held.keyboard, held.origin⟩, held.pointer⟩
  | touchDown contains room =>
    have dismissed := (calm_dismissOutside roles (d.surfaceAt contains)).1
    rw [Seat.next, handleTouchDown]
    split
    · next s hit =>
      split
      · next fits => exact (calm_press roles (safe fits) hit).held held
      · exact dismissed.held held
    · exact dismissed.held held
  | pencilDown contains =>
    rw [Seat.next, handlePencilDown]
    split
    · next s hit =>
      refine (calm_pressFocus roles s fun locked => safe locked ?_).held held
      rw [hit]
      rfl
    · exact held
  | scrollOn s =>
    rw [Seat.next]
    split
    · exact held
    · next unlocked =>
      exact ⟨⟨roles, held.keyboard, held.origin⟩, fun locked => absurd locked unlocked⟩
  | keyOn s =>
    refine (calm_keyboardSetFocus roles fun _ lock => ?_).held held
    exact absurd lock.symm (roles.mapped_ne_lock allowed)
  | nativeActivate s => exact (calm_activate roles (roles.mapped_ne_lock allowed.1)).held held
  | nativeDeactivate s =>
    rw [Seat.next]
    split
    · next focused =>
      exact (calm_takeKeyboard roles (roles.mapped_ne_lock allowed.1) focused none).held held
    · exact held
  | startDrag origin icon =>
    rw [Seat.next, dataDeviceStartDrag]
    split
    · exact held
    · exact ⟨⟨roles, held.keyboard, held.origin⟩, fun _ => .inl rfl⟩
  | endDrag => exact (calm_dndEnd roles).held held
  | interactiveBegin s =>
    rw [Seat.next, Seat.interactiveBegin]
    split
    · exact ⟨⟨roles, held.keyboard, held.origin⟩, held.pointer⟩
    · exact held
  | minimize s minimized => exact (calm_surfaceSetMinimized roles s minimized).held held
  | restore s =>
    have shown := calm_surfaceSetMinimized roles s false
    have other := roles.mapped_ne_lock allowed.1
    exact (shown.trans (calm_activate shown.roles (shown.lockSurface ▸ other))).held held
  | activate s => exact (calm_activate roles (roles.mapped_ne_lock allowed)).held held

/-- In every history of safe events a locked session is locked up. -/
theorem confined_of_lockSafe {trace : List Event} {d : Seat}
    (run : (machine.restrict LockSafe).Run trace d) : d.Confined := by
  have held : d.Held := by
    refine run.invariant (fun _ d => d.Held) ?_ ?_
    · rintro _ rfl
      refine ⟨⟨⟨fun s => ?_, nofun⟩, nofun, nofun⟩, nofun⟩
      constructor <;> simp
    · exact fun _ d event held allowed => held.next event allowed.1 allowed.2
  exact held.confined

def lockScript : List Event :=
  [.window (.create 1), .lock 7, .getLockSurface 7 1, .window (.attach 1 true),
    .window (.commit 1 {}), .motion (fun _ => true) false, .buttonDown]

theorem confined_of_lockSafe_pressed :
    (lockScript.foldl next {}).locked = true ∧
      (lockScript.foldl next {}).kbdFocus = some 1 ∧
      (lockScript.foldl next {}).ptrFocus = some 1 ∧
      (lockScript.foldl next {}).Confined :=
  ⟨by decide +kernel, by decide +kernel, by decide +kernel,
    confined_of_lockSafe (Machine.Run.of_script (m := machine.restrict LockSafe) rfl lockScript
      (by decide +kernel))⟩

def grabbedScript : List Event :=
  [.window (.create 1), .window (.getToplevel 1), .window (.create 2),
    .window (.getPopup 2 (some 1)), .window (.grab 2), .lock 7]

def relockedScript : List Event :=
  [.window (.create 1), .lock 7, .getLockSurface 7 1, .unlock 7, .lock 8]

def abandonedScript : List Event :=
  lockScript ++ [.window (.lockSurfaceDestroyed 1)]

/-- Grabs, an earlier lock and a surface that is given up each break the confinement. -/
theorem not_confined :
    (¬∀ trace d, machine.Run trace d → d.Confined) ∧
      (∃ trace d, machine.Run trace d ∧ d.locked = true ∧ d.kbdFocus = some 2 ∧
        (d.surface 2).role = .popup) ∧
      (∃ trace d, machine.Run trace d ∧ d.lock = some 8 ∧ d.windows.lockSurface = some 1 ∧
        d.lockOrigin = some 7) ∧
      ∃ trace d, machine.Run trace d ∧ d.locked = true ∧ d.ptrFocus = some 1 ∧
        d.windows.lockSurface = none := by
  have grabbed : machine.Run grabbedScript.reverse (grabbedScript.foldl next {}) :=
    Machine.Run.of_script (m := machine) rfl grabbedScript (by decide +kernel)
  have relocked : machine.Run relockedScript.reverse (relockedScript.foldl next {}) :=
    Machine.Run.of_script (m := machine) rfl relockedScript (by decide +kernel)
  have abandoned : machine.Run abandonedScript.reverse (abandonedScript.foldl next {}) :=
    Machine.Run.of_script (m := machine) rfl abandonedScript (by decide +kernel)
  refine ⟨fun confined => ?_, ⟨_, _, grabbed, ?_⟩, ⟨_, _, relocked, ?_⟩, ⟨_, _, abandoned, ?_⟩⟩
  · have keyboard := (confined _ _ grabbed).keyboard (by decide +kernel)
    revert keyboard
    decide +kernel
  · decide +kernel
  · decide +kernel
  · decide +kernel

end Seat

end Xios
