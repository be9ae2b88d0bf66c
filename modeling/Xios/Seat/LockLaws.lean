import Xios.Seat.FocusLaws

/-! What windows, popups and commits do leaves the lock of the session alone. -/

namespace Xios

namespace Seat

/-- While the session is locked, the keyboard is on the lock surface or on nothing. -/
def KeysConfined (d : Seat) : Prop :=
  d.locked = true → d.kbdFocus = none ∨ d.kbdFocus = d.windows.lockSurface

/-- A step that has nothing to do with the lock. -/
structure Calm (d d' : Seat) : Prop where
  locked : d'.locked = d.locked
  lock : d'.lock = d.lock
  origin : d'.lockOrigin = d.lockOrigin
  lockSurface : d'.windows.lockSurface = d.windows.lockSurface
  -- Surfaces are used consistently.
  roles : d'.windows.Roles
  -- The keyboard stays where it may be.
  keys : d.KeysConfined → d'.KeysConfined
  -- The pointer stays where it is, or leaves.
  pointer : d'.ptrFocus = d.ptrFocus ∨ d'.ptrFocus = none

variable {d : Seat}

theorem Calm.refl (roles : d.windows.Roles) : d.Calm d :=
  ⟨rfl, rfl, rfl, rfl, roles, id, .inl rfl⟩

theorem Calm.trans {d' d'' : Seat} (first : d.Calm d') (second : d'.Calm d'') : d.Calm d'' := by
  refine ⟨second.locked.trans first.locked, second.lock.trans first.lock,
    second.origin.trans first.origin, second.lockSurface.trans first.lockSurface, second.roles,
    second.keys ∘ first.keys, ?_⟩
  rcases second.pointer with same | left
  · rw [same]
    exact first.pointer
  · exact .inr left

theorem Calm.of_eq {d' : Seat} (locked : d'.locked = d.locked) (lock : d'.lock = d.lock)
    (origin : d'.lockOrigin = d.lockOrigin)
    (lockSurface : d'.windows.lockSurface = d.windows.lockSurface) (roles : d'.windows.Roles)
    (keys : d'.kbdFocus = d.kbdFocus) (pointer : d'.ptrFocus = d.ptrFocus ∨ d'.ptrFocus = none) :
    d.Calm d' := by
  refine ⟨locked, lock, origin, lockSurface, roles, fun confined held => ?_, pointer⟩
  rw [keys, lockSurface]
  exact confined (locked ▸ held)

theorem calm_withWindows {st : WindowStack} (roles : st.Roles)
    (lockSurface : st.lockSurface = d.windows.lockSurface) : d.Calm (d.withWindows st) :=
  .of_eq rfl rfl rfl lockSurface roles rfl (.inl rfl)

theorem focusTarget_of_locked {s : Option Nat} (locked : d.locked = true)
    (yields : s = d.windows.lockSurface → 0 < d.windows.grabCount → d.windows.topGrab = s) :
    d.focusTarget s = d.windows.lockSurface := by
  unfold focusTarget
  by_cases other : s = d.windows.lockSurface
  · rw [if_neg (fun both => both.2 other)]
    split
    · next grabbed => rw [yields other grabbed, other]
    · exact other
  · rw [if_pos ⟨locked, other⟩]

theorem calm_keyboardSetFocus (roles : d.windows.Roles) {s : Option Nat}
    (yields : d.locked = true → s = d.windows.lockSurface → 0 < d.windows.grabCount →
      d.windows.topGrab = s) : d.Calm (d.keyboardSetFocus s) :=
  ⟨rfl, rfl, rfl, rfl, roles, fun _ locked =>
    .inr (focusTarget_of_locked locked (yields locked)), .inl rfl⟩

theorem calm_restoreFocus (roles : d.windows.Roles) (prev : Option Nat)
    (ended : d.windows.grabCount = 0) : d.Calm (d.restoreFocus prev) := by
  unfold restoreFocus
  split
  · exact .refl roles
  · exact calm_keyboardSetFocus roles fun _ _ grabbed => by omega

theorem calm_grabPopped (roles : d.windows.Roles) : d.Calm d.grabPopped := by
  unfold grabPopped
  split
  · next ended =>
    have forgotten : d.Calm { d with grabPrevFocus := none } :=
      .of_eq rfl rfl rfl rfl roles rfl (.inl rfl)
    refine forgotten.trans (calm_restoreFocus ?_ d.grabPrevFocus ?_)
    · exact roles
    · exact ended
  · split
    · exact .refl roles
    · exact calm_keyboardSetFocus roles fun _ _ _ => rfl

theorem calm_dndEnd (roles : d.windows.Roles) : d.Calm d.dndEnd := by
  unfold dndEnd
  split
  · exact .of_eq rfl rfl rfl rfl roles rfl (.inr rfl)
  · exact .refl roles

theorem calm_dragGone (roles : d.windows.Roles) (s : Nat) :
    d.Calm ((d.dragGone s).movingGone s) := by
  have dragged : d.Calm (d.dragGone s) := by
    unfold dragGone
    split
    · exact calm_dndEnd roles
    · exact .refl roles
  refine dragged.trans ?_
  unfold movingGone
  split
  · exact .of_eq rfl rfl rfl rfl dragged.roles rfl (.inl rfl)
  · exact .refl dragged.roles

variable {s : Nat}

theorem calm_takeKeyboard (roles : d.windows.Roles) (other : d.windows.lockSurface ≠ some s)
    (focused : d.kbdFocus = some s) (o : Option Nat) : d.Calm (d.keyboardSetFocus o) := by
  refine ⟨rfl, rfl, rfl, rfl, roles, fun confined locked => ?_, .inl rfl⟩
  rcases confined locked with none | lock
  · rw [none] at focused
    cases focused
  · exact absurd (lock.symm.trans focused) other

theorem calm_keyboardGone (roles : d.windows.Roles) (other : d.windows.lockSurface ≠ some s) :
    d.Calm (d.keyboardGone s) := by
  unfold keyboardGone
  split
  · next focused => exact calm_takeKeyboard roles other focused _
  · exact .refl roles

theorem calm_pointerGone (roles : d.windows.Roles) (s : Nat) : d.Calm (d.pointerGone s) := by
  unfold pointerGone
  split
  · exact .of_eq rfl rfl rfl rfl roles rfl (.inr rfl)
  · exact .refl roles

theorem calm_surfaceHide (roles : d.windows.Roles) (other : d.windows.lockSurface ≠ some s) :
    d.Calm (d.surfaceHide s) := by
  have hidden : d.Calm (d.withWindows (d.windows.surfaceHide s)) :=
    calm_withWindows ((WindowStack.keeps_surfaceHide _ s).roles roles) rfl
  have off := hidden.trans (calm_pointerGone hidden.roles s)
  exact off.trans (calm_keyboardGone off.roles (off.lockSurface ▸ other))

theorem calm_unmapWith {gone : Seat → Nat → Seat}
    (told : ∀ d s, d.windows.Roles → Calm d (gone d s)) (roles : d.windows.Roles)
    (other : d.windows.lockSurface ≠ some s) : d.Calm (unmapWith gone d s) := by
  have begun := calm_dragGone roles s
  have skipped : ((d.dragGone s).movingGone s).lockSurfaceGone s =
      (d.dragGone s).movingGone s := by
    rw [lockSurfaceGone, if_neg (begun.lockSurface ▸ other)]
  unfold unmapWith
  rw [skipped]
  generalize (d.dragGone s).movingGone s = d' at begun
  dsimp only
  split
  · have asked : d'.Calm (if (d'.surface s).role = .popup then gone d' s else d') := by
      split
      · exact told d' s begun.roles
      · exact .refl begun.roles
    have both := begun.trans asked
    exact both.trans (calm_surfaceHide both.roles (both.lockSurface ▸ other))
  · exact begun

theorem calm_foldl {β : Type*} {step : Seat → β → Seat}
    (steps : ∀ d b, d.windows.Roles → Calm d (step d b)) (l : List β) (roles : d.windows.Roles) :
    d.Calm (l.foldl step d) := by
  induction l generalizing d with
  | nil => exact .refl roles
  | cons b l ih => exact (steps d b roles).trans (ih (steps d b roles).roles)

section Unmapping

variable {unmap : Seat → Nat → Seat}
  (unmaps : ∀ d s, d.windows.Roles → d.windows.lockSurface ≠ some s → Calm d (unmap d s))
include unmaps

theorem calm_dismiss {d : Seat} (roles : d.windows.Roles) (p : Option Nat) :
    d.Calm (dismiss unmap d p) := by
  cases p with
  | none => exact .refl roles
  | some p =>
    unfold dismiss
    dsimp only
    split
    · next object =>
      have other : d.windows.lockSurface ≠ some p := by
        refine roles.ne_lock ?_
        rw [((roles.proper p).popup object).1]
        decide
      have told : d.Calm { d with popupDone := p :: d.popupDone } :=
        .of_eq rfl rfl rfl rfl roles rfl (.inl rfl)
      exact told.trans (unmaps _ p told.roles other)
    · exact .refl roles

theorem calm_popGrab {d : Seat} (roles : d.windows.Roles) (i : Fin maxPopupGrab) :
    d.Calm (popGrab unmap d i) := by
  have taken : d.Calm ((d.takeGrab i).setGrabCount (d.windows.grabCount - 1)) :=
    calm_withWindows (roles.of_eq rfl fun _ => id) rfl
  exact taken.trans (calm_dismiss unmaps taken.roles _)

theorem calm_grabGone {d : Seat} (roles : d.windows.Roles) (s : Nat) :
    d.Calm (grabGone unmap d s) := by
  unfold grabGone
  split
  · exact .refl roles
  · next index _ =>
    have popped := calm_foldl (fun d i roles => calm_popGrab unmaps roles i)
      (d.windows.grabsAbove index.val) roles
    generalize (d.windows.grabsAbove index.val).foldl (popGrab unmap) d = d' at popped
    have taken : d'.Calm ((d'.takeGrab index).setGrabCount (d'.windows.grabCount - 1)) :=
      calm_withWindows (popped.roles.of_eq rfl fun _ => id) rfl
    exact popped.trans (taken.trans (calm_grabPopped taken.roles))

end Unmapping

theorem calm_unmapNested (grabs : Nat) (d : Seat) (s : Nat) (roles : d.windows.Roles)
    (other : d.windows.lockSurface ≠ some s) : d.Calm (unmapNested grabs d s) := by
  induction grabs generalizing d s with
  | zero => exact calm_unmapWith (fun d _ roles => .refl roles) roles other
  | succ grabs ih => exact calm_unmapWith (fun d s roles => calm_grabGone ih roles s) roles other

variable {d : Seat} {s : Nat}

theorem calm_surfaceUnmap (roles : d.windows.Roles) (other : d.windows.lockSurface ≠ some s) :
    d.Calm (d.surfaceUnmap s) :=
  calm_unmapNested _ d s roles other

theorem calm_popupGrabOnSurfaceGone (roles : d.windows.Roles) (s : Nat) :
    d.Calm (d.popupGrabOnSurfaceGone s) :=
  calm_grabGone (fun _ _ roles other => calm_surfaceUnmap roles other) roles s

theorem calm_popupGrabDismissAll (roles : d.windows.Roles) : d.Calm d.popupGrabDismissAll := by
  unfold popupGrabDismissAll
  split
  · exact .refl roles
  · have step : ∀ (d : Seat) (i : Fin maxPopupGrab), d.windows.Roles →
        Calm d (dismiss surfaceUnmap (d.takeGrab i) (d.windows.grab i)) := by
      intro d i roles
      have taken : d.Calm (d.takeGrab i) := calm_withWindows (roles.of_eq rfl fun _ => id) rfl
      exact taken.trans
        (calm_dismiss (fun _ _ roles other => calm_surfaceUnmap roles other) taken.roles _)
    have dismissed := calm_foldl step (d.windows.grabsAbove (-1)) roles
    generalize (d.windows.grabsAbove (-1)).foldl _ d = d' at dismissed
    have ended : d'.Calm { d'.setGrabCount 0 with grabPrevFocus := none } :=
      .of_eq rfl rfl rfl rfl (dismissed.roles.of_eq rfl fun _ => id) rfl (.inl rfl)
    exact dismissed.trans (ended.trans (calm_restoreFocus ended.roles d.grabPrevFocus rfl))

theorem calm_surfaceMap (roles : d.windows.Roles)
    (role : (d.surface s).role ≠ .none ∧ (d.surface s).role ≠ .lock) : d.Calm (d.surfaceMap s) := by
  have kept := WindowStack.keeps_surfaceMap role
  have same : (d.windows.surfaceMap s).lockSurface = d.windows.lockSurface := by
    unfold WindowStack.surfaceMap
    split <;> rfl
  have shown : d.Calm (d.withWindows (d.windows.surfaceMap s)) :=
    calm_withWindows (kept.roles roles) same
  have given : d.Calm ((d.withWindows (d.windows.surfaceMap s)).keyboardSetFocus (some s)) := by
    refine shown.trans (calm_keyboardSetFocus shown.roles fun _ lock => ?_)
    exact absurd (lock.trans same).symm (roles.ne_lock role.2)
  unfold surfaceMap
  split
  · exact .refl roles
  · dsimp only
    split
    · exact given
    · exact given
    · split
      · exact given
      · exact shown
    · exact shown

theorem calm_xwmAdoptSurface (roles : d.windows.Roles) (s : Nat) (overrideRedirect : Bool) :
    d.Calm (d.xwmAdoptSurface s overrideRedirect) := by
  unfold xwmAdoptSurface
  split
  · exact .refl roles
  · next free =>
    obtain ⟨kept, role⟩ := WindowStack.keeps_takeOver overrideRedirect free
    have same : (d.windows.modify s fun x => { x with
        isXwayland := true
        role := if overrideRedirect then .popup else .toplevel }).lockSurface =
        d.windows.lockSurface := rfl
    generalize d.windows.modify s _ = st at kept role same ⊢
    have adopted : d.Calm (d.withWindows st) := calm_withWindows (kept.roles roles) same
    dsimp only
    split
    · exact adopted.trans (calm_surfaceMap adopted.roles role)
    · exact adopted

theorem calm_bufferCommit (roles : d.windows.Roles)
    (kept : d.windows.lockSurface = some s → (d.surface s).bufferAttached = true →
      (d.surface s).pendingBuffer = true) : d.Calm (d.bufferCommit s) := by
  unfold bufferCommit
  split
  · next attached =>
    have replaced : d.Calm (d.withWindows (d.windows.modify s fun x =>
        { x with
          pendingBuffer := false, bufferAttached := false
          currentBuffer := (d.surface s).pendingBuffer })) :=
      calm_withWindows ((WindowStack.keeps_replaceBuffer _ s _).roles roles) rfl
    dsimp only
    split
    · split
      · next first =>
        exact replaced.trans
          (calm_surfaceMap replaced.roles (WindowStack.role_of_mappable first.2))
      · exact replaced
    · next taken =>
      refine replaced.trans (calm_surfaceUnmap replaced.roles fun held => ?_)
      exact taken (kept held attached)
  · exact .refl roles

theorem calm_layerCommit (roles : d.windows.Roles) (s : Nat) :
    d.Calm (d.withWindows (d.windows.layerCommit s)) := by
  refine calm_withWindows ((WindowStack.keeps_layerCommit _ s).roles roles) ?_
  unfold WindowStack.layerCommit
  split <;> rfl

theorem calm_commitPrepare (input : CommitInput) (roles : d.windows.Roles) (s : Nat) :
    d.Calm (commitPrepare input d s) := by
  unfold commitPrepare
  cases input.adopt s with
  | none => exact calm_layerCommit roles s
  | some overrideRedirect =>
    have adopted := calm_xwmAdoptSurface roles s overrideRedirect
    exact adopted.trans (calm_layerCommit adopted.roles s)

theorem commitPrepare_of_lock (input : CommitInput) (roles : d.windows.Roles)
    (role : (d.surface s).role = .lock) : commitPrepare input d s = d := by
  have native := ((roles.proper s).free (.inr role)).2.1
  have refused : ∀ overrideRedirect, d.xwmAdoptSurface s overrideRedirect = d := by
    intro overrideRedirect
    rw [xwmAdoptSurface, if_pos ⟨by rw [role]; decide, native⟩]
  have same : d.windows.layerCommit s = d.windows := by
    rw [WindowStack.layerCommit, if_neg]
    rintro ⟨layer, -⟩
    rw [show (d.windows.surface s).role = .lock from role] at layer
    cases layer
  unfold commitPrepare
  cases input.adopt s with
  | none => exact congrArg d.withWindows same
  | some overrideRedirect =>
    dsimp only
    rw [refused]
    exact congrArg d.withWindows same

theorem calm_commitWith {apply : Seat → Nat → Seat} (input : CommitInput)
    (applies : ∀ d s, d.windows.Roles → (d.surface s).role ≠ .lock → Calm d (apply d s))
    {own : Seat} (prepared : commitOwn input d s = own) (roles : own.windows.Roles) :
    own.Calm (commitWith apply input d s) := by
  unfold commitWith
  rw [prepared]
  split
  · refine calm_foldl (fun d c roles => ?_) _ roles
    split
    · next waits =>
      have released : d.Calm (d.withWindows (d.windows.release c)) :=
        calm_withWindows ((WindowStack.keeps_release _ c).roles roles) rfl
      refine released.trans (applies _ c released.roles ?_)
      -- Only the commits of subsurfaces wait.
      have role : (d.windows.surface c).role = .subsurface := by
        simp only [WindowStack.waits, decide_eq_true_eq] at waits
        exact waits.1
      rw [surface, windows_withWindows, WindowStack.release, WindowStack.modify_same]
      rw [role]
      decide
    · exact .refl roles
  · exact .refl roles

theorem calm_commitNested (input : CommitInput) (waiting : Nat) (d : Seat) (s : Nat)
    (roles : d.windows.Roles) (other : (d.surface s).role ≠ .lock) :
    d.Calm (commitNested input waiting d s) := by
  have own : ∀ (d : Seat) (s : Nat), d.windows.Roles → (d.surface s).role ≠ .lock →
      d.Calm (commitOwn input d s) := by
    intro d s roles other
    have prepared := calm_commitPrepare input roles s
    refine prepared.trans (calm_bufferCommit prepared.roles fun held => ?_)
    exact absurd (roles.locked s (prepared.lockSurface ▸ held)) other
  induction waiting generalizing d s with
  | zero =>
    have first := own d s roles other
    exact first.trans (calm_commitWith input (fun _ _ roles _ => .refl roles) rfl first.roles)
  | succ waiting ih =>
    have first := own d s roles other
    exact first.trans (calm_commitWith input ih rfl first.roles)

end Seat

end Xios
