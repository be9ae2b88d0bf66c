import Xios.Seat.GrabCommits

/-! What every event does to the grabs: one begins, or some end from the top. -/

namespace Xios

namespace Seat

variable {d d' : Seat} {s : Nat}

theorem Restored.congr {d'' : Seat} (restored : d.Restored d') (locked : d''.locked = d'.locked)
    (count : d''.windows.grabCount = d'.windows.grabCount) (keys : d''.kbdFocus = d'.kbdFocus)
    (out : d'.focusable s = false) (mapped : d''.windows.mapped = d'.windows.mapped)
    (flag : ∀ o, (d''.surface o).mapped = (d'.surface o).mapped)
    (focusable : ∀ o, d''.focusable o = d'.focusable o) : d.Restored d'' := by
  intro open' none p before
  have topmost := topmostFocusable_congr out (.inr mapped) focusable
  rw [keys, restored (locked.symm.trans open') (count.symm.trans none) p before]
  unfold restoreTarget
  dsimp only
  rw [flag, topmost]

theorem Restored.keyboardGone (restored : d.Restored d') (hidden : (d'.surface s).mapped = false) :
    d.Restored (d'.keyboardGone s) := by
  intro open' none p before
  rw [(locked_keyboardGone d' s).1] at open'
  rw [windows_keyboardGone] at none
  rw [(locked_keyboardGone d' s).2, kbdFocus_keyboardGone open' none,
    restored open' none p before]
  unfold restoreTarget
  by_cases shown : (d'.surface p).mapped = true
  · have other : p ≠ s := by
      rintro rfl
      rw [hidden] at shown
      cases shown
    simp [shown, other]
  · simp [shown]

variable {l : List Nat}

theorem pops_hideAndDrop (roles : d.windows.Roles)
    (grabbers : d.windows.Grabbers l) (s : Nat) (between : Seat → Seat)
    (rest : ∀ d : Seat, d.Rest (between d))
    (back : ∀ d' : Seat, (d'.surface s).role = .popup → d.Restored d' →
      d.Restored (between d')) :
    (d.Idle ((between (d.surfaceUnmap s)).popupGrabOnSurfaceGone s) ∧ s ∉ l) ∨
      ∃ below above, l = below ++ s :: above ∧
        d.Pops ((between (d.surfaceUnmap s)).popupGrabOnSurfaceGone s) (some s) below (s :: above) ∧
        d.Restored ((between (d.surfaceUnmap s)).popupGrabOnSurfaceGone s) := by
  rcases pops_surfaceUnmap roles grabbers s with ⟨idle, -⟩ | ⟨below, above, rfl, pops, restored⟩
  · have before := idle.trans (rest (d.surfaceUnmap s)).toIdle
    rcases pops_popupGrabOnSurfaceGone (before.grabbers grabbers) s with
      ⟨same, absent⟩ | ⟨below, above, split, pops, restored⟩
    · rw [same]
      exact .inl ⟨before, absent⟩
    · exact .inr ⟨below, above, split, before.pops_trans pops, before.restored_trans restored⟩
  · -- The grab ended when the popup was hidden, and nothing is left to be dropped.
    have after := pops.rest_trans (rest (d.surfaceUnmap s))
    have absent : s ∉ below := by
      have apart := List.disjoint_of_nodup_append grabbers.once
      exact fun member => apart member (List.mem_cons_self ..)
    have same : (between (d.surfaceUnmap s)).popupGrabOnSurfaceGone s =
        between (d.surfaceUnmap s) :=
      grabGone_absent fun i inside held => absent ((after.stack.mem_iff s).mpr ⟨i, inside, held⟩)
    have object : ((d.surfaceUnmap s).surface s).xdgPopup = true := by
      rw [pops.popup s]
      exact grabbers.object s (List.mem_append_right _ (List.mem_cons_self ..))
    rw [same]
    exact .inr ⟨below, above, rfl, after,
      back _ (((pops.roles roles).proper s).popup object).1 restored⟩

/-- The surface an event hides or destroys on its own account. -/
def Event.subject : Event → Option Nat
  | .window (.destroy s) | .window (.popupDestroyed s) | .window (.commit s _)
  | .window (.bufferDestroyed s) => some s
  | _ => none

/-- An event up to where it is done with the grabs and has not moved the keyboard on yet. -/
def grabsSettled (d : Seat) : Event → Seat
  -- The commits of children come after that of the surface itself.
  | .window (.commit s input) =>
    if (d.surface s).role = .subsurface ∧ (d.surface s).subsurface.any SubsurfaceState.sync then d
    else commitOwn input d s
  -- A press dismisses the popups before it gives the keyboard to the surface that was hit.
  | .buttonDown => if d.drag.isSome then d else d.dismissOutside d.ptrFocus
  | .touchDown contains _ => d.dismissOutside (d.surfaceAt contains)
  | event => d.next event

/-- What an event does to the grabs, and to the keyboard after the last one. -/
structure GrabStep (d : Seat) (event : Event) : Prop where
  -- A popup is granted a grab, or grabs end from the top and all but one of them are dismissed.
  change : ∀ l, d.windows.GrabStack l →
    (∃ s, event = .window (.grab s) ∧ (d.next event).windows.GrabStack (l ++ [s]) ∧
      (d.next event).popupDone = d.popupDone) ∨
    ∃ l' gone, l = l' ++ gone ∧ d.Outcome (d.next event) event.subject l' gone
  -- The first grab remembers where the keyboard was, and the surface is forgotten only with it.
  begun : d.windows.grabCount = 0 → (d.next event).windows.grabCount ≠ 0 →
    (d.next event).grabPrevFocus = d.kbdFocus
  kept : d.windows.grabCount ≠ 0 → (d.next event).windows.grabCount ≠ 0 →
    (d.next event).grabPrevFocus = d.grabPrevFocus ∨
      ∃ p, event = .window (.destroy p) ∧ d.grabPrevFocus = some p ∧
        (d.next event).grabPrevFocus = none
  -- The grabs are those of the settled state, in which the keyboard is back after the last one.
  settled : (d.grabsSettled event).windows.grab = (d.next event).windows.grab ∧
    (d.grabsSettled event).windows.grabCount = (d.next event).windows.grabCount
  restored : d.windows.grabCount ≠ 0 → d.Restored (d.grabsSettled event)
  -- The keyboard stays with the topmost popup.
  pinned : d.Pinned → (d.next event).Pinned

/-- An event in which no grab begins or ends. -/
structure Unmoved (d d' : Seat) : Prop where
  array : d'.windows.grab = d.windows.grab
  count : d'.windows.grabCount = d.windows.grabCount
  -- What was remembered when they began is the same.
  prev : d'.grabPrevFocus = d.grabPrevFocus
  -- Nobody is told to go away.
  done : d'.popupDone = d.popupDone
  -- The keyboard stays with the topmost popup.
  pinned : d.Pinned → d'.Pinned

theorem Idle.unmoved (idle : d.Idle d') : d.Unmoved d' :=
  ⟨idle.array, idle.count, idle.prev, idle.done, idle.pinned⟩

theorem Unmoved.withWindows (unmoved : d.Unmoved d') {st : WindowStack}
    (array : st.grab = d'.windows.grab) (count : st.grabCount = d'.windows.grabCount) :
    d.Unmoved (d'.withWindows st) :=
  ⟨array.trans unmoved.array, count.trans unmoved.count, unmoved.prev, unmoved.done,
    fun pinned => (unmoved.pinned pinned).congr rfl array count rfl⟩

variable {event : Event}

theorem GrabStep.of_eq (array : (d.next event).windows.grab = d.windows.grab)
    (count : (d.next event).windows.grabCount = d.windows.grabCount)
    (prev : (d.next event).grabPrevFocus = d.grabPrevFocus ∨
      ∃ p, event = .window (.destroy p) ∧ d.grabPrevFocus = some p ∧
        (d.next event).grabPrevFocus = none)
    (done : (d.next event).popupDone = d.popupDone) (pinned : d.Pinned → (d.next event).Pinned)
    (settled : (d.grabsSettled event).windows.grab = (d.next event).windows.grab ∧
      (d.grabsSettled event).windows.grabCount = (d.next event).windows.grabCount) :
    d.GrabStep event := by
  refine ⟨fun l stack => .inr ⟨l, [], (List.append_nil l).symm, ?_⟩, fun none some => ?_,
    fun _ _ => prev, settled, fun some _ none => ?_, pinned⟩
  · exact ⟨stack.of_eq array count, done, nofun⟩
  · exact absurd (count.trans none) some
  · exact absurd ((settled.2.trans count).symm.trans none) some

theorem Unmoved.grabStep (unmoved : d.Unmoved (d.next event))
    (settled : (d.grabsSettled event).windows.grab = (d.next event).windows.grab ∧
      (d.grabsSettled event).windows.grabCount = (d.next event).windows.grabCount) :
    d.GrabStep event :=
  .of_eq unmoved.array unmoved.count (.inl unmoved.prev) unmoved.done unmoved.pinned settled

theorem Outcome.grabStep {gone : List Nat}
    (outcome : d.Outcome (d.next event) event.subject l gone)
    (stack : d.windows.GrabStack (l ++ gone)) (lost : gone ≠ [])
    (kept : l ≠ [] → (d.next event).grabPrevFocus = d.grabPrevFocus ∨
      ∃ p, event = .window (.destroy p) ∧ d.grabPrevFocus = some p ∧
        (d.next event).grabPrevFocus = none)
    (settled : (d.grabsSettled event).windows.grab = (d.next event).windows.grab ∧
      (d.grabsSettled event).windows.grabCount = (d.next event).windows.grabCount)
    (restored : d.Restored (d.grabsSettled event)) (pinned : d.Pinned → (d.next event).Pinned) :
    d.GrabStep event := by
  refine ⟨fun l' stack' => .inr ⟨l, gone, stack'.unique stack, outcome⟩, fun none => ?_,
    fun _ left => kept ?_, settled, fun _ => restored, pinned⟩
  · have count := stack.count
    rw [none, List.length_append] at count
    exact absurd (List.length_eq_zero_iff.mp (by omega)) lost
  · intro empty
    rw [outcome.stack.count, empty] at left
    exact left rfl

theorem grabStep_grab (grabs : d.windows.Grabs) (allowed : d.windows.Allowed (.grab s)) :
    d.GrabStep (.window (.grab s)) := by
  by_cases refused : (d.surface s).role ≠ .popup ∨ d.windows.popupGrabParentOk s = false ∨
      (maxPopupGrab : Int) ≤ d.windows.grabCount
  · have same : d.next (.window (.grab s)) = d := by
      show d.popupGrab s = d
      rw [popupGrab, if_pos refused]
    refine Unmoved.grabStep ?_ ⟨rfl, rfl⟩
    rw [same]
    exact (Idle.refl d).unmoved
  · have granted := refused
    simp only [not_or, ne_eq, not_not, Bool.not_eq_false, not_le] at granted
    have after : d.next (.window (.grab s)) = { d.withWindows (d.windows.popupGrab s) with
        grabPrevFocus := if d.windows.grabCount = 0 then d.kbdFocus
          else d.grabPrevFocus }.keyboardSetFocus (some s) := by
      show d.popupGrab s = _
      rw [popupGrab, if_neg refused]
    obtain ⟨l, chained⟩ := grabs.chained
    obtain ⟨fresh, above⟩ := grabs.fresh chained allowed.2 granted.2.1
    have pushed := (chained.push granted.2.2 allowed fresh above).stack
    have windows : (d.next (.window (.grab s))).windows = { d.windows with
        grab := fun i => if (i.val : Int) = d.windows.grabCount then some s else d.windows.grab i
        grabCount := d.windows.grabCount + 1 } := by
      rw [after]
      show d.windows.popupGrab s = _
      rw [WindowStack.popupGrab, if_neg refused]
    refine ⟨fun l' stack => .inl ⟨s, rfl, ?_, ?_⟩, fun none _ => ?_, fun some _ => .inl ?_,
      ⟨rfl, rfl⟩, fun some _ none => ?_, fun _ => ?_⟩
    · rw [stack.unique chained.stack, windows]
      exact pushed
    · rw [after]
      rfl
    · rw [after]
      exact if_pos none
    · rw [after]
      exact if_neg some
    · rw [show d.grabsSettled (.window (.grab s)) = d.next (.window (.grab s)) from rfl,
        windows] at none
      have count := chained.stack.count
      have more : d.windows.grabCount + 1 = 0 := none
      omega
    · rw [after]
      exact pinned_keyboardSetFocus _ _

theorem grabbers_of_chained {st : WindowStack} (chained : st.Chained l) : st.Grabbers l :=
  ⟨chained.stack, chained.once, fun p member => (chained.live p member).2⟩

theorem focusable_modify {f : Surface → Surface} (windows : d'.windows = d.windows.modify s f)
    (role : (d.surface s).role = .popup)
    (role' : (f (d.surface s)).role = .popup ∨ (f (d.surface s)).role = .none)
    (minimized : ∀ o, o ≠ s → d'.minimized o = d.minimized o)
    (interactive : ∀ o, o ≠ s → d'.interactive o = d.interactive o) (o : Nat) :
    d'.focusable o = d.focusable o := by
  by_cases same : o = s
  · subst same
    rw [focusable_of_popup role]
    have changed : (d'.surface o).role = (f (d.surface o)).role := by
      rw [surface, windows, WindowStack.modify_same]
    unfold focusable
    rcases role' with popup | none
    · rw [changed, popup]
    · rw [changed, none]
  · unfold focusable
    rw [surface, windows, WindowStack.modify_other _ _ same, minimized o same, interactive o same]

theorem Pops.outcome_modify {d'' : Seat} {below above : List Nat}
    (pops : d.Pops d' (some s) below (s :: above)) {f : Surface → Surface}
    (windows : d''.windows = d'.windows.modify s f) (done : d''.popupDone = d'.popupDone) :
    d.Outcome d'' (some s) below (s :: above) := by
  refine ⟨?_, done.trans pops.done, fun p member other => ?_⟩
  · rw [windows]
    exact pops.stack.of_eq rfl rfl
  · have away : p ≠ s := fun same => other (congrArg some same)
    rw [surface, windows, WindowStack.modify_other _ _ away]
    exact pops.hidden p member other

theorem grabStep_popupDestroyed (grabs : d.windows.Grabs) (s : Nat) :
    d.GrabStep (.window (.popupDestroyed s)) := by
  obtain ⟨l, chained⟩ := grabs.chained
  have grabbers := grabbers_of_chained chained
  have dropped := pops_hideAndDrop grabs.roles grabbers s (fun d => d)
    (fun d => (Idle.refl d).rest (.refl _)) fun _ _ => id
  have after : d.next (.window (.popupDestroyed s)) =
      ((d.surfaceUnmap s).popupGrabOnSurfaceGone s).withWindows
        (((d.surfaceUnmap s).popupGrabOnSurfaceGone s).windows.modify s fun x =>
          { x with xdgPopup := false, role := .none }) := rfl
  generalize (d.surfaceUnmap s).popupGrabOnSurfaceGone s = d' at dropped after
  rcases dropped with ⟨idle, -⟩ | ⟨below, above, rfl, pops, restored⟩
  · refine Unmoved.grabStep ?_ ⟨rfl, rfl⟩
    rw [after]
    exact idle.unmoved.withWindows rfl rfl
  · have object : (d'.surface s).xdgPopup = true := by
      rw [pops.popup s]
      exact grabbers.object s (List.mem_append_right _ (List.mem_cons_self ..))
    have role := (((pops.roles grabs.roles).proper s).popup object).1
    refine Outcome.grabStep ?_ grabbers.stack (List.cons_ne_nil _ _) (fun left => .inl ?_)
      ⟨rfl, rfl⟩ ?_ fun pinned => ?_
    · rw [after]
      exact pops.outcome_modify (f := fun x => { x with xdgPopup := false, role := .none }) rfl rfl
    · rw [after]
      exact pops.prev left
    · show d.Restored (d.next (.window (.popupDestroyed s)))
      rw [after]
      refine restored.congr rfl rfl rfl (focusable_of_popup role) rfl (fun o => ?_)
        (focusable_modify (f := fun x => { x with xdgPopup := false, role := .none }) rfl role
          (.inr rfl) (fun _ _ => rfl) fun _ _ => rfl)
      rw [surface, windows_withWindows]
      by_cases same : o = s
      · rw [same, WindowStack.modify_same]
      · rw [WindowStack.modify_other _ _ same]
    · rw [after]
      exact (pops.pinned pinned).congr rfl rfl rfl rfl

/-- A surface that is destroyed loses its uses first, and is no longer the parent of others. -/
def strip (s : Nat) (d : Seat) : Seat :=
  d.withWindows ((d.windows.modify s fun x => { x with subsurface := none, layer := none }).orphan s)

theorem surface_strip (s : Nat) (d : Seat) (o : Nat) :
    ((d.strip s).surface o).xdgPopup = (d.surface o).xdgPopup ∧
      ((d.strip s).surface o).mapped = (d.surface o).mapped ∧
      ((d.strip s).surface o).role = (d.surface o).role ∧
      (o ≠ s → ((d.strip s).surface o).layer = (d.surface o).layer) := by
  unfold strip surface WindowStack.orphan
  rw [windows_withWindows]
  dsimp only
  split <;>
  · by_cases here : o = s
    · rw [here, WindowStack.modify_same]
      exact ⟨rfl, rfl, rfl, fun other => absurd rfl other⟩
    · rw [WindowStack.modify_other _ _ here]
      exact ⟨rfl, rfl, rfl, fun _ => rfl⟩

theorem rest_strip (s : Nat) (d : Seat) : d.Rest (d.strip s) := by
  refine ⟨idle_withWindows rfl rfl (fun o => (surface_strip s d o).1) fun roles => ?_,
    fun p _ hidden => (surface_strip s d p).2.1.trans hidden⟩
  exact (roles.modify s (fun proper => { proper with
    subsurface := fun some => absurd some (by simp)
    layer := fun some => absurd some (by simp) }) fun _ => rfl).orphan s

theorem Restored.strip (restored : d.Restored d') (role : (d'.surface s).role = .popup) :
    d.Restored (d'.strip s) := by
  refine restored.congr rfl rfl rfl (focusable_of_popup role) rfl
    (fun o => (surface_strip s d' o).2.1) fun o => ?_
  obtain ⟨-, -, same, layer⟩ := surface_strip s d' o
  by_cases here : o = s
  · subst here
    rw [focusable_of_popup role]
    exact focusable_of_popup (same.trans role)
  · unfold focusable
    rw [same, layer here]
    rfl

/-- What is left to do for a destroyed surface that holds no grab any longer. -/
def forget (d : Seat) (s : Nat) : Seat :=
  let d := if d.grabPrevFocus = some s then { d with grabPrevFocus := none } else d
  let d := (d.pointerGone s).keyboardGone s
  { d.withWindows (d.windows.modify s fun _ => {}) with
    minimized := Function.update d.minimized s false
    interactive := Function.update d.interactive s false }

theorem idle_forgetPrev (d : Seat) (s : Nat) :
    (if d.grabPrevFocus = some s then { d with grabPrevFocus := none } else d).windows =
        d.windows ∧
      (if d.grabPrevFocus = some s then { d with grabPrevFocus := none } else d).popupDone =
        d.popupDone ∧
      (if d.grabPrevFocus = some s then { d with grabPrevFocus := none } else d).grabPrevFocus =
        (if d.grabPrevFocus = some s then none else d.grabPrevFocus) ∧
      (if d.grabPrevFocus = some s then { d with grabPrevFocus := none } else d).locked =
        d.locked ∧
      (if d.grabPrevFocus = some s then { d with grabPrevFocus := none } else d).kbdFocus =
        d.kbdFocus ∧
      (if d.grabPrevFocus = some s then { d with grabPrevFocus := none } else d).focusable =
        d.focusable := by
  split <;> exact ⟨rfl, rfl, rfl, rfl, rfl, rfl⟩

theorem forget_rest (d : Seat) (s : Nat) :
    (d.forget s).windows = d.windows.modify s (fun _ => {}) ∧
      (d.forget s).popupDone = d.popupDone ∧
      (d.forget s).grabPrevFocus =
        (if d.grabPrevFocus = some s then none else d.grabPrevFocus) ∧
      (d.Pinned → (d.forget s).Pinned) := by
  obtain ⟨windows, done, prev, locked, keys, -⟩ := d.idle_forgetPrev s
  unfold forget
  generalize (if d.grabPrevFocus = some s then { d with grabPrevFocus := none } else d) = d'
    at windows done prev locked keys
  have off := (d'.idle_pointerGone s).trans (idle_keyboardGone _ s)
  have windows' : ((d'.pointerGone s).keyboardGone s).windows = d.windows := by
    rw [windows_keyboardGone, windows_pointerGone, windows]
  refine ⟨?_, off.done.trans done, off.prev.trans prev, fun pinned => ?_⟩
  · rw [windows_withWindows, windows']
  · have before : d'.Pinned := pinned.congr locked (by rw [windows]) (by rw [windows]) keys
    exact (off.pinned before).congr rfl rfl rfl rfl

theorem Restored.forget (restored : d.Restored d') (hidden : (d'.surface s).mapped = false)
    (role : (d'.surface s).role = .popup) : d.Restored (d'.forget s) := by
  obtain ⟨windows, done, prev, locked, keys, focusable⟩ := d'.idle_forgetPrev s
  unfold Seat.forget
  generalize (if d'.grabPrevFocus = some s then { d' with grabPrevFocus := none } else d') = d''
    at windows done prev locked keys focusable
  dsimp only
  have noted : d.Restored d'' := by
    refine restored.congr locked (by rw [windows]) keys (focusable_of_popup role) (by rw [windows])
      (fun o => ?_) fun o => ?_
    · rw [surface, windows]
    · rw [focusable]
  have role' : (d''.surface s).role = .popup := by
    rw [surface, windows]
    exact role
  have off : d.Restored (d''.pointerGone s) := by
    refine noted.congr (locked_pointerGone d'' s).1 ?_ (locked_pointerGone d'' s).2.1
      (focusable_of_popup role') ?_ (fun o => ?_) fun o => ?_
    · rw [windows_pointerGone]
    · rw [windows_pointerGone]
    · rw [surface, windows_pointerGone]
    · unfold pointerGone
      split <;> rfl
  have left : d.Restored ((d''.pointerGone s).keyboardGone s) := by
    refine off.keyboardGone ?_
    rw [surface, windows_pointerGone, windows]
    exact hidden
  have windows' : ((d''.pointerGone s).keyboardGone s).windows = d'.windows := by
    rw [windows_keyboardGone, windows_pointerGone, windows]
  generalize (d''.pointerGone s).keyboardGone s = e at left windows'
  have role'' : (e.surface s).role = .popup := by
    rw [surface, windows']
    exact role
  refine left.congr rfl rfl rfl (focusable_of_popup role'') rfl (fun o => ?_)
    (focusable_modify (f := fun _ => {}) rfl role'' (.inr rfl)
      (fun o other => Function.update_of_ne other _ _) fun o other => Function.update_of_ne other _ _)
  show ((e.windows.modify s fun _ => {}).surface o).mapped = _
  by_cases same : o = s
  · rw [same, WindowStack.modify_same, surface, windows']
    exact hidden.symm
  · rw [WindowStack.modify_other _ _ same]

/-- A destroyed surface pops its grab, if it has one, and those above it. -/
theorem grabStep_destroy (grabs : d.windows.Grabs) (s : Nat) :
    d.GrabStep (.window (.destroy s)) := by
  obtain ⟨l, chained⟩ := grabs.chained
  have removed : d.Idle
      (d.withWindows { d.windows with surfaces := d.windows.surfaces.erase s }) :=
    idle_withWindows rfl rfl (fun _ => rfl) fun roles => roles.of_eq rfl fun _ => id
  have grabbers := removed.grabbers (grabbers_of_chained chained)
  have dropped := pops_hideAndDrop (removed.roles grabs.roles) grabbers s (Seat.strip s)
    (rest_strip s) fun d' role restored => restored.strip role
  have after : d.next (.window (.destroy s)) =
      ((((d.withWindows { d.windows with surfaces := d.windows.surfaces.erase s }).surfaceUnmap
        s).strip s).popupGrabOnSurfaceGone s).forget s := rfl
  have hidden : (((((d.withWindows { d.windows with
      surfaces := d.windows.surfaces.erase s }).surfaceUnmap s).strip s).popupGrabOnSurfaceGone
        s).surface s).mapped = false := by
    rw [surface, windows_popupGrabOnSurfaceGone]
    refine (WindowStack.hides_popupGrabOnSurfaceGone _ s).mapped ?_
    rw [(surface_strip s _ s).2.1, surface, windows_surfaceUnmap]
    exact (WindowStack.hides_surfaceUnmap _ s).2
  generalize (Seat.strip s _).popupGrabOnSurfaceGone s = d' at dropped after hidden
  obtain ⟨windows, done, prev, pinned⟩ := d'.forget_rest s
  rw [← after] at windows done prev pinned
  have kept : d'.grabPrevFocus = d.grabPrevFocus →
      (d.next (.window (.destroy s))).grabPrevFocus = d.grabPrevFocus ∨
        ∃ p, Event.window (.destroy s) = .window (.destroy p) ∧ d.grabPrevFocus = some p ∧
          (d.next (.window (.destroy s))).grabPrevFocus = none := by
    intro same
    rw [prev, same]
    split
    · next here => exact .inr ⟨s, rfl, here, rfl⟩
    · exact .inl rfl
  rcases dropped with ⟨idle, -⟩ | ⟨below, above, rfl, pops, restored⟩
  · have idle := removed.trans idle
    refine .of_eq ?_ ?_ (kept idle.prev) (done.trans idle.done)
      (fun before => pinned (idle.pinned before)) ⟨rfl, rfl⟩
    · rw [windows]
      exact idle.array
    · rw [windows]
      exact idle.count
  · have object : (d'.surface s).xdgPopup = true := by
      rw [pops.popup s]
      exact grabbers.object s (List.mem_append_right _ (List.mem_cons_self ..))
    have role := (((pops.roles (removed.roles grabs.roles)).proper s).popup object).1
    have pops := removed.pops_trans pops
    refine Outcome.grabStep (pops.outcome_modify windows done) chained.stack
      (List.cons_ne_nil _ _) (fun left => kept (pops.prev left)) ⟨rfl, rfl⟩ ?_
      fun before => pinned (pops.pinned before)
    show d.Restored (d.next (.window (.destroy s)))
    rw [after]
    exact removed.restored_trans (restored.forget hidden role)

theorem grabStep_bufferDestroyed (grabs : d.windows.Grabs) (s : Nat) :
    d.GrabStep (.window (.bufferDestroyed s)) := by
  obtain ⟨l, chained⟩ := grabs.chained
  have cleared : d.Idle
      (d.withWindows (d.windows.modify s fun x => { x with currentBuffer := false })) :=
    idle_modify (fun _ => rfl) fun roles =>
      roles.modify s (fun proper => { proper with }) fun _ => rfl
  have grabbers := cleared.grabbers (grabbers_of_chained chained)
  by_cases shown : (d.surface s).mapped = true
  · have after : d.next (.window (.bufferDestroyed s)) = (d.withWindows
        (d.windows.modify s fun x => { x with currentBuffer := false })).surfaceUnmap s := by
      show d.onBufferDestroyed s = _
      unfold onBufferDestroyed
      exact if_pos shown
    rcases pops_surfaceUnmap (cleared.roles grabs.roles) grabbers s with
      ⟨idle, -⟩ | ⟨below, above, rfl, pops, restored⟩
    · refine Unmoved.grabStep ?_ ⟨rfl, rfl⟩
      rw [after]
      exact (cleared.trans idle).unmoved
    · have pops := cleared.pops_trans pops
      have restored := cleared.restored_trans restored
      rw [← after] at pops restored
      exact pops.toOutcome.grabStep chained.stack (List.cons_ne_nil _ _)
        (fun left => .inl (pops.prev left)) ⟨rfl, rfl⟩ restored pops.pinned
  · have after : d.next (.window (.bufferDestroyed s)) = d.withWindows
        (d.windows.modify s fun x => { x with currentBuffer := false }) := by
      show d.onBufferDestroyed s = _
      unfold onBufferDestroyed
      exact if_neg shown
    refine Unmoved.grabStep ?_ ⟨rfl, rfl⟩
    rw [after]
    exact cleared.unmoved

/-- A commit pops grabs only by hiding surfaces, its own or those of children. -/
theorem grabStep_commit (grabs : d.windows.Grabs) (s : Nat) (input : CommitInput) :
    d.GrabStep (.window (.commit s input)) := by
  obtain ⟨l, chained⟩ := grabs.chained
  have grabbers := grabbers_of_chained chained
  by_cases waits : (d.surface s).role = .subsurface ∧
      (d.surface s).subsurface.any SubsurfaceState.sync
  · have after : d.next (.window (.commit s input)) =
        d.withWindows (d.windows.surfaceCommit s input) := by
      show d.surfaceCommit s input = _
      rw [surfaceCommit, if_pos waits]
    have settled : d.grabsSettled (.window (.commit s input)) = d := if_pos waits
    have same : (d.windows.surfaceCommit s input).grab = d.windows.grab ∧
        (d.windows.surfaceCommit s input).grabCount = d.windows.grabCount := by
      rw [WindowStack.surfaceCommit, if_pos waits]
      exact ⟨rfl, rfl⟩
    refine Unmoved.grabStep ?_ ?_
    · rw [after]
      exact (Idle.refl d).unmoved.withWindows same.1 same.2
    · rw [settled, after]
      exact ⟨same.1.symm, same.2.symm⟩
  · have after : d.next (.window (.commit s input)) = d.surfaceCommitApply input s := by
      show d.surfaceCommit s input = _
      rw [surfaceCommit, if_neg waits]
    have settled : d.grabsSettled (.window (.commit s input)) = commitOwn input d s :=
      if_neg waits
    -- The commits of the children come last, and do nothing to popups.
    have children : ∀ {l}, (commitOwn input d s).windows.Roles →
        (commitOwn input d s).windows.Grabbers l →
        (commitOwn input d s).Rest (d.surfaceCommitApply input s) := by
      intro l roles grabbers
      unfold surfaceCommitApply
      cases d.windows.waiting with
      | zero =>
        exact rest_commitWith (fun d _ _ _ _ => (Idle.refl d).rest (.refl _)) input rfl roles
          grabbers
      | succ waiting =>
        exact rest_commitWith (rest_commitNested input waiting) input rfl roles grabbers
    rcases pops_commitOwn input grabs.roles grabbers s with
      idle | ⟨below, above, rfl, pops, restored⟩
    · have rest := children (idle.roles grabs.roles) (idle.grabbers grabbers)
      refine Unmoved.grabStep ?_ ?_
      · rw [after]
        exact (idle.trans rest.toIdle).unmoved
      · rw [settled, after]
        exact ⟨rest.array.symm, rest.count.symm⟩
    · have rest := children (pops.roles grabs.roles) (pops.grabbers grabbers)
      have final := pops.rest_trans rest
      rw [← after] at final
      refine final.toOutcome.grabStep chained.stack (List.cons_ne_nil _ _)
        (fun left => .inl (final.prev left)) ?_ ?_ final.pinned
      · rw [settled, after]
        exact ⟨rest.array.symm, rest.count.symm⟩
      · rw [settled]
        exact restored

theorem rest_activate (d : Seat) (s : Nat) : d.Rest (d.activate s) := by
  have kept := WindowStack.keeps_surfaceRaise d.windows s
  have same : (d.windows.surfaceRaise s).surface = d.windows.surface :=
    WindowStack.blind_surfaceRaise (fun _ _ => rfl) _ s
  have raised : d.Rest (d.withWindows (d.windows.surfaceRaise s)) := by
    refine ⟨idle_withWindows (WindowStack.blind_surfaceRaise (fun _ _ => rfl) _ s)
      (WindowStack.blind_surfaceRaise (fun _ _ => rfl) _ s) kept.popup kept.roles,
      fun p _ hidden => ?_⟩
    rw [surface, windows_withWindows, same]
    exact hidden
  exact raised.trans ((idle_keyboardSetFocus _ _).rest (.refl _))

theorem idle_surfaceSetMinimized (d : Seat) (s : Nat) (minimized : Bool) :
    d.Idle (d.surfaceSetMinimized s minimized) := by
  unfold surfaceSetMinimized
  split
  · exact .refl d
  · have noted : d.Idle { d with minimized := Function.update d.minimized s minimized } :=
      .of_eq rfl rfl rfl rfl (fun _ => rfl) id rfl rfl
    dsimp only
    split
    · exact noted.trans (idle_keyboardSetFocus _ _)
    · exact noted

theorem rest_pressFocus (d : Seat) (hit : Nat) : d.Rest (d.pressFocus hit) := by
  unfold pressFocus
  split
  · exact (Idle.refl d).rest (.refl _)
  · exact d.rest_activate hit

theorem grabStep_press (grabs : d.windows.Grabs) (hit : Option Nat)
    (subject : event.subject = none) (settled : d.grabsSettled event = d.dismissOutside hit)
    (rest : (d.dismissOutside hit).Rest (d.next event)) : d.GrabStep event := by
  obtain ⟨l, chained⟩ := grabs.chained
  have grabbers := grabbers_of_chained chained
  have same : (d.grabsSettled event).windows.grab = (d.next event).windows.grab ∧
      (d.grabsSettled event).windows.grabCount = (d.next event).windows.grabCount := by
    rw [settled]
    exact ⟨rest.array.symm, rest.count.symm⟩
  by_cases outside : 0 < d.windows.grabCount ∧ d.popupHitIsWithinGrab hit = false
  · have lost : l ≠ [] := by
      rintro rfl
      have count := chained.stack.count
      simp only [List.length_nil] at count
      omega
    obtain ⟨pops, restored⟩ := pops_popupGrabDismissAll grabbers lost
    have dismissed : d.dismissOutside hit = d.popupGrabDismissAll := if_pos outside
    rw [← dismissed] at pops restored
    have final := pops.rest_trans rest
    rw [← subject] at final
    refine final.toOutcome.grabStep chained.stack lost (fun left => absurd rfl left) same ?_
      final.pinned
    rw [settled]
    exact restored
  · have kept : d.dismissOutside hit = d := if_neg outside
    rw [kept] at rest
    exact rest.toIdle.unmoved.grabStep same

theorem grabStep_buttonDown (grabs : d.windows.Grabs) : d.GrabStep .buttonDown := by
  by_cases dragged : d.drag.isSome = true
  · have after : d.next .buttonDown = d := if_pos dragged
    have settled : d.grabsSettled .buttonDown = d := if_pos dragged
    refine Unmoved.grabStep ?_ ?_
    · rw [after]
      exact (Idle.refl d).unmoved
    · rw [after, settled]
      exact ⟨rfl, rfl⟩
  · have settled : d.grabsSettled .buttonDown = d.dismissOutside d.ptrFocus := if_neg dragged
    refine grabStep_press grabs d.ptrFocus rfl settled ?_
    show (d.dismissOutside d.ptrFocus).Rest d.handleButtonDown
    unfold handleButtonDown
    rw [if_neg dragged]
    dsimp only
    split
    · exact rest_pressFocus _ _
    · exact (Idle.refl _).rest (.refl _)

theorem grabStep_touchDown (grabs : d.windows.Grabs) (contains : Nat → Bool) (room : Bool) :
    d.GrabStep (.touchDown contains room) := by
  refine grabStep_press grabs (d.surfaceAt contains) rfl rfl ?_
  show (d.dismissOutside (d.surfaceAt contains)).Rest (d.handleTouchDown contains room)
  unfold handleTouchDown
  dsimp only
  split
  · split
    · exact rest_pressFocus _ _
    · exact (Idle.refl _).rest (.refl _)
  · exact (Idle.refl _).rest (.refl _)

theorem unmoved_dropRole (roles : d.windows.Roles) (grabbers : d.windows.Grabbers l)
    (plain : (d.surface s).xdgPopup = false) (f : Surface → Surface) :
    d.Unmoved ((d.surfaceUnmap s).withWindows ((d.surfaceUnmap s).windows.modify s f)) := by
  rcases pops_surfaceUnmap roles grabbers s with ⟨idle, -⟩ | ⟨below, above, split, -, -⟩
  · exact idle.unmoved.withWindows rfl rfl
  · have object := grabbers.object s (split ▸ List.mem_append_right _ (List.mem_cons_self ..))
    rw [plain] at object
    cases object

theorem grabStep_plain {event : WindowStack.Event}
    (plain : d.nextWindow event = d.withWindows (d.windows.next event))
    (settled : d.grabsSettled (.window event) = d.nextWindow event)
    (array : (d.windows.next event).grab = d.windows.grab)
    (count : (d.windows.next event).grabCount = d.windows.grabCount) :
    d.GrabStep (.window event) := by
  have after : d.next (.window event) = d.withWindows (d.windows.next event) := plain
  refine Unmoved.grabStep ?_ ?_
  · rw [after]
    exact (Idle.refl d).unmoved.withWindows array count
  · rw [settled]
    exact ⟨rfl, rfl⟩

/-- Every request made of the windows grabs, pops, or leaves the grabs alone. -/
theorem grabStep_window (grabs : d.windows.Grabs) (event : WindowStack.Event)
    (direct : Seat.direct event = true) (allowed : d.windows.Allowed event) :
    d.GrabStep (.window event) := by
  obtain ⟨l, chained⟩ := grabs.chained
  have grabbers := grabbers_of_chained chained
  have proper := grabs.roles.proper
  have idle := (Idle.refl d).unmoved
  cases event with
  -- These can take a grab or end one.
  | destroy s => exact grabStep_destroy grabs s
  | commit s input => exact grabStep_commit grabs s input
  | bufferDestroyed s => exact grabStep_bufferDestroyed grabs s
  | popupDestroyed s => exact grabStep_popupDestroyed grabs s
  | grab s => exact grabStep_grab grabs allowed
  -- The others leave the grabs alone, at most changing a surface without one.
  | create s | attach s buffer | pendingBufferDestroyed s | placeBelow s | setSync s
  | setLayer s layer => exact grabStep_plain rfl rfl rfl rfl
  | placeAbove s =>
    exact grabStep_plain rfl rfl (WindowStack.blind_surfaceRaise (fun _ _ => rfl) _ s)
      (WindowStack.blind_surfaceRaise (fun _ _ => rfl) _ s)
  | getToplevel s =>
    refine grabStep_plain rfl rfl ?_ ?_ <;>
    · rw [WindowStack.next, WindowStack.xsGetToplevel]
      split <;> rfl
  | setParent s parent =>
    refine grabStep_plain rfl rfl ?_ ?_ <;>
    · rw [WindowStack.next, WindowStack.xtSetParent]
      split <;> rfl
  | getPopup s parent =>
    refine grabStep_plain rfl rfl ?_ ?_ <;>
    · rw [WindowStack.next, WindowStack.xsGetPopup]
      split
      · rfl
      · split <;> rfl
  | getSubsurface s parent =>
    refine grabStep_plain rfl rfl ?_ ?_ <;>
    · rw [WindowStack.next, WindowStack.getSubsurface]
      split
      · rfl
      · split <;> rfl
  | layerGetPopup s popup =>
    refine grabStep_plain rfl rfl ?_ ?_ <;>
    · rw [WindowStack.next, WindowStack.layerSurfaceGetPopup]
      split <;> rfl
  | getLayerSurface s layer =>
    have same : (d.windows.getLayerSurface s layer).grab = d.windows.grab ∧
        (d.windows.getLayerSurface s layer).grabCount = d.windows.grabCount := by
      unfold WindowStack.getLayerSurface
      split <;> exact ⟨rfl, rfl⟩
    refine Unmoved.grabStep ⟨same.1, same.2, rfl, rfl, fun pinned => ?_⟩ ⟨rfl, rfl⟩
    exact pinned.congr rfl same.1 same.2 rfl
  -- A surface with another role is no popup, so that none of the grabbing ones is hidden.
  | toplevelDestroyed s =>
    have plain := (proper s).popup_of_role (by rw [((proper s).toplevel allowed.2).1]; decide)
    exact (unmoved_dropRole grabs.roles grabbers plain _).grabStep ⟨rfl, rfl⟩
  | subsurfaceDestroyed s =>
    have plain := (proper s).popup_of_role (by rw [(proper s).subsurface allowed.2]; decide)
    exact (unmoved_dropRole grabs.roles grabbers plain _).grabStep ⟨rfl, rfl⟩
  | layerDestroyed s =>
    have plain := (proper s).popup_of_role (by rw [(proper s).layer allowed.2]; decide)
    refine Unmoved.grabStep ?_ ⟨rfl, rfl⟩
    show d.Unmoved (d.layerSurfaceResDestroy s)
    unfold layerSurfaceResDestroy
    split
    · exact idle
    · exact unmoved_dropRole grabs.roles grabbers plain _
  | unadopt s =>
    refine Unmoved.grabStep ?_ ⟨rfl, rfl⟩
    show d.Unmoved (d.xwmUnadoptSurface s)
    unfold xwmUnadoptSurface
    split
    · next foreign =>
      have plain := ((proper s).adoptable (by rw [foreign]; simp)).2.1
      exact unmoved_dropRole grabs.roles grabbers plain _
    · exact idle
  | adopt s overrideRedirect =>
    exact (idle_xwmAdoptSurface d s overrideRedirect).unmoved.grabStep ⟨rfl, rfl⟩
  | lockSurfaceDestroyed s =>
    refine Unmoved.grabStep ?_ ⟨rfl, rfl⟩
    show d.Unmoved (d.slockSurfaceResourceDestroy s)
    have gone : d.Unmoved (d.withWindows (d.windows.slockSurfaceResourceDestroy s)) :=
      idle.withWindows rfl rfl
    unfold slockSurfaceResourceDestroy
    dsimp only
    split
    · exact ⟨gone.array, gone.count, gone.prev, gone.done, fun _ => pinned_keyboardSetFocus _ _⟩
    · exact gone
  | setDesync s input =>
    have plain := (proper s).popup_of_role (by rw [(proper s).subsurface allowed.2]; decide)
    have desync : d.Idle (d.withWindows (d.windows.modify s fun x =>
        { x with subsurface := x.subsurface.map ({ · with sync := false }) })) := by
      refine idle_modify (fun _ => rfl) fun roles =>
        roles.modify s (fun proper => ?_) fun _ => rfl
      exact { proper with subsurface := by simpa using proper.subsurface }
    refine Unmoved.grabStep ?_ ⟨rfl, rfl⟩
    show d.Unmoved (d.subsurfaceSetDesync s input)
    unfold subsurfaceSetDesync
    dsimp only
    split
    · have released := desync.trans (idle_release _ s)
      refine (released.trans (rest_commitNested input _ _ s (released.roles grabs.roles)
        (released.grabbers grabbers) ?_).toIdle).unmoved
      exact (released.popup s).trans plain
    · exact desync.unmoved
  | getLockSurface s granted => cases direct
  | raise s => cases direct
  | pressOutside => cases direct

/-- Every event grabs, pops, or leaves the grabs alone. -/
theorem grabStep_next (grabs : d.windows.Grabs) (event : Event) (allowed : d.Allowed event) :
    d.GrabStep event := by
  have idle := (Idle.refl d).unmoved
  have same : ∀ d' : Seat, d'.windows = d.windows → d'.grabPrevFocus = d.grabPrevFocus →
      d'.popupDone = d.popupDone → (d.Pinned → d'.Pinned) → d.Unmoved d' := by
    intro d' windows prev done pinned
    exact ⟨by rw [windows], by rw [windows], prev, done, pinned⟩
  cases event with
  | window event => exact grabStep_window grabs event allowed.1 allowed.2
  | buttonDown => exact grabStep_buttonDown grabs
  | touchDown contains room => exact grabStep_touchDown grabs contains room
  -- The others move no grab, and what they do to the keyboard leaves it where the grabs want it.
  | setKbd s wanted =>
    refine Unmoved.grabStep ?_ ⟨rfl, rfl⟩
    rw [next, layerSurfaceSetKbd]
    split
    · exact same _ rfl rfl rfl id
    · exact idle
  | lock l =>
    refine Unmoved.grabStep ?_ ⟨rfl, rfl⟩
    rw [next, slockMgrLock]
    split
    · exact idle
    · have ended := idle_dndEnd
        { { d with lock := some l, locked := true }.keyboardSetFocus none with ptrFocus := none }
      exact ⟨ended.array, ended.count, ended.prev, ended.done, fun _ => ended.pinned nofun⟩
  | getLockSurface l s =>
    refine Unmoved.grabStep ?_ ⟨rfl, rfl⟩
    rw [next, slockGetLockSurface]
    split
    · have grabs : (d.windows.slockGetLockSurface s true).grab = d.windows.grab ∧
          (d.windows.slockGetLockSurface s true).grabCount = d.windows.grabCount := by
        unfold WindowStack.slockGetLockSurface
        split <;> exact ⟨rfl, rfl⟩
      exact ⟨grabs.1, grabs.2, rfl, rfl, fun _ => pinned_keyboardSetFocus _ _⟩
    · exact idle
  | unlock l =>
    refine Unmoved.grabStep ?_ ⟨rfl, rfl⟩
    rw [next, slockUnlockAndDestroy]
    split
    · exact same _ rfl rfl rfl fun _ => (pinned_keyboardSetFocus
        { d with locked := false, lock := none } _).congr rfl rfl rfl rfl
    · exact idle
  | lockDestroyed l =>
    refine Unmoved.grabStep ?_ ⟨rfl, rfl⟩
    rw [next, slockResourceDestroy]
    split
    · exact same _ rfl rfl rfl id
    · exact idle
  | motion contains held =>
    refine Unmoved.grabStep ?_ ⟨rfl, rfl⟩
    rw [next, handleMotion]
    split
    · exact idle
    · exact same _ rfl rfl rfl id
  | buttonUp drops =>
    refine Unmoved.grabStep ?_ ⟨rfl, rfl⟩
    rw [next, handleButtonUp]
    split
    · split
      · exact d.idle_dndEnd.unmoved
      · exact idle
    · exact same _ rfl rfl rfl id
  | pencilDown contains =>
    refine Unmoved.grabStep ?_ ⟨rfl, rfl⟩
    rw [next, handlePencilDown]
    split
    · exact (d.rest_pressFocus _).toIdle.unmoved
    · exact idle
  | scrollOn s =>
    refine Unmoved.grabStep ?_ ⟨rfl, rfl⟩
    rw [next]
    split
    · exact idle
    · exact same _ rfl rfl rfl id
  | keyOn s => exact (d.idle_keyboardSetFocus (some s)).unmoved.grabStep ⟨rfl, rfl⟩
  | nativeActivate s => exact (d.rest_activate s).toIdle.unmoved.grabStep ⟨rfl, rfl⟩
  | nativeDeactivate s =>
    refine Unmoved.grabStep ?_ ⟨rfl, rfl⟩
    rw [next]
    split
    · exact (d.idle_keyboardSetFocus none).unmoved
    · exact idle
  | startDrag origin icon =>
    refine Unmoved.grabStep ?_ ⟨rfl, rfl⟩
    rw [next, dataDeviceStartDrag]
    split
    · exact idle
    · exact same _ rfl rfl rfl id
  | endDrag => exact d.idle_dndEnd.unmoved.grabStep ⟨rfl, rfl⟩
  | interactiveBegin s =>
    refine Unmoved.grabStep ?_ ⟨rfl, rfl⟩
    rw [next, Seat.interactiveBegin]
    split
    · exact same _ rfl rfl rfl id
    · exact idle
  | minimize s minimized =>
    exact (d.idle_surfaceSetMinimized s minimized).unmoved.grabStep ⟨rfl, rfl⟩
  | restore s =>
    exact ((d.idle_surfaceSetMinimized s false).trans
      (rest_activate _ s).toIdle).unmoved.grabStep ⟨rfl, rfl⟩
  | activate s => exact (d.rest_activate s).toIdle.unmoved.grabStep ⟨rfl, rfl⟩

end Seat

end Xios
