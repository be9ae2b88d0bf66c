import Xios.Seat.FocusLaws
import Xios.Windows.Grabs

/-! How grabs of popups end, whom that tells to go away, and where it leaves the keyboard. -/

namespace Xios

/-- The popups that hold a grab, each one with its popup object. -/
structure WindowStack.Grabbers (st : WindowStack) (l : List Nat) : Prop where
  -- They are stored in the array.
  stack : st.GrabStack l
  once : l.Nodup
  object : ∀ p ∈ l, (st.surface p).xdgPopup = true

namespace Seat

/-- While a popup holds a grab and the session is not locked, the topmost one has the keyboard. -/
def Pinned (d : Seat) : Prop :=
  d.locked = false → 0 < d.windows.grabCount → d.kbdFocus = d.windows.topGrab

/-- A step in which no grab begins or ends. -/
structure Idle (d d' : Seat) : Prop where
  array : d'.windows.grab = d.windows.grab
  count : d'.windows.grabCount = d.windows.grabCount
  -- What was remembered when they began is the same.
  prev : d'.grabPrevFocus = d.grabPrevFocus
  -- Nobody is told to go away.
  done : d'.popupDone = d.popupDone
  -- Surfaces have the same popup objects, and are used consistently.
  popup : ∀ o, (d'.surface o).xdgPopup = (d.surface o).xdgPopup
  roles : d.windows.Roles → d'.windows.Roles
  -- The keyboard stays with the topmost popup.
  pinned : d.Pinned → d'.Pinned

theorem Idle.refl (d : Seat) : d.Idle d :=
  ⟨rfl, rfl, rfl, rfl, fun _ => rfl, id, id⟩

variable {d d' : Seat}

theorem Idle.trans {d'' : Seat} (first : d.Idle d') (second : d'.Idle d'') : d.Idle d'' :=
  ⟨second.array.trans first.array, second.count.trans first.count, second.prev.trans first.prev,
    second.done.trans first.done, fun o => (second.popup o).trans (first.popup o),
    second.roles ∘ first.roles, second.pinned ∘ first.pinned⟩

theorem Idle.grabbers (idle : d.Idle d') {l : List Nat} (grabbers : d.windows.Grabbers l) :
    d'.windows.Grabbers l :=
  ⟨grabbers.stack.of_eq idle.array idle.count, grabbers.once,
    fun p member => (idle.popup p).trans (grabbers.object p member)⟩

theorem topGrab_congr {st st' : WindowStack} (array : st'.grab = st.grab)
    (count : st'.grabCount = st.grabCount) : st'.topGrab = st.topGrab := by
  unfold WindowStack.topGrab
  simp only [array, count]

theorem Pinned.congr (pinned : d.Pinned) (locked : d'.locked = d.locked)
    (array : d'.windows.grab = d.windows.grab)
    (count : d'.windows.grabCount = d.windows.grabCount) (keys : d'.kbdFocus = d.kbdFocus) :
    d'.Pinned := by
  intro open' grabbed
  rw [keys, topGrab_congr array count]
  exact pinned (locked ▸ open') (count ▸ grabbed)

theorem Idle.of_eq (array : d'.windows.grab = d.windows.grab)
    (count : d'.windows.grabCount = d.windows.grabCount)
    (prev : d'.grabPrevFocus = d.grabPrevFocus) (done : d'.popupDone = d.popupDone)
    (popup : ∀ o, (d'.surface o).xdgPopup = (d.surface o).xdgPopup)
    (roles : d.windows.Roles → d'.windows.Roles) (locked : d'.locked = d.locked)
    (keys : d'.kbdFocus = d.kbdFocus) : d.Idle d' :=
  ⟨array, count, prev, done, popup, roles, fun pinned => pinned.congr locked array count keys⟩

theorem idle_withWindows {st : WindowStack} (array : st.grab = d.windows.grab)
    (count : st.grabCount = d.windows.grabCount)
    (popup : ∀ o, (st.surface o).xdgPopup = (d.surface o).xdgPopup)
    (roles : d.windows.Roles → st.Roles) : d.Idle (d.withWindows st) :=
  .of_eq array count rfl rfl popup roles rfl rfl

theorem pinned_keyboardSetFocus (d : Seat) (s : Option Nat) : (d.keyboardSetFocus s).Pinned := by
  intro open' grabbed
  show d.focusTarget s = d.windows.topGrab
  unfold focusTarget
  rw [if_neg (fun locked => Bool.false_ne_true (open'.symm.trans locked.1))]
  exact if_pos grabbed

theorem idle_keyboardSetFocus (d : Seat) (s : Option Nat) : d.Idle (d.keyboardSetFocus s) :=
  ⟨rfl, rfl, rfl, rfl, fun _ => rfl, id, fun _ => d.pinned_keyboardSetFocus s⟩

theorem idle_dndEnd (d : Seat) : d.Idle d.dndEnd := by
  unfold dndEnd
  split
  · exact .of_eq rfl rfl rfl rfl (fun _ => rfl) id rfl rfl
  · exact .refl d

theorem idle_gone (d : Seat) (s : Nat) :
    d.Idle (((d.dragGone s).movingGone s).lockSurfaceGone s) := by
  have dragged : d.Idle (d.dragGone s) := by
    unfold dragGone
    split
    · exact d.idle_dndEnd
    · exact .refl d
  have moved : d.Idle ((d.dragGone s).movingGone s) := by
    refine dragged.trans ?_
    unfold movingGone
    split
    · exact .of_eq rfl rfl rfl rfl (fun _ => rfl) id rfl rfl
    · exact .refl _
  refine moved.trans ?_
  generalize (d.dragGone s).movingGone s = d'
  unfold lockSurfaceGone
  split
  · have unlocked : d'.Idle (d'.withWindows { d'.windows with lockSurface := none }) :=
      idle_withWindows rfl rfl (fun _ => rfl)
        fun roles => roles.of_eq rfl fun _ held => by cases held
    dsimp only
    split
    · exact unlocked.trans (idle_keyboardSetFocus _ none)
    · exact unlocked
  · exact .refl d'

theorem idle_pointerGone (d : Seat) (s : Nat) : d.Idle (d.pointerGone s) := by
  unfold pointerGone
  split
  · exact .of_eq rfl rfl rfl rfl (fun _ => rfl) id rfl rfl
  · exact .refl d

theorem idle_keyboardGone (d : Seat) (s : Nat) : d.Idle (d.keyboardGone s) := by
  unfold keyboardGone
  split
  · exact d.idle_keyboardSetFocus _
  · exact .refl d

theorem idle_surfaceHide (d : Seat) (s : Nat) : d.Idle (d.surfaceHide s) := by
  have kept := WindowStack.keeps_surfaceHide d.windows s
  have hidden : d.Idle (d.withWindows (d.windows.surfaceHide s)) :=
    idle_withWindows rfl rfl kept.popup kept.roles
  exact hidden.trans ((idle_pointerGone _ s).trans (idle_keyboardGone _ s))

variable {s : Nat}

theorem grabGone_absent {unmap : Seat → Nat → Seat}
    (absent : ∀ i : Fin maxPopupGrab, (i.val : Int) < d.windows.grabCount →
      d.windows.grab i ≠ some s) : grabGone unmap d s = d := by
  unfold grabGone
  split
  · rfl
  · next index found =>
    have held := List.find?_some found
    simp only [decide_eq_true_eq] at held
    exact absurd held.2 (absent index held.1)

theorem idle_unmapWith {gone : Seat → Nat → Seat} (told : ∀ d', d.Idle d' → gone d' s = d') :
    d.Idle (unmapWith gone d s) := by
  have begun := d.idle_gone s
  have skipped := told _ begun
  unfold unmapWith
  generalize ((d.dragGone s).movingGone s).lockSurfaceGone s = d' at begun skipped
  dsimp only
  split
  · rw [skipped, ite_self]
    exact begun.trans (d'.idle_surfaceHide s)
  · exact begun

theorem idle_unmapNested (grabs : Nat)
    (absent : ∀ i : Fin maxPopupGrab, (i.val : Int) < d.windows.grabCount →
      d.windows.grab i ≠ some s) : d.Idle (unmapNested grabs d s) := by
  cases grabs with
  | zero => exact idle_unmapWith fun _ _ => rfl
  | succ grabs =>
    refine idle_unmapWith fun d' idle => grabGone_absent fun i below => ?_
    rw [idle.array]
    exact absent i (idle.count ▸ below)

/-- A function that hides a surface, here and among the windows alone, and ends no other grab. -/
structure Quiet (unmap : Seat → Nat → Seat) (unmap' : WindowStack → Nat → WindowStack) :
    Prop where
  -- It changes the windows as it does without a seat.
  windows : ∀ d s, (unmap d s).windows = unmap' d.windows s
  -- It leaves the grabs alone when it hides a surface that holds none.
  silent : WindowStack.Silent unmap'
  hides : ∀ st s, st.Hides (unmap' st s) ∧ ((unmap' st s).surface s).mapped = false
  -- It concerns no grab when it hides a surface that holds none.
  idle : ∀ (d : Seat) s, (∀ i : Fin maxPopupGrab, (i.val : Int) < d.windows.grabCount →
    d.windows.grab i ≠ some s) → d.Idle (unmap d s)

theorem quiet_unmapNested (grabs : Nat) :
    Quiet (unmapNested grabs) (WindowStack.unmapNested grabs) :=
  ⟨windows_unmapNested grabs, WindowStack.silent_unmapNested grabs,
    WindowStack.hides_unmapNested grabs, fun _ _ absent => idle_unmapNested grabs absent⟩

theorem quiet_surfaceUnmap : Quiet surfaceUnmap WindowStack.surfaceUnmap :=
  ⟨windows_surfaceUnmap, WindowStack.silent_surfaceUnmap, WindowStack.hides_surfaceUnmap,
    fun _ _ absent => idle_unmapNested _ absent⟩

/-- Some popups have been told to go away, and hidden. -/
structure Dismissed (d d' : Seat) (told : List Nat) : Prop where
  -- They were told in turn, topmost first.
  done : d'.popupDone = told ++ d.popupDone
  -- They are hidden, and nothing else happened to the windows.
  hidden : ∀ p ∈ told, (d'.surface p).mapped = false
  hides : d.windows.Hides d'.windows
  -- What was remembered when the first grab began is the same.
  prev : d'.grabPrevFocus = d.grabPrevFocus

theorem Dismissed.trans {d'' : Seat} {first second : List Nat} (one : d.Dismissed d' first)
    (two : d'.Dismissed d'' second) : d.Dismissed d'' (second ++ first) := by
  refine ⟨?_, fun p member => ?_, one.hides.trans two.hides, two.prev.trans one.prev⟩
  · rw [two.done, one.done, List.append_assoc]
  · rcases List.mem_append.mp member with later | earlier
    · exact two.hidden p later
    · exact two.hides.mapped (one.hidden p earlier)

/-- The keyboard has gone to where it was before the first grab, if that surface still exists. -/
def Restored (d d' : Seat) : Prop :=
  d'.locked = false → d'.windows.grabCount = 0 → ∀ p, d.grabPrevFocus = some p →
    d'.kbdFocus = d'.restoreTarget (some p)

/-- The grab of a popup that goes away has ended, and those above it before. -/
structure Ended (d d' : Seat) (told : List Nat) : Prop where
  -- The popups above it were told in turn, topmost first.
  done : d'.popupDone = told ++ d.popupDone
  -- They are hidden, and nothing else happened to the windows.
  hidden : ∀ p ∈ told, (d'.surface p).mapped = false
  hides : d.windows.Hides d'.windows
  -- What was remembered when the first grab began is the same as long as one is left.
  prev : d'.windows.grabCount ≠ 0 → d'.grabPrevFocus = d.grabPrevFocus
  -- The keyboard went to the popup that is topmost now, or back after the last grab.
  pinned : d'.Pinned
  restored : d.Restored d'

theorem kbdFocus_restoreFocus (prev : Option Nat) (ended : d.windows.grabCount = 0)
    (open' : (d.restoreFocus prev).locked = false) :
    (d.restoreFocus prev).kbdFocus = (d.restoreFocus prev).restoreTarget prev := by
  have target : (d.restoreFocus prev).restoreTarget prev = d.restoreTarget prev := by
    unfold restoreFocus
    split <;> rfl
  rw [target]
  revert open'
  unfold restoreFocus
  split
  · next same => exact fun _ => same
  · intro open'
    show d.focusTarget _ = _
    unfold focusTarget
    rw [if_neg (fun locked => Bool.false_ne_true (open'.symm.trans locked.1)),
      if_neg (by omega)]

theorem Dismissed.ended_grabPopped {told : List Nat} (dismissed : d.Dismissed d' told) :
    d.Ended d'.grabPopped told := by
  have windows := d'.windows_grabPopped
  have done : d'.grabPopped.popupDone = d'.popupDone := by
    unfold grabPopped restoreFocus
    split
    · split <;> rfl
    · split <;> rfl
  refine ⟨done.trans dismissed.done, ?_, ?_, ?_, ?_, ?_⟩
  · intro p member
    rw [surface, windows]
    exact dismissed.hidden p member
  · rw [windows]
    exact dismissed.hides
  · rw [windows]
    intro left
    rw [← dismissed.prev, grabPopped, if_neg left]
    split <;> rfl
  · intro open' grabbed
    rw [windows] at grabbed ⊢
    revert open'
    unfold grabPopped
    rw [if_neg (by omega)]
    split
    · exact fun _ => ‹_›
    · exact fun open' => d'.pinned_keyboardSetFocus _ open' grabbed
  · intro open' ended p remembered
    rw [windows] at ended
    revert open'
    unfold grabPopped
    rw [if_pos ended, dismissed.prev, remembered]
    exact fun open' => kbdFocus_restoreFocus _ ended open'

section Popping

variable {unmap : Seat → Nat → Seat} {unmap' : WindowStack → Nat → WindowStack}
  (quiet : Quiet unmap unmap')
include quiet

theorem dismissed_dismiss {d : Seat} {p : Nat} (object : (d.surface p).xdgPopup = true)
    (absent : ∀ i : Fin maxPopupGrab, (i.val : Int) < d.windows.grabCount →
      d.windows.grab i ≠ some p) : d.Dismissed (dismiss unmap d (some p)) [p] := by
  unfold dismiss
  dsimp only
  rw [if_pos object]
  have idle := quiet.idle { d with popupDone := p :: d.popupDone } p absent
  obtain ⟨hides, hidden⟩ := quiet.hides d.windows p
  refine ⟨idle.done, fun q member => ?_, ?_, idle.prev⟩
  · rw [List.mem_singleton.mp member, surface, quiet.windows]
    exact hidden
  · rw [quiet.windows]
    exact hides

theorem grab_dismiss {d : Seat} {p : Nat}
    (absent : ∀ i : Fin maxPopupGrab, (i.val : Int) < d.windows.grabCount →
      d.windows.grab i ≠ some p) :
    (dismiss unmap d (some p)).windows.grab = d.windows.grab ∧
      (dismiss unmap d (some p)).windows.grabCount = d.windows.grabCount := by
  rw [windows_dismiss quiet.windows, WindowStack.dismiss]
  split
  · exact quiet.silent d.windows p absent
  · exact ⟨rfl, rfl⟩

theorem dismissed_popGrab {d : Seat} {l : List Nat} {p : Nat}
    (grabs : d.windows.GrabStack (l ++ [p])) (once : (l ++ [p]).Nodup)
    (object : (d.surface p).xdgPopup = true) {i : Fin maxPopupGrab} (top : i.val = l.length) :
    d.Dismissed (popGrab unmap d i) [p] := by
  have rest := grabs.dropLast top
  have held : d.windows.grab i = some p := by
    rw [grabs.stored i (by rw [List.length_append, List.length_singleton]; omega)]
    simp [top]
  have other : p ∉ l := by
    have apart := List.disjoint_of_nodup_append once
    exact fun member => apart member (List.mem_singleton.mpr rfl)
  unfold popGrab
  rw [held]
  have taken : d.windows.Hides ((d.takeGrab i).setGrabCount (d.windows.grabCount - 1)).windows :=
    .of_eq rfl rfl rfl (by show d.windows.grabCount - 1 ≤ _; omega) fun _ => id
  have told := dismissed_dismiss quiet
    (d := (d.takeGrab i).setGrabCount (d.windows.grabCount - 1)) object
    fun j below same => other ((rest.mem_iff p).mpr ⟨j, below, same⟩)
  exact ⟨told.done, told.hidden, taken.trans told.hides, told.prev⟩

theorem dismissed_above {above : List Nat} : ∀ {d : Seat} {below : List Nat},
    d.windows.GrabStack (below ++ above) → (below ++ above).Nodup →
    (∀ p ∈ above, (d.surface p).xdgPopup = true) →
    d.Dismissed ((d.windows.grabsAbove (below.length - 1)).foldl (popGrab unmap) d) above := by
  -- The topmost grab is the last of the list, and is popped first.
  induction above using List.reverseRecOn with
  | nil =>
    intro d below grabs _ _
    rw [List.append_nil] at grabs
    rw [WindowStack.grabsAbove_top (by have := grabs.count; omega)]
    exact ⟨rfl, nofun, .refl _, rfl⟩
  | append_singleton above p ih =>
    intro d below grabs once object
    rw [← List.append_assoc] at grabs once
    have count := grabs.count
    have bounded := grabs.bounded
    simp only [List.length_append, List.length_singleton] at count bounded
    have inside : below.length + above.length < maxPopupGrab := by omega
    rw [WindowStack.grabsAbove_succ inside (by omega) (by rw [count]; push_cast; rfl),
      List.foldl_cons]
    have first := dismissed_popGrab quiet grabs once
      (object p (List.mem_append_right _ (List.mem_singleton.mpr rfl)))
      (i := ⟨below.length + above.length, inside⟩) (by simp)
    have popped := grabs.popped quiet.silent once (i := ⟨below.length + above.length, inside⟩)
      (by simp)
    rw [← windows_popGrab quiet.windows] at popped
    have same : WindowStack.grabsAbove
        { d.windows with grabCount := (below.length + above.length : Nat) } (below.length - 1) =
        (popGrab unmap d ⟨below.length + above.length, inside⟩).windows.grabsAbove
          (below.length - 1) := by
      unfold WindowStack.grabsAbove
      rw [popped.count, List.length_append]
    rw [same]
    refine first.trans (ih popped (List.Nodup.of_append_left once) fun q member => ?_)
    rw [surface, first.hides.blind (g := Surface.xdgPopup) (fun _ => rfl) q]
    exact object q (List.mem_append_left _ member)

theorem ended_grabGone {d : Seat} {below above : List Nat} {s : Nat}
    (grabs : d.windows.GrabStack (below ++ s :: above)) (once : (below ++ s :: above).Nodup)
    (object : ∀ p ∈ above, (d.surface p).xdgPopup = true) :
    d.Ended (grabGone unmap d s) above := by
  obtain ⟨inside, place⟩ := grabs.find once
  unfold grabGone
  rw [place]
  dsimp only
  rw [show below ++ s :: above = (below ++ [s]) ++ above by simp] at grabs once
  have dismissed := dismissed_above quiet grabs once object
  rw [show ((below ++ [s]).length : Int) - 1 = below.length by simp] at dismissed
  generalize (d.windows.grabsAbove below.length).foldl (popGrab unmap) d = d' at dismissed
  have taken : d'.Dismissed ((d'.takeGrab ⟨below.length, inside⟩).setGrabCount
      (d'.windows.grabCount - 1)) [] :=
    ⟨rfl, nofun, .of_eq rfl rfl rfl (by show d'.windows.grabCount - 1 ≤ _; omega) fun _ => id, rfl⟩
  exact (dismissed.trans taken).ended_grabPopped

end Popping

variable {d : Seat} {s : Nat}

theorem focusable_of_popup (role : (d.surface s).role = .popup) : d.focusable s = false := by
  unfold focusable
  rw [role]

theorem filter_erase_of_not {f : Nat → Bool} (out : f s = false) (l : List Nat) :
    (l.erase s).filter f = l.filter f := by
  induction l with
  | nil => rfl
  | cons o l ih =>
    by_cases same : o = s
    · subst same
      rw [List.erase_cons_head, List.filter_cons_of_neg (by rw [out]; decide)]
    · rw [List.erase_cons_tail (by simpa using same), List.filter_cons, List.filter_cons, ih]

variable {d' : Seat}

theorem topmostFocusable_congr (out : d.focusable s = false)
    (mapped : d'.windows.mapped = d.windows.mapped.erase s ∨ d'.windows.mapped = d.windows.mapped)
    (same : ∀ o, d'.focusable o = d.focusable o) : d'.topmostFocusable = d.topmostFocusable := by
  have alike : d'.focusable = d.focusable := funext same
  unfold topmostFocusable
  rw [← List.head?_filter, ← List.head?_filter, List.filter_reverse, List.filter_reverse, alike]
  rcases mapped with erased | kept
  · rw [erased, filter_erase_of_not out]
  · rw [kept]

theorem topmostFocusable_surfaceHide (role : (d.surface s).role = .popup) :
    (d.withWindows (d.windows.surfaceHide s)).topmostFocusable = d.topmostFocusable := by
  refine topmostFocusable_congr (focusable_of_popup role) (.inl rfl) fun o => ?_
  by_cases same : o = s
  · subst same
    rw [focusable_of_popup role]
    refine focusable_of_popup ?_
    rw [surface, windows_withWindows, WindowStack.surfaceHide, WindowStack.modify_same]
    exact role
  · unfold focusable
    rw [surface, windows_withWindows, WindowStack.surfaceHide, WindowStack.modify_other _ _ same]
    rfl

theorem kbdFocus_keyboardGone (open' : d.locked = false) (ended : d.windows.grabCount = 0) :
    (d.keyboardGone s).kbdFocus =
      if d.kbdFocus = some s then d.topmostFocusable else d.kbdFocus := by
  unfold keyboardGone
  split
  · show d.focusTarget _ = _
    unfold focusTarget
    rw [if_neg (fun locked => Bool.false_ne_true (open'.symm.trans locked.1)),
      if_neg (by omega)]
  · rfl

theorem locked_keyboardGone (d : Seat) (s : Nat) :
    (d.keyboardGone s).locked = d.locked ∧
      ∀ o, (d.keyboardGone s).restoreTarget o = d.restoreTarget o := by
  unfold keyboardGone
  split <;> exact ⟨rfl, fun _ => rfl⟩

theorem locked_pointerGone (d : Seat) (s : Nat) :
    (d.pointerGone s).locked = d.locked ∧ (d.pointerGone s).kbdFocus = d.kbdFocus ∧
      (d.pointerGone s).topmostFocusable = d.topmostFocusable ∧
      ∀ o, (d.pointerGone s).restoreTarget o = d.restoreTarget o := by
  unfold pointerGone
  split <;> exact ⟨rfl, rfl, rfl, fun _ => rfl⟩

theorem Restored.surfaceHide (restored : d.Restored d') (role : (d'.surface s).role = .popup) :
    d.Restored (d'.surfaceHide s) := by
  intro open' ended p remembered
  have topmost := topmostFocusable_surfaceHide role
  have surface' : ∀ o, ((d'.withWindows (d'.windows.surfaceHide s)).surface o).mapped =
      if o = s then false else (d'.surface o).mapped := by
    intro o
    rw [surface, windows_withWindows, WindowStack.surfaceHide]
    split
    · next same =>
      rw [same, WindowStack.modify_same]
      rfl
    · next other => rw [WindowStack.modify_other _ _ other]
  rw [windows_surfaceHide] at ended
  revert open'
  unfold Seat.surfaceHide
  rw [(locked_keyboardGone _ s).1, (locked_keyboardGone _ s).2, (locked_pointerGone _ s).1,
    (locked_pointerGone _ s).2.2.2]
  intro open'
  have before := restored open' ended p remembered
  rw [kbdFocus_keyboardGone ((locked_pointerGone _ s).1.trans open')
    ((congrArg _ (windows_pointerGone _ s)).trans ended), (locked_pointerGone _ s).2.1,
    (locked_pointerGone _ s).2.2.1, topmost]
  show (if d'.kbdFocus = some s then _ else d'.kbdFocus) = _
  rw [before]
  unfold restoreTarget
  dsimp only
  rw [surface' p, topmost]
  by_cases shown : (d'.surface p).mapped = true
  · by_cases same : p = s
    · subst same
      simp [shown]
    · simp [shown, same]
  · simp [shown]

/-- Grabs may have ended, by way of some surface that was hidden or destroyed. -/
structure Outcome (d d' : Seat) (subject : Option Nat) (l gone : List Nat) : Prop where
  -- These popups still hold their grabs.
  stack : d'.windows.GrabStack l
  -- Those above have been told to go away and are hidden, except for the one it began with.
  done : d'.popupDone = gone.filter (some · ≠ subject) ++ d.popupDone
  hidden : ∀ p ∈ gone, some p ≠ subject → (d'.surface p).mapped = false

/-- Grabs may have ended, and no surface has lost its popup object yet. -/
structure Pops (d d' : Seat) (subject : Option Nat) (l gone : List Nat) : Prop
    extends d.Outcome d' subject l gone where
  -- What was remembered when the first grab began is the same as long as one is left.
  prev : l ≠ [] → d'.grabPrevFocus = d.grabPrevFocus
  -- The keyboard stays with the topmost popup.
  pinned : d.Pinned → d'.Pinned
  -- Those that have been told to go away still have their popup objects.
  object : ∀ p ∈ gone, some p ≠ subject → (d'.surface p).xdgPopup = true
  -- Surfaces have the same popup objects, and are used consistently.
  popup : ∀ o, (d'.surface o).xdgPopup = (d.surface o).xdgPopup
  roles : d.windows.Roles → d'.windows.Roles

variable {d'' : Seat} {subject : Option Nat} {l gone : List Nat}

theorem Idle.pops_trans (idle : d.Idle d') (pops : d'.Pops d'' subject l gone) :
    d.Pops d'' subject l gone :=
  ⟨⟨pops.stack, idle.done ▸ pops.done, pops.hidden⟩,
    fun left => (pops.prev left).trans idle.prev, pops.pinned ∘ idle.pinned, pops.object,
    fun o => (pops.popup o).trans (idle.popup o), pops.roles ∘ idle.roles⟩

theorem Idle.restored_trans (idle : d.Idle d') (restored : d'.Restored d'') : d.Restored d'' :=
  fun open' none p before => restored open' none p (idle.prev.trans before)

/-- A step in which no grab begins or ends and no popup is shown. -/
structure Rest (d d' : Seat) : Prop extends d.Idle d' where
  -- Popups stay hidden.
  still : ∀ p, (d.surface p).xdgPopup = true → (d.surface p).mapped = false →
    (d'.surface p).mapped = false

theorem Rest.trans (first : d.Rest d') (second : d'.Rest d'') : d.Rest d'' :=
  ⟨first.toIdle.trans second.toIdle, fun p object hidden =>
    second.still p ((first.popup p).trans object) (first.still p object hidden)⟩

theorem Idle.rest (idle : d.Idle d') (hides : d.windows.Hides d'.windows) : d.Rest d' :=
  ⟨idle, fun _ _ hidden => hides.mapped hidden⟩

theorem Pops.rest_trans (pops : d.Pops d' subject l gone) (rest : d'.Rest d'') :
    d.Pops d'' subject l gone :=
  ⟨⟨pops.stack.of_eq rest.array rest.count, rest.done.trans pops.done,
    fun p member other => rest.still p (pops.object p member other) (pops.hidden p member other)⟩,
    fun left => rest.prev.trans (pops.prev left), rest.pinned ∘ pops.pinned,
    fun p member other => (rest.popup p).trans (pops.object p member other),
    fun o => (rest.popup o).trans (pops.popup o), rest.roles ∘ pops.roles⟩

theorem Pops.grabbers (pops : d.Pops d' subject l gone)
    (grabbers : d.windows.Grabbers (l ++ gone)) : d'.windows.Grabbers l :=
  ⟨pops.stack, List.Nodup.of_append_left grabbers.once, fun p member =>
    (pops.popup p).trans (grabbers.object p (List.mem_append_left _ member))⟩

theorem Ended.pops {below above : List Nat} (ended : d.Ended d' above)
    (stack : d'.windows.GrabStack below) (once : (below ++ s :: above).Nodup)
    (object : ∀ p ∈ above, (d.surface p).xdgPopup = true) :
    d.Pops d' (some s) below (s :: above) := by
  have popup : ∀ o, (d'.surface o).xdgPopup = (d.surface o).xdgPopup :=
    fun o => ended.hides.blind (g := Surface.xdgPopup) (fun _ => rfl) o
  have others : (s :: above).filter (some · ≠ some s) = above := by
    have apart := (List.nodup_cons.mp (List.Nodup.of_append_right once)).1
    rw [List.filter_cons_of_neg (by simp), List.filter_eq_self]
    intro p member
    simpa using fun same : p = s => apart (same ▸ member)
  have higher : ∀ p ∈ s :: above, some p ≠ some s → p ∈ above := by
    intro p member other
    rcases List.mem_cons.mp member with same | higher
    · exact absurd (congrArg some same) other
    · exact higher
  refine ⟨⟨stack, by rw [others]; exact ended.done,
    fun p member other => ended.hidden p (higher p member other)⟩, fun left => ?_,
    fun _ => ended.pinned,
    fun p member other => (popup p).trans (object p (higher p member other)), popup,
    ended.hides.roles⟩
  refine ended.prev ?_
  rw [stack.count]
  simpa using left

theorem role_of_grabber (roles : d.windows.Roles) (grabbers : d.windows.Grabbers l)
    (member : s ∈ l) : (d.surface s).role = .popup :=
  ((roles.proper s).popup (grabbers.object s member)).1

/-- Hiding a surface pops the grabs from it upwards, or does nothing to them. -/
theorem pops_surfaceUnmap (roles : d.windows.Roles) (grabbers : d.windows.Grabbers l) (s : Nat) :
    (d.Idle (d.surfaceUnmap s) ∧ (s ∈ l → (d.surface s).mapped = false)) ∨
      ∃ below above, l = below ++ s :: above ∧
        d.Pops (d.surfaceUnmap s) (some s) below (s :: above) ∧ d.Restored (d.surfaceUnmap s) := by
  by_cases member : s ∈ l
  · have role := role_of_grabber roles grabbers member
    have begun := d.idle_gone s
    have windows := d.windows_gone s
    obtain ⟨grabs, positive⟩ : ∃ grabs, d.windows.grabCount.toNat = grabs + 1 := by
      have count := grabbers.stack.count
      have some := List.length_pos_of_mem member
      exact ⟨d.windows.grabCount.toNat - 1, by omega⟩
    unfold surfaceUnmap
    rw [positive]
    unfold unmapNested unmapWith
    have kept : (((d.dragGone s).movingGone s).lockSurfaceGone s).windows.surface =
        d.windows.surface := by
      rw [windows]
      split <;> rfl
    generalize ((d.dragGone s).movingGone s).lockSurfaceGone s = d' at begun windows kept
    dsimp only
    rw [surface, kept, if_pos role]
    split
    · next shown =>
      obtain ⟨below, above, rfl⟩ := List.append_of_mem member
      have grabbers' := begun.grabbers grabbers
      have higher : ∀ p ∈ above, (d'.surface p).xdgPopup = true := fun p member =>
        grabbers'.object p (List.mem_append_right _ (List.mem_cons_of_mem s member))
      have ended := ended_grabGone (quiet_unmapNested grabs) grabbers'.stack grabbers'.once higher
      have stack := grabbers'.stack.gone (WindowStack.silent_unmapNested grabs) grabbers'.once
      rw [← windows_grabGone (windows_unmapNested grabs)] at stack
      have role' : ((grabGone (unmapNested grabs) d' s).surface s).role = .popup := by
        rw [surface, ended.hides.blind Surface.hide_role s, kept]
        exact role
      refine .inr ⟨below, above, rfl, begun.pops_trans ?_, ?_⟩
      · refine (ended.pops stack grabbers.once higher).rest_trans ((idle_surfaceHide _ s).rest ?_)
        rw [windows_surfaceHide]
        exact WindowStack.hides_surfaceHide _ s
      · exact begun.restored_trans (ended.restored.surfaceHide role')
    · next hidden => exact .inl ⟨begun, fun _ => Bool.not_eq_true _ ▸ hidden⟩
  · refine .inl ⟨idle_unmapNested _ fun i below held => ?_, fun here => absurd here member⟩
    exact member ((grabbers.stack.mem_iff s).mpr ⟨i, below, held⟩)

theorem pops_popupGrabOnSurfaceGone (grabbers : d.windows.Grabbers l) (s : Nat) :
    (d.popupGrabOnSurfaceGone s = d ∧ s ∉ l) ∨
      ∃ below above, l = below ++ s :: above ∧
        d.Pops (d.popupGrabOnSurfaceGone s) (some s) below (s :: above) ∧
        d.Restored (d.popupGrabOnSurfaceGone s) := by
  by_cases member : s ∈ l
  · obtain ⟨below, above, rfl⟩ := List.append_of_mem member
    have higher : ∀ p ∈ above, (d.surface p).xdgPopup = true := fun p member =>
      grabbers.object p (List.mem_append_right _ (List.mem_cons_of_mem s member))
    have ended := ended_grabGone quiet_surfaceUnmap grabbers.stack grabbers.once higher
    have stack := grabbers.stack.gone WindowStack.silent_surfaceUnmap grabbers.once
    rw [← windows_grabGone windows_surfaceUnmap] at stack
    exact .inr ⟨below, above, rfl, ended.pops stack grabbers.once higher, ended.restored⟩
  · refine .inl ⟨grabGone_absent fun i below held => ?_, member⟩
    exact member ((grabbers.stack.mem_iff s).mpr ⟨i, below, held⟩)

/-- All popups that hold a grab are dismissed, the topmost first. -/
theorem dismissed_all : ∀ {d : Seat}, l.length ≤ maxPopupGrab → l.Nodup →
    (∀ (i : Fin maxPopupGrab) (inside : i.val < l.length), d.windows.grab i = some l[i.val]) →
    (∀ i : Fin maxPopupGrab, l.length ≤ i.val → (i.val : Int) < d.windows.grabCount →
      d.windows.grab i = none) →
    (∀ p ∈ l, (d.surface p).xdgPopup = true) →
    d.Dismissed ((WindowStack.grabsAbove { d.windows with grabCount := l.length }
      ((0 : Nat) - 1)).foldl
        (fun d i => dismiss surfaceUnmap (d.takeGrab i) (d.windows.grab i)) d) l := by
  -- Grabs above those of the list have been forgotten already.
  induction l using List.reverseRecOn with
  | nil =>
    intro d _ _ _ _ _
    rw [WindowStack.grabsAbove_top (by simp)]
    exact ⟨rfl, nofun, .refl _, rfl⟩
  | append_singleton l p ih =>
    intro d bounded once stored forgotten object
    rw [List.length_append, List.length_singleton] at bounded
    have inside : l.length < maxPopupGrab := by omega
    have held : d.windows.grab ⟨l.length, inside⟩ = some p := by
      rw [stored _ (by simp)]
      simp
    have other : ∀ (i : Fin maxPopupGrab) (below : i.val < l.length), l[i.val] ≠ p := by
      intro i below same
      have apart := List.disjoint_of_nodup_append once
      exact apart (same ▸ List.getElem_mem below) (List.mem_singleton.mpr rfl)
    rw [WindowStack.grabsAbove_succ inside (Nat.zero_le _) (by simp), List.foldl_cons, held]
    have taken : d.windows.Hides (d.takeGrab ⟨l.length, inside⟩).windows :=
      .of_eq rfl rfl rfl (le_refl _) fun _ => id
    have array : ∀ i : Fin maxPopupGrab, (d.takeGrab ⟨l.length, inside⟩).windows.grab i =
        if i.val = l.length then none else d.windows.grab i := by
      intro i
      show Function.update d.windows.grab _ none i = _
      rw [Function.update_apply]
      simp only [Fin.ext_iff]
    have absent : ∀ i : Fin maxPopupGrab,
        (i.val : Int) < (d.takeGrab ⟨l.length, inside⟩).windows.grabCount →
        (d.takeGrab ⟨l.length, inside⟩).windows.grab i ≠ some p := by
      intro i below
      rw [array]
      split
      · exact nofun
      · next away =>
        by_cases part : i.val < l.length
        · rw [stored i (by rw [List.length_append]; omega), List.getElem_append_left part]
          exact fun same => other i part (Option.some.inj same)
        · rw [forgotten i (by rw [List.length_append, List.length_singleton]; omega) below]
          exact nofun
    have here := object p (List.mem_append_right _ (List.mem_singleton.mpr rfl))
    have told := dismissed_dismiss quiet_surfaceUnmap
      (d := d.takeGrab ⟨l.length, inside⟩) here absent
    have first : d.Dismissed (dismiss surfaceUnmap (d.takeGrab ⟨l.length, inside⟩) (some p)) [p] :=
      ⟨told.done, told.hidden, taken.trans told.hides, told.prev⟩
    obtain ⟨array', count'⟩ := grab_dismiss quiet_surfaceUnmap absent
    generalize dismiss surfaceUnmap (d.takeGrab ⟨l.length, inside⟩) (some p) = d' at *
    have indices : WindowStack.grabsAbove { d.windows with grabCount := (l.length : Int) }
        ((0 : Nat) - 1) = WindowStack.grabsAbove { d'.windows with grabCount := (l.length : Int) }
          ((0 : Nat) - 1) := rfl
    refine first.trans ?_
    rw [indices]
    refine ih (by omega) (List.Nodup.of_append_left once) (fun i part => ?_) (fun i above below => ?_)
      fun q member => ?_
    · rw [array', array, if_neg (by omega), stored i (by rw [List.length_append]; omega),
        List.getElem_append_left part]
    · rw [array', array]
      split
      · rfl
      · refine forgotten i (by rw [List.length_append, List.length_singleton]; omega) ?_
        rw [count'] at below
        exact below
    · rw [surface, first.hides.blind (g := Surface.xdgPopup) (fun _ => rfl) q]
      exact object q (List.mem_append_left _ member)

theorem pops_popupGrabDismissAll (grabbers : d.windows.Grabbers l) (some : l ≠ []) :
    d.Pops d.popupGrabDismissAll none [] l ∧ d.Restored d.popupGrabDismissAll := by
  have count := grabbers.stack.count
  have left : d.windows.grabCount ≠ 0 := by
    rw [count]
    simpa using some
  have dismissed := dismissed_all grabbers.stack.bounded grabbers.once grabbers.stack.stored
    (fun i above below => absurd below (by omega)) grabbers.object
  have indices : WindowStack.grabsAbove { d.windows with grabCount := (l.length : Int) }
      ((0 : Nat) - 1) = d.windows.grabsAbove (-1) := by
    rw [← count]
    rfl
  rw [indices] at dismissed
  unfold popupGrabDismissAll
  rw [if_neg left]
  generalize (d.windows.grabsAbove (-1)).foldl _ d = d' at dismissed
  have windows : ({ d'.setGrabCount 0 with grabPrevFocus := none }.restoreFocus
      d.grabPrevFocus).windows = { d'.windows with grabCount := 0 } :=
    windows_restoreFocus { d'.setGrabCount 0 with grabPrevFocus := none } d.grabPrevFocus
  have done : ({ d'.setGrabCount 0 with grabPrevFocus := none }.restoreFocus
      d.grabPrevFocus).popupDone = d'.popupDone := by
    unfold restoreFocus
    split <;> rfl
  have restored := kbdFocus_restoreFocus (d := { d'.setGrabCount 0 with grabPrevFocus := none })
    d.grabPrevFocus rfl
  generalize ({ d'.setGrabCount 0 with grabPrevFocus := none } : Seat).restoreFocus
    d.grabPrevFocus = d'' at windows done restored
  have surface' : d''.windows.surface = d'.windows.surface := by rw [windows]
  have popup : ∀ o, (d''.surface o).xdgPopup = (d.surface o).xdgPopup := by
    intro o
    rw [surface, surface']
    exact dismissed.hides.blind (g := Surface.xdgPopup) (fun _ => rfl) o
  have none : d''.windows.grabCount = 0 := by rw [windows]
  refine ⟨⟨⟨WindowStack.grabStack_nil none, ?_, fun p member _ => ?_⟩, fun some => absurd rfl some,
    fun _ _ grabbed => absurd grabbed (by omega),
    fun p member _ => (popup p).trans (grabbers.object p member), popup, fun roles => ?_⟩, ?_⟩
  · rw [done, dismissed.done, List.filter_eq_self.mpr (by simp)]
  · rw [surface, surface']
    exact dismissed.hidden p member
  · rw [windows]
    exact (dismissed.hides.roles roles).of_eq rfl fun _ => id
  · intro open' _ p remembered
    rw [restored open', remembered]

end Seat

end Xios
