import Xios.Seat.Focus
import Xios.Windows.Keeps

/-! Below the keyboard and the pointer of a seat the windows change as they do on their own. -/

namespace Xios

namespace Seat

@[simp]
theorem windows_withWindows (d : Seat) (st : WindowStack) : (d.withWindows st).windows = st :=
  rfl

@[simp]
theorem windows_keyboardSetFocus (d : Seat) (s : Option Nat) :
    (d.keyboardSetFocus s).windows = d.windows :=
  rfl

@[simp]
theorem windows_dndEnd (d : Seat) : d.dndEnd.windows = d.windows := by
  unfold dndEnd
  split <;> rfl

@[simp]
theorem windows_restoreFocus (d : Seat) (prev : Option Nat) :
    (d.restoreFocus prev).windows = d.windows := by
  unfold restoreFocus
  split <;> rfl

@[simp]
theorem windows_grabPopped (d : Seat) : d.grabPopped.windows = d.windows := by
  unfold grabPopped
  split
  · exact windows_restoreFocus _ _
  · split <;> rfl

@[simp]
theorem windows_surfaceMap (d : Seat) (s : Nat) :
    (d.surfaceMap s).windows = d.windows.surfaceMap s := by
  unfold surfaceMap
  by_cases kept : (d.surface s).mapped = true ∨ maxSurfaces ≤ d.windows.mapped.length
  · rw [if_pos kept, WindowStack.surfaceMap, if_pos kept]
  · rw [if_neg kept]
    split
    · rfl
    · rfl
    · split <;> rfl
    · rfl

theorem windows_gone (d : Seat) (s : Nat) :
    (((d.dragGone s).movingGone s).lockSurfaceGone s).windows =
      if d.windows.lockSurface = some s then { d.windows with lockSurface := none }
      else d.windows := by
  have dragged : (d.dragGone s).windows = d.windows := by
    unfold dragGone
    split
    · exact windows_dndEnd d
    · rfl
  have moved : ((d.dragGone s).movingGone s).windows = d.windows := by
    rw [← dragged, movingGone]
    split <;> rfl
  unfold lockSurfaceGone
  rw [moved]
  split
  · dsimp only
    split <;> rfl
  · exact moved

@[simp]
theorem windows_pointerGone (d : Seat) (s : Nat) : (d.pointerGone s).windows = d.windows := by
  unfold pointerGone
  split <;> rfl

@[simp]
theorem windows_keyboardGone (d : Seat) (s : Nat) : (d.keyboardGone s).windows = d.windows := by
  unfold keyboardGone
  split <;> rfl

@[simp]
theorem windows_surfaceHide (d : Seat) (s : Nat) :
    (d.surfaceHide s).windows = d.windows.surfaceHide s := by
  unfold surfaceHide
  rw [windows_keyboardGone, windows_pointerGone, windows_withWindows]

theorem windows_unmapWith {gone : Seat → Nat → Seat} {gone' : WindowStack → Nat → WindowStack}
    (same : ∀ d s, (gone d s).windows = gone' d.windows s) (d : Seat) (s : Nat) :
    (unmapWith gone d s).windows = WindowStack.unmapWith gone' d.windows s := by
  have start := d.windows_gone s
  unfold unmapWith WindowStack.unmapWith
  generalize ((d.dragGone s).movingGone s).lockSurfaceGone s = d' at start
  dsimp only [surface]
  rw [← start]
  split
  · rw [windows_surfaceHide]
    congr 1
    split
    · exact same d' s
    · rfl
  · rfl

variable {unmap : Seat → Nat → Seat} {unmap' : WindowStack → Nat → WindowStack}

theorem windows_dismiss (same : ∀ d s, (unmap d s).windows = unmap' d.windows s) (d : Seat)
    (p : Option Nat) : (dismiss unmap d p).windows = WindowStack.dismiss unmap' d.windows p := by
  cases p with
  | none => rfl
  | some p =>
    unfold dismiss WindowStack.dismiss surface
    dsimp only
    split
    · exact same _ _
    · rfl

theorem windows_popGrab (same : ∀ d s, (unmap d s).windows = unmap' d.windows s) (d : Seat)
    (i : Fin maxPopupGrab) : (popGrab unmap d i).windows = WindowStack.popGrab unmap' d.windows i :=
  windows_dismiss same _ _

theorem windows_foldl {β : Type*} {step : Seat → β → Seat} (step' : WindowStack → β → WindowStack)
    (same : ∀ d b, (step d b).windows = step' d.windows b) (l : List β) (d : Seat) :
    (l.foldl step d).windows = l.foldl step' d.windows := by
  induction l generalizing d with
  | nil => rfl
  | cons b l ih => rw [List.foldl_cons, List.foldl_cons, ih, same]

theorem windows_grabGone (same : ∀ d s, (unmap d s).windows = unmap' d.windows s) (d : Seat)
    (s : Nat) : (grabGone unmap d s).windows = WindowStack.grabGone unmap' d.windows s := by
  unfold grabGone WindowStack.grabGone
  cases (List.finRange maxPopupGrab).find? fun i : Fin maxPopupGrab =>
      (i.val : Int) < d.windows.grabCount ∧ d.windows.grab i = some s with
  | none => rfl
  | some index =>
    have popped := windows_foldl (WindowStack.popGrab unmap') (windows_popGrab same)
      (d.windows.grabsAbove index.val) d
    rw [windows_grabPopped]
    dsimp only [setGrabCount, takeGrab, withWindows, WindowStack.takeGrab]
    rw [popped]

theorem windows_unmapNested (grabs : Nat) (d : Seat) (s : Nat) :
    (unmapNested grabs d s).windows = WindowStack.unmapNested grabs d.windows s := by
  induction grabs generalizing d s with
  | zero => exact windows_unmapWith (fun _ _ => rfl) d s
  | succ grabs ih => exact windows_unmapWith (windows_grabGone ih) d s

@[simp]
theorem windows_surfaceUnmap (d : Seat) (s : Nat) :
    (d.surfaceUnmap s).windows = d.windows.surfaceUnmap s :=
  windows_unmapNested _ d s

@[simp]
theorem windows_popupGrabOnSurfaceGone (d : Seat) (s : Nat) :
    (d.popupGrabOnSurfaceGone s).windows = d.windows.popupGrabOnSurfaceGone s :=
  windows_grabGone windows_surfaceUnmap d s

@[simp]
theorem windows_popupGrabDismissAll (d : Seat) :
    d.popupGrabDismissAll.windows = d.windows.popupGrabDismissAll := by
  unfold popupGrabDismissAll WindowStack.popupGrabDismissAll
  split
  · rfl
  · dsimp only
    rw [windows_restoreFocus]
    have step : ∀ (d : Seat) (i : Fin maxPopupGrab),
        (dismiss surfaceUnmap (d.takeGrab i) (d.windows.grab i)).windows =
          WindowStack.dismiss WindowStack.surfaceUnmap (d.windows.takeGrab i).2
            (d.windows.takeGrab i).1 := fun d i => windows_dismiss windows_surfaceUnmap _ _
    have dismissed := windows_foldl
      (fun st i => WindowStack.dismiss WindowStack.surfaceUnmap (st.takeGrab i).2
        (st.takeGrab i).1) step (d.windows.grabsAbove (-1)) d
    dsimp only [setGrabCount, withWindows]
    rw [dismissed]

@[simp]
theorem windows_popupGrab (d : Seat) (s : Nat) :
    (d.popupGrab s).windows = d.windows.popupGrab s := by
  unfold popupGrab
  split
  · next refused => rw [WindowStack.popupGrab, if_pos refused]
  · rfl

@[simp]
theorem windows_xwmAdoptSurface (d : Seat) (s : Nat) (overrideRedirect : Bool) :
    (d.xwmAdoptSurface s overrideRedirect).windows =
      d.windows.xwmAdoptSurface s overrideRedirect := by
  unfold xwmAdoptSurface WindowStack.xwmAdoptSurface
  split
  · rfl
  · dsimp only
    rw [apply_ite Seat.windows, windows_surfaceMap]
    rfl

@[simp]
theorem windows_bufferCommit (d : Seat) (s : Nat) :
    (d.bufferCommit s).windows = d.windows.bufferCommit s := by
  unfold bufferCommit WindowStack.bufferCommit
  split
  · dsimp only
    split
    · rw [apply_ite Seat.windows, windows_surfaceMap]
      rfl
    · rw [windows_surfaceUnmap, windows_withWindows]
  · rfl

@[simp]
theorem windows_commitOwn (input : CommitInput) (d : Seat) (s : Nat) :
    (commitOwn input d s).windows = WindowStack.commitOwn input d.windows s := by
  unfold commitOwn commitPrepare WindowStack.commitOwn
  rw [windows_bufferCommit, windows_withWindows]
  cases input.adopt s with
  | none => rfl
  | some overrideRedirect =>
    rw [windows_xwmAdoptSurface]

theorem windows_commitWith {apply : Seat → Nat → Seat} {apply' : WindowStack → Nat → WindowStack}
    (same : ∀ d s, (apply d s).windows = apply' d.windows s) (input : CommitInput) (d : Seat)
    (s : Nat) : (commitWith apply input d s).windows =
      WindowStack.commitWith apply' input d.windows s := by
  rw [WindowStack.commitWith_eq, ← windows_commitOwn]
  unfold commitWith
  split
  · refine windows_foldl (fun st c =>
      if st.waits s c then apply' (st.release c) c else st) (fun d c => ?_) _ _
    split
    · rw [same, windows_withWindows]
    · rfl
  · rfl

theorem windows_commitNested (input : CommitInput) (waiting : Nat) (d : Seat) (s : Nat) :
    (commitNested input waiting d s).windows =
      WindowStack.commitNested input waiting d.windows s := by
  induction waiting generalizing d s with
  | zero => exact windows_commitWith (fun _ _ => rfl) input d s
  | succ waiting ih => exact windows_commitWith ih input d s

@[simp]
theorem windows_surfaceSetMinimized (d : Seat) (s : Nat) (minimized : Bool) :
    (d.surfaceSetMinimized s minimized).windows = d.windows := by
  unfold surfaceSetMinimized
  dsimp only
  split
  · rfl
  · split <;> rfl

/-- The seat leaves the windows as the stack without a seat does. -/
theorem windows_nextWindow (d : Seat) (event : WindowStack.Event) :
    (d.nextWindow event).windows = d.windows.next event := by
  cases event with
  | destroy s =>
    simp only [nextWindow, surfaceResourceDestroy, WindowStack.next,
      WindowStack.surfaceResourceDestroy]
    split <;> simp
  | commit s input =>
    simp only [nextWindow, surfaceCommit, surfaceCommitApply, WindowStack.next]
    split
    · rfl
    · next applied =>
      rw [windows_commitNested, WindowStack.surfaceCommit, if_neg applied]
      rfl
  | bufferDestroyed s =>
    simp only [nextWindow, onBufferDestroyed, WindowStack.next, WindowStack.onBufferDestroyed,
      surface]
    split <;> simp
  | setDesync s input =>
    show (d.subsurfaceSetDesync s input).windows = d.windows.subsurfaceSetDesync s input
    unfold subsurfaceSetDesync surfaceCommitApply
    rw [apply_ite Seat.windows, windows_commitNested]
    rfl
  | layerDestroyed s =>
    simp only [nextWindow, layerSurfaceResDestroy, WindowStack.next,
      WindowStack.layerSurfaceResDestroy, surface]
    split <;> simp
  | lockSurfaceDestroyed s =>
    simp only [nextWindow, slockSurfaceResourceDestroy, WindowStack.next]
    split <;> simp
  | unadopt s =>
    simp only [nextWindow, xwmUnadoptSurface, WindowStack.next, WindowStack.xwmUnadoptSurface,
      surface]
    split <;> simp
  | grab s => exact d.windows_popupGrab s
  | adopt s overrideRedirect => exact d.windows_xwmAdoptSurface s overrideRedirect
  | toplevelDestroyed s | popupDestroyed s | subsurfaceDestroyed s =>
    simp [nextWindow, toplevelResourceDestroy, popupResourceDestroy, subsurfaceResourceDestroy,
      WindowStack.next, WindowStack.toplevelResourceDestroy, WindowStack.popupResourceDestroy,
      WindowStack.subsurfaceResourceDestroy]
  | _ => rfl

/-- What is left to do once a surface that is destroyed has been hidden. -/
def bury (d : Seat) (s : Nat) : Seat :=
  let d := (d.withWindows ((d.windows.modify s fun x =>
    { x with subsurface := none, layer := none }).orphan s)).popupGrabOnSurfaceGone s
  let d := if d.grabPrevFocus = some s then { d with grabPrevFocus := none } else d
  let d := (d.pointerGone s).keyboardGone s
  { d.withWindows (d.windows.modify s fun _ => {}) with
    minimized := Function.update d.minimized s false
    interactive := Function.update d.interactive s false }

theorem surfaceResourceDestroy_eq (d : Seat) (s : Nat) :
    d.surfaceResourceDestroy s =
      ((d.withWindows { d.windows with surfaces := d.windows.surfaces.erase s }).surfaceUnmap
        s).bury s :=
  rfl

end Seat

end Xios
