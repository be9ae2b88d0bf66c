import Xios.Seat.GrabSteps

/-! Over all histories, popups that hold a grab are chained, and the topmost has the keyboard. -/

namespace Xios

namespace Seat

/-- A popup that holds a grab above another one is not given another parent. -/
def Attached (d : Seat) : Event → Prop
  | .window event => d.windows.Attached event
  | _ => True

instance decidableAttached (d : Seat) (event : Event) : Decidable (d.Attached event) := by
  unfold Attached
  induction event using Event.casesOn <;> infer_instance

theorem keeps_pressFocus (d : Seat) (hit : Nat) : d.windows.Keeps (d.pressFocus hit).windows := by
  unfold pressFocus
  split
  · exact .refl _
  · exact WindowStack.keeps_surfaceRaise _ _

theorem keeps_dismissOutside (d : Seat) (hit : Option Nat) :
    d.windows.Keeps (d.dismissOutside hit).windows := by
  unfold dismissOutside
  split
  · rw [windows_popupGrabDismissAll]
    exact WindowStack.keeps_popupGrabDismissAll _
  · exact .refl _

/-- No event breaks the chain of the popups that hold a grab. -/
theorem grabs_next {d : Seat} (grabs : d.windows.Grabs) (event : Event)
    (allowed : d.Allowed event) (attached : d.Attached event) : (d.next event).windows.Grabs := by
  cases event with
  | window event =>
    rw [next, windows_nextWindow]
    exact grabs.next event allowed.2 attached
  | getLockSurface l s =>
    rw [next, slockGetLockSurface]
    split
    · exact grabs.next (.getLockSurface s true) allowed trivial
    · exact grabs
  -- A press outside ends the grabs, and any press may raise a window.
  | buttonDown =>
    rw [next, handleButtonDown]
    split
    · exact grabs
    · have dismissed := keeps_dismissOutside d d.ptrFocus
      dsimp only
      split
      · exact grabs.of_keeps (dismissed.trans (keeps_pressFocus _ _))
      · exact grabs.of_keeps dismissed
  | touchDown contains room =>
    have dismissed := keeps_dismissOutside d (d.surfaceAt contains)
    rw [next, handleTouchDown]
    split
    · split
      · exact grabs.of_keeps (dismissed.trans (keeps_pressFocus _ _))
      · exact grabs.of_keeps dismissed
    · exact grabs.of_keeps dismissed
  | pencilDown contains =>
    rw [next, handlePencilDown]
    split
    · exact grabs.of_keeps (keeps_pressFocus d _)
    · exact grabs
  | nativeActivate s | activate s =>
    exact grabs.of_keeps (WindowStack.keeps_surfaceRaise _ s)
  | restore s =>
    have kept : (d.surfaceSetMinimized s false).windows.Grabs := by
      rw [windows_surfaceSetMinimized]
      exact grabs
    exact kept.of_keeps (WindowStack.keeps_surfaceRaise _ s)
  | minimize s minimized =>
    rw [next, windows_surfaceSetMinimized]
    exact grabs
  -- The others do not change the windows.
  | setKbd s wanted =>
    rw [next, layerSurfaceSetKbd]
    split <;> exact grabs
  | lock l =>
    rw [next, slockMgrLock]
    split
    · exact grabs
    · rw [windows_dndEnd]
      exact grabs
  | unlock l =>
    rw [next, slockUnlockAndDestroy]
    split <;> exact grabs
  | lockDestroyed l =>
    rw [next, slockResourceDestroy]
    split <;> exact grabs
  | motion contains held =>
    rw [next, handleMotion]
    split <;> exact grabs
  | buttonUp drops =>
    rw [next, handleButtonUp]
    split
    · split
      · rw [windows_dndEnd]
        exact grabs
      · exact grabs
    · exact grabs
  | scrollOn s =>
    rw [next]
    split <;> exact grabs
  | keyOn s => exact grabs
  | nativeDeactivate s =>
    rw [next]
    split <;> exact grabs
  | startDrag origin icon =>
    rw [next, dataDeviceStartDrag]
    split <;> exact grabs
  | endDrag =>
    rw [next, windows_dndEnd]
    exact grabs
  | interactiveBegin s =>
    rw [next, Seat.interactiveBegin]
    split <;> exact grabs

/-- The popups that hold a grab are in order. -/
structure GrabOrder (d : Seat) : Prop where
  -- They are different, at most sixteen, live popups, and each belongs to the one below it.
  stack : ∃ l, d.windows.GrabStack l ∧ l.Nodup ∧
    (∀ p ∈ l, p ∈ d.windows.surfaces ∧ (d.surface p).role = .popup ∧
      (d.surface p).xdgPopup = true) ∧
    l.IsChain fun below above => (d.surface above).parent = some below
  -- While the session is not locked, the topmost one has the keyboard.
  keyboard : d.locked = false → 0 < d.windows.grabCount → d.kbdFocus = d.windows.topGrab

/-- Over all histories, popups that hold a grab are in order, and grabs end in order. -/
theorem grabs_in_order {trace : List Event} {d : Seat}
    (run : (machine.restrict Attached).Run trace d) :
    d.GrabOrder ∧ ∀ event, d.Allowed event → d.GrabStep event := by
  have holds : d.windows.Grabs ∧ d.Pinned := by
    refine run.invariant (fun _ d => d.windows.Grabs ∧ d.Pinned) ?_ ?_
    · rintro _ rfl
      refine ⟨⟨⟨fun s => ?_, nofun⟩, ?_, [], ?_⟩, nofun⟩
      · constructor <;> simp
      · intro s n positive _ cycle
        obtain ⟨n, rfl⟩ := Nat.exists_eq_succ_of_ne_zero positive.ne'
        have gone : ({} : WindowStack).climb^[n + 1] (some s) = none := by
          rw [Function.iterate_succ_apply]
          exact WindowStack.climb_none _ n
        rw [cycle.eq] at gone
        cases gone
      · exact ⟨WindowStack.grabStack_nil rfl, List.nodup_nil, nofun, List.isChain_nil⟩
    · rintro _ d event ⟨grabs, pinned⟩ ⟨allowed, attached⟩
      exact ⟨grabs_next grabs event allowed attached,
        (grabStep_next grabs event allowed).pinned pinned⟩
  obtain ⟨grabs, pinned⟩ := holds
  obtain ⟨l, chained⟩ := grabs.chained
  refine ⟨⟨⟨l, chained.stack, chained.once, fun p member => ?_, chained.chain⟩, pinned⟩,
    fun event allowed => grabStep_next grabs event allowed⟩
  obtain ⟨exists', object⟩ := chained.live p member
  exact ⟨exists', ((grabs.roles.proper p).popup object).1, object⟩

def popupScript : List Event :=
  [.create 1, .getToplevel 1, .attach 1 true, .commit 1 {}, .create 2, .getPopup 2 (some 1),
    .grab 2, .attach 2 true, .commit 2 {}, .create 3, .getPopup 3 (some 2), .grab 3,
    .attach 3 true, .commit 3 {}].map .window

theorem grabs_in_order_destroyed :
    (popupScript.foldl next {}).kbdFocus = some 3 ∧
      (popupScript.foldl next {}).GrabOrder ∧
      (popupScript.foldl next {}).GrabStep (.window (.popupDestroyed 2)) ∧
      ((popupScript.foldl next {}).next (.window (.popupDestroyed 2))).popupDone = [3] ∧
      ((popupScript.foldl next {}).next (.window (.popupDestroyed 2))).kbdFocus = some 1 := by
  have run : (machine.restrict Attached).Run popupScript.reverse (popupScript.foldl next {}) :=
    Machine.Run.of_script (m := machine.restrict Attached) rfl popupScript (by decide +kernel)
  obtain ⟨order, step⟩ := grabs_in_order run
  exact ⟨by decide +kernel, order, step _ (by decide +kernel), by decide +kernel,
    by decide +kernel⟩

def lockedGrabScript : List Event :=
  popupScript ++ [.lock 7, .window (.create 4), .getLockSurface 7 4]

def adoptedScript : List Event :=
  popupScript ++ [.window (.create 4), .window (.getLayerSurface 4 2#32),
    .window (.layerGetPopup 4 3)]

def orphanedScript : List Event :=
  [.create 5, .getToplevel 5, .attach 5 true, .commit 5 {}].map .window ++ popupScript ++
    [.window (.destroy 1)]

/-- The lock, a panel and a destroyed window each break what would be expected of grabs. -/
theorem not_grabs_in_order :
    (¬∀ trace d event, machine.Run trace d → d.Allowed event → d.windows.grabCount ≠ 0 →
      (d.grabsSettled event).windows.grabCount = 0 → ∀ p, d.grabPrevFocus = some p →
      ((d.grabsSettled event).surface p).mapped = true →
      (d.grabsSettled event).kbdFocus = some p) ∧
    (¬∀ trace d l, machine.Run trace d → d.windows.GrabStack l →
      l.IsChain fun below above => (d.surface above).parent = some below) ∧
    ∃ trace d, machine.Run trace d ∧ d.windows.grabCount = 2 ∧ d.grabPrevFocus = none ∧
      (d.next (.window (.popupDestroyed 2))).windows.grabCount = 0 ∧
      (d.next (.window (.popupDestroyed 2))).kbdFocus = none ∧
      (d.next (.window (.popupDestroyed 2))).topmostFocusable = some 5 := by
  have locked : machine.Run lockedGrabScript.reverse (lockedGrabScript.foldl next {}) :=
    Machine.Run.of_script (m := machine) rfl lockedGrabScript (by decide +kernel)
  have adopted : machine.Run adoptedScript.reverse (adoptedScript.foldl next {}) :=
    Machine.Run.of_script (m := machine) rfl adoptedScript (by decide +kernel)
  have orphaned : machine.Run orphanedScript.reverse (orphanedScript.foldl next {}) :=
    Machine.Run.of_script (m := machine) rfl orphanedScript (by decide +kernel)
  refine ⟨fun back => ?_, fun chained => ?_, _, _, orphaned, by decide +kernel⟩
  · have keyboard := back _ _ (.window (.popupDestroyed 2)) locked (by decide +kernel)
      (by decide +kernel) (by decide +kernel) 1 (by decide +kernel) (by decide +kernel)
    revert keyboard
    decide +kernel
  · have chain := chained _ _ [2, 3] adopted ⟨by decide +kernel, by decide, by decide +kernel⟩
    revert chain
    decide +kernel

end Seat

end Xios
