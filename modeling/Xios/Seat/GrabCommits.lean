import Xios.Seat.GrabLaws

/-! What commits do to grabs: only a popup that loses its buffer ends any. -/

namespace Xios

theorem WindowStack.surface_surfaceMap (st : WindowStack) {s o : Nat} (other : o ≠ s) :
    (st.surfaceMap s).surface o = st.surface o := by
  unfold surfaceMap
  split
  · rfl
  · exact modify_other _ _ other

theorem WindowStack.surface_xwmAdoptSurface (st : WindowStack) {s o : Nat}
    (overrideRedirect : Bool) (other : o ≠ s) :
    (st.xwmAdoptSurface s overrideRedirect).surface o = st.surface o := by
  unfold xwmAdoptSurface
  split
  · rfl
  · have kept := modify_other st (fun x => { x with
      isXwayland := true
      role := if overrideRedirect then .popup else .toplevel }) other
    generalize st.modify s _ = st' at kept
    dsimp only
    split
    · rw [surface_surfaceMap _ other, kept]
    · exact kept

theorem WindowStack.hidden_bufferCommit {st : WindowStack} {s o : Nat} (other : o ≠ s)
    (hidden : (st.surface o).mapped = false) :
    (((st.layerCommit s).bufferCommit s).surface o).mapped = false := by
  have answered : ((st.layerCommit s).surface o).mapped = false := by
    unfold layerCommit
    split
    · rw [modify_other _ _ other]
      exact hidden
    · exact hidden
  generalize st.layerCommit s = st' at answered
  unfold bufferCommit
  split
  · dsimp only
    split
    · split
      · rw [surface_surfaceMap _ other, modify_other _ _ other]
        exact answered
      · rw [modify_other _ _ other]
        exact answered
    · refine (hides_surfaceUnmap _ s).1.mapped ?_
      rw [modify_other _ _ other]
      exact answered
  · exact answered

theorem WindowStack.hidden_commitOwn (input : CommitInput) {st : WindowStack} {s o : Nat}
    (other : o ≠ s) (hidden : (st.surface o).mapped = false) :
    ((commitOwn input st s).surface o).mapped = false := by
  unfold commitOwn
  cases input.adopt s with
  | none => exact hidden_bufferCommit other hidden
  | some overrideRedirect =>
    refine hidden_bufferCommit other ?_
    rw [surface_xwmAdoptSurface _ _ other]
    exact hidden

namespace Seat

variable {d : Seat} {s : Nat}

theorem idle_surfaceMap (role : (d.surface s).role ≠ .none ∧ (d.surface s).role ≠ .lock) :
    d.Idle (d.surfaceMap s) := by
  have kept := WindowStack.keeps_surfaceMap role
  have grabs : (d.windows.surfaceMap s).grab = d.windows.grab ∧
      (d.windows.surfaceMap s).grabCount = d.windows.grabCount := by
    unfold WindowStack.surfaceMap
    split <;> exact ⟨rfl, rfl⟩
  have shown : d.Idle (d.withWindows (d.windows.surfaceMap s)) :=
    idle_withWindows grabs.1 grabs.2 kept.popup kept.roles
  have given : d.Idle ((d.withWindows (d.windows.surfaceMap s)).keyboardSetFocus (some s)) :=
    shown.trans (idle_keyboardSetFocus _ _)
  unfold surfaceMap
  split
  · exact .refl d
  · dsimp only
    split
    · exact given
    · exact given
    · split
      · exact given
      · exact shown
    · exact shown

theorem idle_xwmAdoptSurface (d : Seat) (s : Nat) (overrideRedirect : Bool) :
    d.Idle (d.xwmAdoptSurface s overrideRedirect) := by
  unfold xwmAdoptSurface
  split
  · exact .refl d
  · next free =>
    obtain ⟨kept, role⟩ := WindowStack.keeps_takeOver overrideRedirect free
    have adopted : d.Idle (d.withWindows (d.windows.modify s fun x => { x with
        isXwayland := true
        role := if overrideRedirect then .popup else .toplevel })) :=
      idle_withWindows rfl rfl kept.popup kept.roles
    generalize d.windows.modify s _ = st at adopted role ⊢
    dsimp only
    split
    · exact adopted.trans (idle_surfaceMap role)
    · exact adopted

theorem idle_modify {f : Surface → Surface} (popup : ∀ x, (f x).xdgPopup = x.xdgPopup)
    (roles : d.windows.Roles → (d.windows.modify s f).Roles) :
    d.Idle (d.withWindows (d.windows.modify s f)) := by
  refine idle_withWindows rfl rfl (fun o => ?_) roles
  by_cases same : o = s
  · rw [same, WindowStack.modify_same, popup]
  · rw [WindowStack.modify_other _ _ same]

theorem idle_release (d : Seat) (c : Nat) : d.Idle (d.withWindows (d.windows.release c)) :=
  idle_modify (fun _ => rfl) (WindowStack.keeps_release _ c).roles

theorem idle_commitPrepare (input : CommitInput) (d : Seat) (s : Nat) :
    d.Idle (commitPrepare input d s) := by
  have answered : ∀ d : Seat, d.Idle (d.withWindows (d.windows.layerCommit s)) := by
    intro d
    have kept := WindowStack.keeps_layerCommit d.windows s
    refine idle_withWindows ?_ ?_ kept.popup kept.roles <;>
    · unfold WindowStack.layerCommit
      split <;> rfl
  unfold commitPrepare
  cases input.adopt s with
  | none => exact answered d
  | some overrideRedirect =>
    exact (idle_xwmAdoptSurface d s overrideRedirect).trans (answered _)

variable {l : List Nat}

theorem pops_commitOwn (input : CommitInput) (roles : d.windows.Roles)
    (grabbers : d.windows.Grabbers l) (s : Nat) :
    d.Idle (commitOwn input d s) ∨
      ∃ below above, l = below ++ s :: above ∧
        d.Pops (commitOwn input d s) (some s) below (s :: above) ∧
        d.Restored (commitOwn input d s) := by
  have prepared := idle_commitPrepare input d s
  unfold commitOwn
  generalize commitPrepare input d s = d' at prepared
  unfold bufferCommit
  split
  · have replaced : d'.Idle (d'.withWindows (d'.windows.modify s fun x =>
        { x with
          pendingBuffer := false, bufferAttached := false
          currentBuffer := (d'.surface s).pendingBuffer })) :=
      idle_modify (fun _ => rfl) (WindowStack.keeps_replaceBuffer _ s _).roles
    have ready := prepared.trans replaced
    dsimp only
    split
    · split
      · next first =>
        exact .inl (ready.trans (idle_surfaceMap (WindowStack.role_of_mappable first.2)))
      · exact .inl ready
    · rcases pops_surfaceUnmap (ready.roles roles) (ready.grabbers grabbers) s with
        ⟨idle, -⟩ | ⟨below, above, split, pops, restored⟩
      · exact .inl (ready.trans idle)
      · exact .inr ⟨below, above, split, ready.pops_trans pops, ready.restored_trans restored⟩
  · exact .inl prepared

theorem rest_commitOwn (input : CommitInput) (roles : d.windows.Roles)
    (grabbers : d.windows.Grabbers l) (plain : (d.surface s).xdgPopup = false) :
    d.Rest (commitOwn input d s) := by
  have apart : s ∉ l := by
    intro member
    rw [grabbers.object s member] at plain
    cases plain
  refine ⟨?_, fun p object hidden => ?_⟩
  · rcases pops_commitOwn input roles grabbers s with idle | ⟨below, above, split, -, -⟩
    · exact idle
    · exact absurd (split ▸ List.mem_append_right _ (List.mem_cons_self ..)) apart
  · have other : p ≠ s := by
      rintro rfl
      rw [plain] at object
      cases object
    rw [surface, windows_commitOwn]
    exact WindowStack.hidden_commitOwn input other hidden

/-- A commit and those it sets off in its children pop only what they hide. -/
theorem rest_commitWith {apply : Seat → Nat → Seat}
    (applies : ∀ d s, d.windows.Roles → d.windows.Grabbers l → (d.surface s).xdgPopup = false →
      Rest d (apply d s)) (input : CommitInput) {own : Seat}
    (first : commitOwn input d s = own) (roles : own.windows.Roles)
    (grabbers : own.windows.Grabbers l) : own.Rest (commitWith apply input d s) := by
  have folded : ∀ (children : List Nat) (d : Seat), d.windows.Roles → d.windows.Grabbers l →
      d.Rest (children.foldl (fun d c =>
        if d.windows.waits s c then apply (d.withWindows (d.windows.release c)) c else d) d) := by
    intro children
    induction children with
    | nil => exact fun d _ _ => (Idle.refl d).rest (.refl _)
    | cons c children ih =>
      intro d roles grabbers
      have one : d.Rest (if d.windows.waits s c then
          apply (d.withWindows (d.windows.release c)) c else d) := by
        split
        · next waits =>
          have role : (d.windows.surface c).role = .subsurface := by
            simp only [WindowStack.waits, decide_eq_true_eq] at waits
            exact waits.1
          have released : d.Rest (d.withWindows (d.windows.release c)) := by
            refine ⟨idle_release d c, fun p _ hidden => ?_⟩
            rw [surface, windows_withWindows, WindowStack.release]
            by_cases same : p = c
            · subst same
              rw [WindowStack.modify_same]
              exact hidden
            · rw [WindowStack.modify_other _ _ same]
              exact hidden
          refine released.trans (applies _ c (released.roles roles) (released.grabbers grabbers) ?_)
          -- Only the commits of subsurfaces wait.
          rw [released.popup c]
          exact (roles.proper c).popup_of_role (by rw [role]; decide)
        · exact (Idle.refl d).rest (.refl _)
      exact one.trans (ih _ (one.roles roles) (one.grabbers grabbers))
  unfold commitWith
  rw [first]
  split
  · exact folded _ own roles grabbers
  · exact (Idle.refl own).rest (.refl _)

theorem rest_commitNested (input : CommitInput) (waiting : Nat) (d : Seat) (s : Nat)
    (roles : d.windows.Roles) (grabbers : d.windows.Grabbers l)
    (plain : (d.surface s).xdgPopup = false) : d.Rest (commitNested input waiting d s) := by
  induction waiting generalizing d s with
  | zero =>
    have first := rest_commitOwn input roles grabbers plain
    refine first.trans (rest_commitWith (fun d _ _ _ _ => (Idle.refl d).rest (.refl _)) input rfl
      (first.roles roles) (first.grabbers grabbers))
  | succ waiting ih =>
    have first := rest_commitOwn input roles grabbers plain
    exact first.trans (rest_commitWith ih input rfl (first.roles roles) (first.grabbers grabbers))

end Seat

end Xios
