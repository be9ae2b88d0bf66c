import Xios.Windows.Grabs
import Xios.Windows.RequestsLaws

/-! Surfaces belong to each other as in a forest, unless a walk up to the root is cut short. -/

namespace Xios

namespace WindowStack

def ascend (st : WindowStack) : Option Nat → Option Nat
  | some s => (st.surface s).parent
  | none => none

/-- Surfaces belong to each other without a circle, and only live ones do. -/
structure ParentForest (st : WindowStack) : Prop where
  -- No surface belongs to itself, through however many others.
  acyclic : ∀ s n, 0 < n → ¬Function.IsPeriodicPt st.ascend n (some s)
  -- A surface that belongs to another one is live, and so is the other one.
  live : ∀ s p, (st.surface s).parent = some p → s ∈ st.surfaces ∧ p ∈ st.surfaces

theorem ascend_none (st : WindowStack) (k : Nat) : st.ascend^[k] none = none := by
  induction k with
  | zero => rfl
  | succ k ih => rw [Function.iterate_succ_apply, ascend, ih]

variable {st : WindowStack} {s : Nat}

theorem surfaceIsAncestorOf_iff {depth : Nat} {o : Option Nat} :
    st.surfaceIsAncestorOf s depth o = true ↔ ∃ k < depth, st.ascend^[k] o = some s := by
  induction depth generalizing o with
  | zero => cases o <;> simp [surfaceIsAncestorOf]
  | succ depth ih =>
    cases o with
    | none => simp [surfaceIsAncestorOf, ascend_none]
    | some x =>
      rw [surfaceIsAncestorOf, Bool.or_eq_true, decide_eq_true_eq, ih]
      constructor
      · rintro (rfl | ⟨k, near, reached⟩)
        · exact ⟨0, by omega, rfl⟩
        · exact ⟨k + 1, by omega, reached⟩
      · rintro ⟨k, near, reached⟩
        cases k with
        | zero => exact .inl (Option.some.inj reached)
        | succ k => exact .inr ⟨k, by omega, reached⟩

/-- Nothing changes about which surfaces there are and whom they belong to. -/
structure SameParents (st st' : WindowStack) : Prop where
  -- No surface comes or goes.
  surfaces : st'.surfaces = st.surfaces
  -- Every surface belongs to the same one.
  parent : ∀ o, (st'.surface o).parent = (st.surface o).parent

/-- A live surface is made to belong to a live one, or to none. -/
structure Relinks (st st' : WindowStack) (s : Nat) (parent : Option Nat) : Prop where
  -- No surface comes or goes.
  surfaces : st'.surfaces = st.surfaces
  -- The surface and the one it will belong to are live.
  child : s ∈ st.surfaces
  target : ∀ p, parent = some p → p ∈ st.surfaces
  -- Only that surface is affected.
  moved : (st'.surface s).parent = parent
  other : ∀ o, o ≠ s → (st'.surface o).parent = (st.surface o).parent

variable {st' : WindowStack}

theorem SameParents.trans {st'' : WindowStack} (first : st.SameParents st')
    (second : st'.SameParents st'') : st.SameParents st'' :=
  ⟨second.surfaces.trans first.surfaces, fun o => (second.parent o).trans (first.parent o)⟩

theorem Keeps.sameParents (keeps : st.Keeps st') : st.SameParents st' :=
  ⟨keeps.surfaces, keeps.parent⟩

variable {f : Surface → Surface}

theorem sameParents_modify (parent : ∀ x, (f x).parent = x.parent) :
    st.SameParents (st.modify s f) := by
  refine ⟨rfl, fun o => ?_⟩
  by_cases same : o = s
  · rw [same, modify_same, parent]
  · rw [modify_other _ _ same]

theorem ParentForest.same (forest : st.ParentForest) (same : st.SameParents st') :
    st'.ParentForest := by
  have path : st'.ascend = st.ascend := by
    funext o
    cases o with
    | none => rfl
    | some o => exact same.parent o
  constructor
  · intro s n positive
    rw [path]
    exact forest.acyclic s n positive
  · intro s p link
    rw [same.parent] at link
    rw [same.surfaces]
    exact forest.live s p link

theorem ParentForest.relink {parent : Option Nat} (forest : st.ParentForest)
    (relinks : st.Relinks st' s parent) :
    st'.ParentForest ↔ ∀ k, st.ascend^[k] parent ≠ some s := by
  have path : st'.ascend = Function.update st.ascend (some s) parent := by
    funext o
    cases o with
    | none => rfl
    | some o =>
      by_cases same : o = s
      · rw [same, Function.update_self]
        exact relinks.moved
      · rw [Function.update_of_ne fun equal => same (Option.some.inj equal)]
        exact relinks.other o same
  constructor
  · intro after k back
    obtain ⟨n, positive, cycle⟩ := Cycle.exists_isPeriodicPt_update back
    rw [← path] at cycle
    exact after.acyclic s n positive cycle
  · intro apart
    constructor
    · intro o n positive cycle
      rw [path] at cycle
      rcases Cycle.isPeriodicPt_update positive cycle with before | ⟨k, -, back⟩
      · exact forest.acyclic o n positive before
      · exact apart k back
    · intro o p link
      rw [relinks.surfaces]
      by_cases same : o = s
      · rw [same, relinks.moved] at link
        exact ⟨same ▸ relinks.child, relinks.target p link⟩
      · rw [relinks.other o same] at link
        exact forest.live o p link

theorem ParentForest.cut (forest : st.ParentForest) (relinks : st.Relinks st' s none) :
    st'.ParentForest := by
  refine (forest.relink relinks).mpr fun k back => ?_
  rw [ascend_none] at back
  cases back

theorem relinks_modify {parent : Option Nat} (child : s ∈ st.surfaces)
    (target : ∀ p, parent = some p → p ∈ st.surfaces) (moved : (f (st.surface s)).parent = parent) :
    st.Relinks (st.modify s f) s parent := by
  refine ⟨rfl, child, target, ?_, fun o other => ?_⟩
  · rw [modify_same, moved]
  · rw [modify_other _ _ other]

theorem parent_orphan (st : WindowStack) (s o : Nat) :
    ((st.orphan s).surface o).parent =
      if o ∈ st.surfaces ∧ (st.surface o).parent = some s then none
      else (st.surface o).parent := by
  rw [orphan]
  dsimp only
  split <;> rfl

theorem parent_surfaceResourceDestroy (st : WindowStack) (s o : Nat) :
    ((st.surfaceResourceDestroy s).surface o).parent =
      if o = s ∨ o ∈ st.surfaces.erase s ∧ (st.surface o).parent = some s then none
      else (st.surface o).parent := by
  have hidden := keeps_surfaceUnmap { st with surfaces := st.surfaces.erase s } s
  unfold surfaceResourceDestroy
  generalize WindowStack.surfaceUnmap _ s = st' at hidden
  by_cases same : o = s
  · rw [same, modify_same, if_pos (.inl rfl)]
  · rw [modify_other _ _ same, (keeps_popupGrabOnSurfaceGone _ s).parent, parent_orphan,
      modify_other _ _ same, hidden.parent o]
    change (if o ∈ st'.surfaces ∧ _ then _ else _ : Option Nat) = _
    simp only [hidden.surfaces, same, false_or]

theorem ParentForest.surfaceResourceDestroy (forest : st.ParentForest) (s : Nat) :
    (st.surfaceResourceDestroy s).ParentForest := by
  have parents := parent_surfaceResourceDestroy st s
  have surfaces := (surfaceResourceDestroy_rest st s).1
  generalize st.surfaceResourceDestroy s = st' at *
  constructor
  · intro o n positive cycle
    refine forest.acyclic o n positive (Cycle.isPeriodicPt_of_drop (fun x => ?_) rfl cycle)
    cases x with
    | none => exact .inl rfl
    | some x =>
      rw [ascend, parents x]
      split
      · exact .inr rfl
      · exact .inl rfl
  · intro o p link
    rw [parents o] at link
    split at link
    · cases link
    · next kept =>
      obtain ⟨child, target⟩ := forest.live o p link
      simp only [not_or, not_and] at kept
      have here : o ∈ st.surfaces.erase s := (List.mem_erase_of_ne kept.1).mpr child
      have other : p ≠ s := fun same => kept.2 here (same ▸ link)
      rw [surfaces]
      exact ⟨here, (List.mem_erase_of_ne other).mpr target⟩

/-- The walk up from a surface does not stop before it has come to another one above it. -/
def WalkSeen (st : WindowStack) (s p : Nat) : Prop :=
  ∀ k, maxSurfaces ≤ k → st.ascend^[k] (some p) ≠ some s

/-- Which requests for a parent close no circle that goes unnoticed. -/
def Unbroken (st : WindowStack) : Event → Prop
  | .setParent s (some p) => st.WalkSeen s p
  | .getPopup s (some p) => st.xsRoleTaken s = false → st.WalkSeen s p
  | .getSubsurface s p =>
    (st.surface s).role = .none → (st.surface s).subsurface = none → st.WalkSeen s p
  -- There is no walk at all.
  | .layerGetPopup s popup =>
    (st.surface popup).role = .popup → ∀ k, st.ascend^[k] (some s) ≠ some popup
  | _ => True

variable {p : Nat}

theorem ParentForest.checked (forest : st.ParentForest) (relinks : st.Relinks st' s (some p)) :
    (if st.surfaceIsAncestorOf s maxSurfaces (some p) then st else st').ParentForest ↔
      st.WalkSeen s p := by
  split
  · next found =>
    obtain ⟨j, near, here⟩ := surfaceIsAncestorOf_iff.mp found
    refine iff_of_true forest fun k far => ?_
    exact Cycle.iterate_ne (forest.acyclic s) (by omega) here
  · next missed =>
    rw [forest.relink relinks]
    constructor
    · exact fun apart k _ => apart k
    · intro seen k back
      rcases Nat.lt_or_ge k maxSurfaces with near | far
      · exact missed (surfaceIsAncestorOf_iff.mpr ⟨k, near, back⟩)
      · exact seen k far back

theorem ParentForest.xtSetParent_iff (forest : st.ParentForest) (child : s ∈ st.surfaces)
    (target : p ∈ st.surfaces) : (st.xtSetParent s (some p)).ParentForest ↔ st.WalkSeen s p := by
  have relinks : st.Relinks (st.modify s fun x => { x with parent := some p }) s (some p) :=
    relinks_modify child (fun q same => Option.some.inj same ▸ target) rfl
  rw [← forest.checked relinks, xtSetParent]
  simp only [Option.isSome_some, true_and]

theorem ParentForest.xsGetPopup_iff (forest : st.ParentForest) (child : s ∈ st.surfaces)
    (target : p ∈ st.surfaces) :
    (st.xsGetPopup s (some p)).ParentForest ↔ (st.xsRoleTaken s = false → st.WalkSeen s p) := by
  rw [WindowStack.xsGetPopup]
  cases taken : st.xsRoleTaken s with
  | true => simpa using forest
  | false =>
    have relinks : st.Relinks
        (st.modify s fun x => { x with role := .popup, parent := some p, xdgPopup := true })
        s (some p) :=
      relinks_modify child (fun q same => Option.some.inj same ▸ target) rfl
    rw [← forest.checked relinks]
    simp

theorem ParentForest.getSubsurface_iff (forest : st.ParentForest) (child : s ∈ st.surfaces)
    (target : p ∈ st.surfaces) :
    (st.getSubsurface s p).ParentForest ↔
      ((st.surface s).role = .none → (st.surface s).subsurface = none → st.WalkSeen s p) := by
  rw [WindowStack.getSubsurface]
  split
  · next taken =>
    refine iff_of_true forest fun role free => ?_
    rcases taken with used | used
    · exact absurd role used
    · rw [free] at used
      cases used
  · next free =>
    simp only [not_or, ne_eq, not_not, Option.not_isSome_iff_eq_none] at free
    have relinks : st.Relinks (st.modify s fun x =>
        { x with role := .subsurface, parent := some p, subsurface := some {} }) s (some p) :=
      relinks_modify child (fun q same => Option.some.inj same ▸ target) rfl
    -- The walk begins at the parent itself, so the comparison before it decides nothing.
    have first : s = p → st.surfaceIsAncestorOf s maxSurfaces (some p) = true := fun same =>
      surfaceIsAncestorOf_iff.mpr ⟨0, by decide, by rw [same]; rfl⟩
    simp only [or_iff_right_of_imp first, forest.checked relinks, free, forall_const]

theorem ParentForest.layerSurfaceGetPopup_iff {popup : Nat} (forest : st.ParentForest)
    (panel : s ∈ st.surfaces) (child : popup ∈ st.surfaces) :
    (st.layerSurfaceGetPopup s popup).ParentForest ↔
      ((st.surface popup).role = .popup → ∀ k, st.ascend^[k] (some s) ≠ some popup) := by
  rw [WindowStack.layerSurfaceGetPopup]
  split
  · next other => exact iff_of_true forest fun role => absurd role other
  · next role =>
    simp only [ne_eq, not_not] at role
    rw [forest.relink (relinks_modify child
      (fun q same => Option.some.inj same ▸ panel) rfl)]
    simp [role]

theorem SameParents.refl (st : WindowStack) : st.SameParents st :=
  ⟨rfl, fun _ => rfl⟩

theorem sameParents_unmap (st : WindowStack) (parent : ∀ x, (f x).parent = x.parent) :
    st.SameParents ((st.surfaceUnmap s).modify s f) :=
  (keeps_surfaceUnmap st s).sameParents.trans (sameParents_modify parent)

theorem relinks_subsurfaceResourceDestroy (child : s ∈ st.surfaces) :
    st.Relinks (st.subsurfaceResourceDestroy s) s none := by
  have hidden := keeps_surfaceUnmap st s
  refine ⟨hidden.surfaces, child, nofun, ?_, fun o other => ?_⟩
  · rw [subsurfaceResourceDestroy, modify_same]
  · rw [subsurfaceResourceDestroy, modify_other _ _ other, hidden.parent]

/-- The parents stay a forest exactly when the step does not close a cycle. -/
theorem ParentForest.next_iff (forest : st.ParentForest) (event : Event)
    (allowed : st.Allowed event) : (st.next event).ParentForest ↔ st.Unbroken event := by
  -- Only five requests choose a parent, and all other events leave the parents alone or drop them.
  have plain : ∀ {st' : WindowStack}, st.SameParents st' → (st'.ParentForest ↔ True) :=
    fun same => iff_of_true (forest.same same) trivial
  cases event with
  | create s =>
    refine iff_of_true ⟨forest.acyclic, fun o p link => ?_⟩ trivial
    obtain ⟨child, target⟩ := forest.live o p link
    exact ⟨List.mem_cons_of_mem s child, List.mem_cons_of_mem s target⟩
  | destroy s => exact iff_of_true (forest.surfaceResourceDestroy s) trivial
  | attach s buffer =>
    rw [WindowStack.next, surfaceAttach]
    exact plain (sameParents_modify fun _ => rfl)
  | commit s input =>
    rw [WindowStack.next, surfaceCommit]
    split
    · exact plain (sameParents_modify fun _ => rfl)
    · exact plain (keeps_commitNested input st.waiting st s).sameParents
  | bufferDestroyed s =>
    have cleared : st.SameParents (st.modify s fun x => { x with currentBuffer := false }) :=
      sameParents_modify fun _ => rfl
    rw [WindowStack.next, onBufferDestroyed]
    split
    · exact plain (cleared.trans (keeps_surfaceUnmap _ s).sameParents)
    · exact plain cleared
  | pendingBufferDestroyed s =>
    rw [WindowStack.next, onPendingBufferDestroyed]
    exact plain (sameParents_modify fun _ => rfl)
  | getToplevel s =>
    rw [WindowStack.next, xsGetToplevel]
    split
    · exact plain (.refl st)
    · exact plain (sameParents_modify fun _ => rfl)
  | setParent s parent =>
    cases parent with
    | none =>
      rw [WindowStack.next, xtSetParent, if_neg (by simp)]
      exact iff_of_true (forest.cut (relinks_modify allowed.1 (fun _ up => by cases up) rfl)) trivial
    | some p => exact forest.xtSetParent_iff allowed.1 allowed.2.2
  | toplevelDestroyed s =>
    rw [WindowStack.next, toplevelResourceDestroy]
    exact plain (sameParents_unmap st fun _ => rfl)
  | getPopup s parent =>
    cases parent with
    | none =>
      rw [WindowStack.next, WindowStack.xsGetPopup]
      split
      · exact plain (.refl st)
      · rw [if_neg (by simp)]
        exact iff_of_true (forest.cut (relinks_modify allowed (fun _ up => by cases up) rfl)) trivial
    | some p => exact forest.xsGetPopup_iff allowed.1 allowed.2
  | grab s =>
    rw [WindowStack.next, popupGrab]
    split
    · exact plain (.refl st)
    · exact plain ⟨rfl, fun _ => rfl⟩
  | popupDestroyed s =>
    have hidden := (keeps_surfaceUnmap st s).trans (keeps_popupGrabOnSurfaceGone _ s)
    rw [WindowStack.next, popupResourceDestroy]
    exact plain (hidden.sameParents.trans (sameParents_modify fun _ => rfl))
  | getSubsurface s p => exact forest.getSubsurface_iff allowed.1 allowed.2
  | placeAbove s => exact plain (keeps_surfaceRaise st s).sameParents
  | placeBelow s => exact plain ⟨rfl, fun _ => rfl⟩
  | setSync s =>
    rw [WindowStack.next, subsurfaceSetSync]
    exact plain (sameParents_modify fun _ => rfl)
  | setDesync s input =>
    have desync : st.SameParents (st.modify s fun x =>
        { x with subsurface := x.subsurface.map ({ · with sync := false }) }) :=
      sameParents_modify fun _ => rfl
    rw [WindowStack.next, subsurfaceSetDesync]
    split
    · refine plain (desync.trans ?_)
      exact ((keeps_release _ s).trans (keeps_commitNested input _ _ s)).sameParents
    · exact plain desync
  | subsurfaceDestroyed s =>
    exact iff_of_true (forest.cut (relinks_subsurfaceResourceDestroy allowed.1)) trivial
  | getLayerSurface s layer =>
    rw [WindowStack.next, WindowStack.getLayerSurface]
    split
    · exact plain (.refl st)
    · exact plain (sameParents_modify fun _ => rfl)
  | setLayer s layer =>
    rw [WindowStack.next, layerSurfaceSetLayer]
    exact plain (sameParents_modify fun _ => rfl)
  | layerGetPopup s popup => exact forest.layerSurfaceGetPopup_iff allowed.1 allowed.2.2.1
  | layerDestroyed s =>
    rw [WindowStack.next, layerSurfaceResDestroy]
    split
    · exact plain (.refl st)
    · exact plain (sameParents_unmap st fun _ => rfl)
  | getLockSurface s granted =>
    rw [WindowStack.next, slockGetLockSurface]
    split
    · exact plain (.refl st)
    · have shown : st.SameParents { st with lockSurface := some s } := ⟨rfl, fun _ => rfl⟩
      exact plain (shown.trans (sameParents_modify fun _ => rfl))
  | lockSurfaceDestroyed s =>
    have unlocked : st.SameParents { st with lockSurface := none } := ⟨rfl, fun _ => rfl⟩
    rw [WindowStack.next, slockSurfaceResourceDestroy]
    exact plain (unlocked.trans (sameParents_modify fun _ => rfl))
  | adopt s overrideRedirect =>
    exact plain (keeps_xwmAdoptSurface st s overrideRedirect).sameParents
  | unadopt s =>
    rw [WindowStack.next, xwmUnadoptSurface]
    split
    · exact plain (sameParents_unmap st fun _ => rfl)
    · exact plain (.refl st)
  | raise s => exact plain (keeps_surfaceRaise st s).sameParents
  | pressOutside => exact plain (keeps_popupGrabDismissAll st).sameParents

theorem parentForest_empty : ParentForest {} := by
  refine ⟨fun s n positive cycle => ?_, fun _ _ => nofun⟩
  obtain ⟨k, rfl⟩ := Nat.exists_eq_succ_of_ne_zero positive.ne'
  rw [Function.IsPeriodicPt, Function.IsFixedPt, Function.iterate_succ_apply] at cycle
  have ended := (ascend_none {} k).symm.trans cycle
  cases ended

/-- In every state of a run surfaces belong to each other as in a forest exactly if no request
closes a circle behind the point where the walk up is cut short, or by a popup of a panel. -/
theorem parents_form_forest (trace : List Event) (st : WindowStack) :
    (machine.within ParentForest).Run trace st ↔ (machine.restrict Unbroken).Run trace st := by
  refine Machine.run_within_iff (fun s begun => ?_) fun s event forest allowed => ?_
  · rw [show s = {} from begun]
    exact parentForest_empty
  · exact forest.next_iff event allowed

def panelOfItsPopup : List Event :=
  [.create 0, .create 1, .getPopup 0 none, .getPopup 1 (some 0), .popupDestroyed 1,
    .getLayerSurface 1 2, .layerGetPopup 1 0]

def windowsInCircle : List Event :=
  (List.range 65).map .create ++ (List.range 65).map .getToplevel ++
    (List.range 64).map (fun i => .setParent (i + 1) (some i)) ++ [.setParent 0 (some 64)]

/-- Two surfaces can be made to belong to each other by a popup of a panel, and many of them can
by the parents of windows. -/
theorem not_parents_form_forest :
    (∃ st, machine.Run panelOfItsPopup.reverse st ∧ ¬st.ParentForest) ∧
      ∃ st, machine.Run windowsInCircle.reverse st ∧ ¬st.ParentForest := by
  refine ⟨⟨_, .of_script (m := machine) (s := {}) rfl panelOfItsPopup (by decide), ?_⟩,
    _, .of_script (m := machine) (s := {}) rfl windowsInCircle (by decide +kernel), ?_⟩
  · intro forest
    exact forest.acyclic 0 2 (by decide) (by decide)
  · intro forest
    exact forest.acyclic 0 65 (by decide) (by decide +kernel)

end WindowStack

end Xios
