import Mathlib.Data.List.Induction
import Mathlib.Data.List.Nodup
import Xios.Windows.Requests
import Xios.Windows.StackLaws

/-! What commits, grabs and unmapped surfaces leave alone: roles, parents and the popups below. -/

namespace Xios

namespace WindowStack

/-- Every surface is used consistently, and the lock screen is a surface for it. -/
structure Roles (st : WindowStack) : Prop where
  proper : ∀ s, (st.surface s).Proper
  locked : ∀ s, st.lockSurface = some s → (st.surface s).role = .lock

variable {st st' : WindowStack}

theorem Roles.of_eq (roles : st.Roles) (surface : st'.surface = st.surface)
    (lock : ∀ s, st'.lockSurface = some s → st.lockSurface = some s) : st'.Roles := by
  refine ⟨fun s => ?_, fun s held => ?_⟩
  · rw [surface]
    exact roles.proper s
  · rw [surface]
    exact roles.locked s (lock s held)

theorem Roles.modify (roles : st.Roles) (s : Nat) {f : Surface → Surface}
    (proper : (st.surface s).Proper → (f (st.surface s)).Proper)
    (role : st.lockSurface = some s → (f (st.surface s)).role = (st.surface s).role) :
    (st.modify s f).Roles := by
  refine ⟨fun o => ?_, fun o held => ?_⟩
  · by_cases same : o = s
    · rw [same, modify_same]
      exact proper (roles.proper s)
    · rw [modify_other _ _ same]
      exact roles.proper o
  · have before := roles.locked o held
    by_cases same : o = s
    · subst same
      rw [modify_same, role held]
      exact before
    · rw [modify_other _ _ same]
      exact before

variable {s : Nat}

theorem Roles.mapped_ne_lock (roles : st.Roles) (shown : (st.surface s).mapped = true) :
    st.lockSurface ≠ some s :=
  fun held => ((roles.proper s).shown shown).2 (roles.locked s held)

theorem Roles.ne_lock (roles : st.Roles) (other : (st.surface s).role ≠ .lock) :
    st.lockSurface ≠ some s :=
  fun held => other (roles.locked s held)

theorem Hides.roles (hides : st.Hides st') (roles : st.Roles) : st'.Roles := by
  refine ⟨fun s => ?_, fun s held => ?_⟩
  · cases hides.surface s with
    | inl same =>
      rw [same]
      exact roles.proper s
    | inr gone =>
      rw [gone]
      exact (roles.proper s).hide
  · rw [hides.blind Surface.hide_role s]
    exact roles.locked s (hides.lock s held)

/-- The popups that hold a grab, from the first to the topmost. -/
structure GrabStack (st : WindowStack) (l : List Nat) : Prop where
  count : st.grabCount = l.length
  -- They fit into the array.
  bounded : l.length ≤ maxPopupGrab
  -- They are stored one after the other.
  stored : ∀ (i : Fin maxPopupGrab) (inside : i.val < l.length), st.grab i = some l[i.val]

variable {l : List Nat}

theorem GrabStack.of_eq (grabs : st.GrabStack l) (array : st'.grab = st.grab)
    (count : st'.grabCount = st.grabCount) : st'.GrabStack l :=
  ⟨count.trans grabs.count, grabs.bounded, fun i inside => by rw [array]; exact grabs.stored i inside⟩

theorem GrabStack.unique {l' : List Nat} (grabs : st.GrabStack l) (grabs' : st.GrabStack l') :
    l = l' := by
  have length : l.length = l'.length := by
    have first := grabs.count
    have second := grabs'.count
    omega
  refine List.ext_getElem length fun i inside inside' => ?_
  have bounded := grabs.bounded
  have stored := grabs.stored ⟨i, by omega⟩ inside
  rw [grabs'.stored ⟨i, by omega⟩ inside'] at stored
  exact (Option.some.inj stored).symm

theorem GrabStack.mem_iff (grabs : st.GrabStack l) (s : Nat) :
    s ∈ l ↔ ∃ i : Fin maxPopupGrab, (i.val : Int) < st.grabCount ∧ st.grab i = some s := by
  have count := grabs.count
  have bounded := grabs.bounded
  constructor
  · intro member
    obtain ⟨i, inside, rfl⟩ := List.getElem_of_mem member
    exact ⟨⟨i, by omega⟩, by simp only; omega, grabs.stored ⟨i, by omega⟩ inside⟩
  · rintro ⟨i, below, held⟩
    have inside : i.val < l.length := by omega
    rw [grabs.stored i inside] at held
    rw [← Option.some.inj held]
    exact List.getElem_mem inside

theorem GrabStack.dropLast {p : Nat} (grabs : st.GrabStack (l ++ [p])) {i : Fin maxPopupGrab}
    (top : i.val = l.length) :
    WindowStack.GrabStack { (st.takeGrab i).2 with grabCount := st.grabCount - 1 } l := by
  have count := grabs.count
  have bounded := grabs.bounded
  rw [List.length_append, List.length_singleton] at count bounded
  refine ⟨by simp only; omega, by omega, fun j inside => ?_⟩
  have other : j ≠ i := fun same => by
    rw [same] at inside
    omega
  show Function.update st.grab i none j = some l[j.val]
  rw [Function.update_of_ne other,
    grabs.stored j (by rw [List.length_append, List.length_singleton]; omega),
    List.getElem_append_left inside]

theorem grabGone_absent {unmap : WindowStack → Nat → WindowStack}
    (absent : ∀ i : Fin maxPopupGrab, (i.val : Int) < st.grabCount → st.grab i ≠ some s) :
    grabGone unmap st s = st := by
  unfold grabGone
  split
  · rfl
  · next index found =>
    have held := List.find?_some found
    simp only [decide_eq_true_eq] at held
    exact absurd held.2 (absent index held.1)

theorem grab_unmapWith_absent {unmap : WindowStack → Nat → WindowStack}
    (absent : ∀ i : Fin maxPopupGrab, (i.val : Int) < st.grabCount → st.grab i ≠ some s) :
    (unmapWith (grabGone unmap) st s).grab = st.grab ∧
      (unmapWith (grabGone unmap) st s).grabCount = st.grabCount := by
  unfold unmapWith
  have start : (if st.lockSurface = some s then { st with lockSurface := none } else st).grab =
      st.grab ∧ (if st.lockSurface = some s then { st with lockSurface := none }
        else st).grabCount = st.grabCount := by
    split <;> exact ⟨rfl, rfl⟩
  generalize (if st.lockSurface = some s then { st with lockSurface := none } else st) = st'
    at start
  dsimp only
  have kept : grabGone unmap st' s = st' := by
    refine grabGone_absent fun i below => ?_
    rw [start.1]
    exact absent i (start.2 ▸ below)
  split
  · rw [kept, ite_self]
    exact start
  · exact start

theorem grab_unmapNested_absent (grabs : Nat)
    (absent : ∀ i : Fin maxPopupGrab, (i.val : Int) < st.grabCount → st.grab i ≠ some s) :
    (unmapNested grabs st s).grab = st.grab ∧
      (unmapNested grabs st s).grabCount = st.grabCount := by
  cases grabs with
  | zero =>
    unfold unmapNested unmapWith
    simp only [ite_self]
    split <;> split <;> exact ⟨rfl, rfl⟩
  | succ grabs => exact grab_unmapWith_absent absent

theorem grabsAbove_succ {bottom n : Nat} (inside : n < maxPopupGrab) (below : bottom ≤ n)
    (count : st.grabCount = n + 1) :
    st.grabsAbove (bottom - 1) =
      ⟨n, inside⟩ :: grabsAbove { st with grabCount := n } (bottom - 1) := by
  have all : ∀ bottom n : Fin (maxPopupGrab + 1), bottom.val ≤ n.val → n.val < maxPopupGrab →
      ((List.finRange maxPopupGrab).filter fun i : Fin maxPopupGrab =>
        ((bottom.val : Int) - 1 < (i.val : Int)) ∧ (i.val : Int) < (n.val : Int) + 1).reverse.map
          Fin.val =
      n.val :: ((List.finRange maxPopupGrab).filter fun i : Fin maxPopupGrab =>
        ((bottom.val : Int) - 1 < (i.val : Int)) ∧ (i.val : Int) < (n.val : Int)).reverse.map
          Fin.val := by
    decide +kernel
  have this := all ⟨bottom, by omega⟩ ⟨n, by omega⟩ below inside
  unfold grabsAbove
  rw [count]
  apply (List.map_injective_iff.mpr Fin.val_injective)
  simpa using this

theorem grabsAbove_top {bottom : Int} (top : st.grabCount ≤ bottom + 1) :
    st.grabsAbove bottom = [] := by
  unfold grabsAbove
  rw [List.reverse_eq_nil_iff, List.filter_eq_nil_iff]
  intro i _
  simp only [decide_eq_true_eq, not_and]
  omega

theorem GrabStack.find {below above : List Nat} (grabs : st.GrabStack (below ++ s :: above))
    (once : (below ++ s :: above).Nodup) :
    ∃ inside : below.length < maxPopupGrab,
      (List.finRange maxPopupGrab).find? (fun i : Fin maxPopupGrab =>
        (i.val : Int) < st.grabCount ∧ st.grab i = some s) = some ⟨below.length, inside⟩ := by
  have count := grabs.count
  have bounded := grabs.bounded
  rw [List.length_append, List.length_cons] at count bounded
  have inside : below.length < maxPopupGrab := by omega
  have here : st.grab ⟨below.length, inside⟩ = some s := by
    rw [grabs.stored _ (by rw [List.length_append, List.length_cons]; simp only; omega)]
    simp
  refine ⟨inside, ?_⟩
  cases found : (List.finRange maxPopupGrab).find? (fun i : Fin maxPopupGrab =>
    (i.val : Int) < st.grabCount ∧ st.grab i = some s) with
  | none =>
    have none := List.find?_eq_none.mp found ⟨below.length, inside⟩ (List.mem_finRange _)
    simp only [decide_eq_true_eq, not_and] at none
    exact absurd here (none (by omega))
  | some j =>
    have held := List.find?_some found
    simp only [decide_eq_true_eq] at held
    have below' : j.val < (below ++ s :: above).length := by
      rw [List.length_append, List.length_cons]
      omega
    have stored := grabs.stored j below'
    rw [held.2] at stored
    have index : j.val = below.length := by
      have other : (below ++ s :: above)[below.length]? = some s := by simp
      have mine : (below ++ s :: above)[j.val]? = some s := by
        rw [List.getElem?_eq_getElem below', ← stored]
      exact (List.getElem?_inj below' once).mp (mine.trans other.symm)
    exact congrArg some (Fin.ext index)

/-- A function that leaves the grabs alone when it hides a surface that holds none. -/
def Silent (unmap : WindowStack → Nat → WindowStack) : Prop :=
  ∀ st s, (∀ i : Fin maxPopupGrab, (i.val : Int) < st.grabCount → st.grab i ≠ some s) →
    (unmap st s).grab = st.grab ∧ (unmap st s).grabCount = st.grabCount

section Popping

variable {unmap : WindowStack → Nat → WindowStack} (silent : Silent unmap)
include silent

theorem GrabStack.popped {st : WindowStack} {l : List Nat} {p : Nat}
    (grabs : st.GrabStack (l ++ [p])) (once : (l ++ [p]).Nodup) {i : Fin maxPopupGrab}
    (top : i.val = l.length) : (popGrab unmap st i).GrabStack l := by
  have rest := grabs.dropLast top
  have held : st.grab i = some p := by
    rw [grabs.stored i (by rw [List.length_append, List.length_singleton]; omega)]
    simp [top]
  have other : p ∉ l := by
    have apart := List.disjoint_of_nodup_append once
    exact fun member => apart member (List.mem_singleton.mpr rfl)
  have start : popGrab unmap st i =
      dismiss unmap { (st.takeGrab i).2 with grabCount := st.grabCount - 1 } (some p) := by
    rw [← held]
    rfl
  rw [start]
  generalize WindowStack.mk _ _ _ _ _ _ = st' at rest
  unfold dismiss
  dsimp only
  split
  · obtain ⟨array, count⟩ :=
      silent st' p (fun j below same => other ((rest.mem_iff p).mpr ⟨j, below, same⟩))
    exact rest.of_eq array count
  · exact rest

theorem GrabStack.popped_above {above : List Nat} : ∀ {st : WindowStack} {below : List Nat},
    st.GrabStack (below ++ above) → (below ++ above).Nodup →
    WindowStack.GrabStack ((st.grabsAbove (below.length - 1)).foldl (popGrab unmap) st) below := by
  -- The topmost grab is the last of the list, and is popped first.
  induction above using List.reverseRecOn with
  | nil =>
    intro st below grabs _
    rw [List.append_nil] at grabs
    rw [grabsAbove_top (by have := grabs.count; omega)]
    exact grabs
  | append_singleton above p ih =>
    intro st below grabs once
    rw [← List.append_assoc] at grabs once
    have count := grabs.count
    have bounded := grabs.bounded
    simp only [List.length_append, List.length_singleton] at count bounded
    have inside : below.length + above.length < maxPopupGrab := by omega
    rw [grabsAbove_succ inside (by omega) (by rw [count]; push_cast; rfl), List.foldl_cons]
    have popped := grabs.popped silent once (i := ⟨below.length + above.length, inside⟩)
      (by simp)
    have same : grabsAbove { st with grabCount := (below.length + above.length : Nat) }
        (below.length - 1) = (popGrab unmap st ⟨below.length + above.length, inside⟩).grabsAbove
          (below.length - 1) := by
      unfold grabsAbove
      rw [popped.count, List.length_append]
    rw [same]
    exact ih popped (List.Nodup.of_append_left once)

theorem GrabStack.gone {st : WindowStack} {below above : List Nat} {s : Nat}
    (grabs : st.GrabStack (below ++ s :: above)) (once : (below ++ s :: above).Nodup) :
    (grabGone unmap st s).GrabStack below := by
  obtain ⟨inside, place⟩ := grabs.find once
  unfold WindowStack.grabGone
  rw [place]
  rw [show below ++ s :: above = (below ++ [s]) ++ above by simp] at grabs once
  have popped := grabs.popped_above silent once
  rw [show ((below ++ [s]).length : Int) - 1 = below.length by simp] at popped
  exact popped.dropLast rfl

end Popping

theorem silent_unmapNested (grabs : Nat) : Silent (unmapNested grabs) :=
  fun _ _ absent => grab_unmapNested_absent grabs absent

theorem silent_surfaceUnmap : Silent surfaceUnmap :=
  fun _ _ absent => grab_unmapNested_absent _ absent

/-- What a step leaves alone that neither creates nor destroys an object. -/
structure Keeps (st st' : WindowStack) : Prop where
  -- No surface comes or goes.
  surfaces : st'.surfaces = st.surfaces
  -- Surfaces belong to the same ones, and have the same popup objects.
  parent : ∀ o, (st'.surface o).parent = (st.surface o).parent
  popup : ∀ o, (st'.surface o).xdgPopup = (st.surface o).xdgPopup
  -- No lock screen is put up.
  lock : ∀ s, st'.lockSurface = some s → st.lockSurface = some s
  -- Surfaces are used consistently.
  roles : st.Roles → st'.Roles
  -- Grabs are only lost from the top.
  grabs : ∀ l, st.GrabStack l → l.Nodup → ∃ l', l' <+: l ∧ st'.GrabStack l'

theorem Keeps.refl (st : WindowStack) : st.Keeps st :=
  ⟨rfl, fun _ => rfl, fun _ => rfl, fun _ => id, id, fun l grabs _ => ⟨l, List.prefix_rfl, grabs⟩⟩

variable {st st' : WindowStack}

theorem Keeps.trans {st'' : WindowStack} (first : st.Keeps st') (second : st'.Keeps st'') :
    st.Keeps st'' := by
  refine ⟨second.surfaces.trans first.surfaces, fun o => (second.parent o).trans (first.parent o),
    fun o => (second.popup o).trans (first.popup o),
    fun s held => first.lock s (second.lock s held), second.roles ∘ first.roles, ?_⟩
  intro l grabs once
  obtain ⟨l', shorter, grabs'⟩ := first.grabs l grabs once
  obtain ⟨l'', shortest, grabs''⟩ := second.grabs l' grabs' (once.sublist shorter.sublist)
  exact ⟨l'', shortest.trans shorter, grabs''⟩

theorem Keeps.of_eq (surface : st'.surface = st.surface) (surfaces : st'.surfaces = st.surfaces)
    (array : st'.grab = st.grab) (count : st'.grabCount = st.grabCount)
    (lock : ∀ s, st'.lockSurface = some s → st.lockSurface = some s) : st.Keeps st' :=
  ⟨surfaces, fun o => by rw [surface], fun o => by rw [surface], lock,
    fun roles => roles.of_eq surface lock,
    fun l grabs _ => ⟨l, List.prefix_rfl, grabs.of_eq array count⟩⟩

variable {s : Nat} {f : Surface → Surface}

theorem keeps_modify (parent : ∀ x, (f x).parent = x.parent)
    (popup : ∀ x, (f x).xdgPopup = x.xdgPopup) (roles : st.Roles → (st.modify s f).Roles) :
    st.Keeps (st.modify s f) := by
  refine ⟨rfl, fun o => ?_, fun o => ?_, fun _ => id, roles,
    fun l grabs _ => ⟨l, List.prefix_rfl, grabs.of_eq rfl rfl⟩⟩
  · by_cases same : o = s
    · rw [same, modify_same, parent]
    · rw [modify_other _ _ same]
  · by_cases same : o = s
    · rw [same, modify_same, popup]
    · rw [modify_other _ _ same]

theorem Hides.keeps (hides : st.Hides st')
    (grabs : ∀ l, st.GrabStack l → l.Nodup → ∃ l', l' <+: l ∧ st'.GrabStack l') : st.Keeps st' :=
  ⟨hides.surfaces, fun o => hides.blind (g := Surface.parent) (fun _ => rfl) o,
    fun o => hides.blind (g := Surface.xdgPopup) (fun _ => rfl) o, hides.lock, hides.roles, grabs⟩

theorem keeps_grabGone {unmap : WindowStack → Nat → WindowStack} (silent : Silent unmap)
    (unmaps : ∀ st s, Hides st (unmap st s)) (st : WindowStack) (s : Nat) :
    st.Keeps (grabGone unmap st s) := by
  refine (hides_grabGone unmaps st s).keeps fun l grabs once => ?_
  by_cases member : s ∈ l
  · obtain ⟨below, above, rfl⟩ := List.append_of_mem member
    exact ⟨below, List.prefix_append _ _, grabs.gone silent once⟩
  · have absent : grabGone unmap st s = st :=
      grabGone_absent fun i below held => member ((grabs.mem_iff s).mpr ⟨i, below, held⟩)
    rw [absent]
    exact ⟨l, List.prefix_rfl, grabs⟩

theorem keeps_surfaceHide (st : WindowStack) (s : Nat) : st.Keeps (st.surfaceHide s) :=
  (hides_surfaceHide st s).keeps fun l grabs _ => ⟨l, List.prefix_rfl, grabs.of_eq rfl rfl⟩

theorem keeps_unmapWith {gone : WindowStack → Nat → WindowStack}
    (told : ∀ st s, Keeps st (gone st s)) (st : WindowStack) (s : Nat) :
    st.Keeps (unmapWith gone st s) := by
  have unlocked : st.Keeps
      (if st.lockSurface = some s then { st with lockSurface := none } else st) := by
    split
    · exact .of_eq rfl rfl rfl rfl fun _ held => absurd held (by simp)
    · exact .refl st
  unfold unmapWith
  generalize (if st.lockSurface = some s then { st with lockSurface := none } else st) = st'
    at unlocked
  dsimp only
  split
  · have asked : st'.Keeps (if (st'.surface s).role = .popup then gone st' s else st') := by
      split
      · exact told st' s
      · exact .refl st'
    exact unlocked.trans (asked.trans (keeps_surfaceHide _ s))
  · exact unlocked

theorem keeps_unmapNested (grabs : Nat) (st : WindowStack) (s : Nat) :
    st.Keeps (unmapNested grabs st s) := by
  cases grabs with
  | zero => exact keeps_unmapWith (fun st _ => .refl st) st s
  | succ grabs =>
    exact keeps_unmapWith (fun st s => keeps_grabGone (silent_unmapNested grabs)
      (fun st s => (hides_unmapNested grabs st s).1) st s) st s

theorem keeps_surfaceUnmap (st : WindowStack) (s : Nat) : st.Keeps (st.surfaceUnmap s) :=
  keeps_unmapNested _ st s

theorem keeps_popupGrabOnSurfaceGone (st : WindowStack) (s : Nat) :
    st.Keeps (st.popupGrabOnSurfaceGone s) :=
  keeps_grabGone silent_surfaceUnmap (fun st s => (hides_surfaceUnmap st s).1) st s

theorem grabStack_nil (none : st.grabCount = 0) : st.GrabStack [] :=
  ⟨none, Nat.zero_le _, fun _ inside => absurd inside (Nat.not_lt_zero _)⟩

theorem keeps_popupGrabDismissAll (st : WindowStack) : st.Keeps st.popupGrabDismissAll := by
  unfold popupGrabDismissAll
  split
  · exact .refl st
  · have hides : st.Hides ((st.grabsAbove (-1)).foldl
        (fun st i => dismiss surfaceUnmap (st.takeGrab i).2 (st.takeGrab i).1) st) := by
      refine hides_foldl (fun st i => ?_) _ st
      have taken : st.Hides (st.takeGrab i).2 := .of_eq rfl rfl rfl (le_refl _) fun _ => id
      exact taken.trans (hides_dismiss (fun st s => (hides_surfaceUnmap st s).1) _ _)
    generalize (st.grabsAbove (-1)).foldl
      (fun st i => dismiss surfaceUnmap (st.takeGrab i).2 (st.takeGrab i).1) st = st' at hides
    exact ⟨hides.surfaces, fun o => hides.blind (g := Surface.parent) (fun _ => rfl) o,
      fun o => hides.blind (g := Surface.xdgPopup) (fun _ => rfl) o, hides.lock,
      fun roles => (hides.roles roles).of_eq rfl fun _ => id,
      fun l _ _ => ⟨[], List.nil_prefix, grabStack_nil rfl⟩⟩

theorem keeps_surfaceMap (role : (st.surface s).role ≠ .none ∧ (st.surface s).role ≠ .lock) :
    st.Keeps (st.surfaceMap s) := by
  unfold surfaceMap
  split
  · exact .refl st
  · have inserted : st.Keeps { st with mapped := Banded.insert st.surfaceBand s st.mapped } :=
      .of_eq rfl rfl rfl rfl fun _ => id
    refine inserted.trans (keeps_modify (fun _ => rfl) (fun _ => rfl) fun roles => ?_)
    exact roles.modify s (fun proper => { proper with shown := fun _ => role }) fun _ => rfl

theorem keeps_takeOver (overrideRedirect : Bool)
    (free : ¬((st.surface s).role ≠ .none ∧ (st.surface s).isXwayland = false)) :
    st.Keeps (st.modify s fun x =>
        { x with isXwayland := true, role := if overrideRedirect then .popup else .toplevel }) ∧
      ((st.modify s fun x => { x with
        isXwayland := true
        role := if overrideRedirect then .popup else .toplevel }).surface s).role ≠ .none ∧
      ((st.modify s fun x => { x with
        isXwayland := true
        role := if overrideRedirect then .popup else .toplevel }).surface s).role ≠ .lock := by
  have role : (if overrideRedirect then SurfaceRole.popup else .toplevel) ≠ .none ∧
      (if overrideRedirect then SurfaceRole.popup else .toplevel) ≠ .lock ∧
      ((if overrideRedirect then SurfaceRole.popup else .toplevel) = .toplevel ∨
        (if overrideRedirect then SurfaceRole.popup else .toplevel) = .popup) := by
    cases overrideRedirect <;> simp
  generalize (if overrideRedirect then SurfaceRole.popup else .toplevel) = new at role
  rw [modify_same]
  refine ⟨keeps_modify (fun _ => rfl) (fun _ => rfl) fun roles => ?_, role.1, role.2.1⟩
  obtain ⟨toplevel, popup, subsurface, layer, unlocked, -⟩ := (roles.proper s).adoptable free
  refine roles.modify s (fun _ => ?_) fun held => absurd (roles.locked s held) unlocked
  refine ⟨fun _ => ⟨role.1, role.2.1⟩, fun _ => role.2.2, ?_, ?_, ?_, ?_⟩ <;>
    simp [toplevel, popup, subsurface, layer]

theorem keeps_xwmAdoptSurface (st : WindowStack) (s : Nat) (overrideRedirect : Bool) :
    st.Keeps (st.xwmAdoptSurface s overrideRedirect) := by
  unfold xwmAdoptSurface
  split
  · exact .refl st
  · rename_i free
    obtain ⟨adopted, role⟩ := keeps_takeOver overrideRedirect free
    generalize st.modify s _ = st' at adopted role ⊢
    dsimp only
    split
    · exact adopted.trans (keeps_surfaceMap role)
    · exact adopted

theorem keeps_layerCommit (st : WindowStack) (s : Nat) : st.Keeps (st.layerCommit s) := by
  unfold layerCommit
  split
  · refine keeps_modify (fun _ => rfl) (fun _ => rfl) fun roles => ?_
    refine roles.modify s (fun proper => { proper with layer := ?_ }) fun _ => rfl
    simpa using proper.layer
  · exact .refl st

theorem keeps_replaceBuffer (st : WindowStack) (s : Nat) (buffer : Bool) :
    st.Keeps (st.modify s fun x =>
      { x with pendingBuffer := false, bufferAttached := false, currentBuffer := buffer }) :=
  keeps_modify (fun _ => rfl) (fun _ => rfl) fun roles =>
    roles.modify s (fun proper => { proper with }) fun _ => rfl

theorem role_of_mappable {x : Surface} (mappable : x.mappable = true) :
    x.role ≠ .none ∧ x.role ≠ .lock := by
  unfold Surface.mappable at mappable
  constructor <;> intro role <;> rw [role] at mappable <;> cases mappable

theorem keeps_bufferCommit (st : WindowStack) (s : Nat) : st.Keeps (st.bufferCommit s) := by
  unfold bufferCommit
  split
  · have replaced := keeps_replaceBuffer st s (st.surface s).pendingBuffer
    dsimp only
    split
    · split
      · rename_i first
        exact replaced.trans (keeps_surfaceMap (role_of_mappable first.2))
      · exact replaced
    · exact replaced.trans (keeps_surfaceUnmap _ s)
  · exact .refl st

theorem keeps_release (st : WindowStack) (c : Nat) : st.Keeps (st.release c) := by
  refine keeps_modify (fun _ => rfl) (fun _ => rfl) fun roles => ?_
  refine roles.modify c (fun proper => { proper with subsurface := ?_ }) fun _ => rfl
  simpa using proper.subsurface

def commitOwn (input : CommitInput) (st : WindowStack) (s : Nat) : WindowStack :=
  let st := match input.adopt s with
    | some overrideRedirect => st.xwmAdoptSurface s overrideRedirect
    | none => st
  (st.layerCommit s).bufferCommit s

theorem commitWith_eq (apply : WindowStack → Nat → WindowStack) (input : CommitInput)
    (st : WindowStack) (s : Nat) :
    commitWith apply input st s =
      if input.valid s then
        (commitOwn input st s).surfaces.foldl
          (fun st c => if st.waits s c then apply (st.release c) c else st) (commitOwn input st s)
      else commitOwn input st s := by
  unfold commitWith commitOwn
  cases input.adopt s <;> rfl

theorem keeps_commitOwn (input : CommitInput) (st : WindowStack) (s : Nat) :
    st.Keeps (commitOwn input st s) := by
  unfold commitOwn
  have adopted : st.Keeps (match input.adopt s with
      | some overrideRedirect => st.xwmAdoptSurface s overrideRedirect
      | none => st) := by
    split
    · exact keeps_xwmAdoptSurface st s _
    · exact .refl st
  exact adopted.trans ((keeps_layerCommit _ s).trans (keeps_bufferCommit _ s))

theorem keeps_foldl {β : Type*} {step : WindowStack → β → WindowStack}
    (steps : ∀ st b, Keeps st (step st b)) (l : List β) (st : WindowStack) :
    st.Keeps (l.foldl step st) := by
  induction l generalizing st with
  | nil => exact .refl st
  | cons b rest ih => exact (steps st b).trans (ih (step st b))

theorem keeps_commitNested (input : CommitInput) (waiting : Nat) (st : WindowStack) (s : Nat) :
    st.Keeps (commitNested input waiting st s) := by
  have nested : ∀ apply : WindowStack → Nat → WindowStack, (∀ st s, Keeps st (apply st s)) →
      ∀ st s, Keeps st (commitWith apply input st s) := by
    intro apply applies st s
    rw [commitWith_eq]
    have own := keeps_commitOwn input st s
    split
    · refine own.trans (keeps_foldl (fun st c => ?_) _ _)
      split
      · exact (keeps_release st c).trans (applies _ c)
      · exact .refl st
    · exact own
  induction waiting generalizing st s with
  | zero => exact nested _ (fun st _ => .refl st) st s
  | succ waiting ih => exact nested _ ih st s

theorem blind_surfaceRaise {α : Type*} {g : WindowStack → α}
    (blind : ∀ st l, g { st with mapped := l } = g st) (st : WindowStack) (s : Nat) :
    g (st.surfaceRaise s) = g st := by
  have folded : ∀ step : WindowStack → Nat → WindowStack, (∀ st c, g (step st c) = g st) →
      ∀ (l : List Nat) (st : WindowStack), g (l.foldl step st) = g st := by
    intro step same l
    induction l with
    | nil => exact fun _ => rfl
    | cons c l ih => exact fun st => (ih (step st c)).trans (same st c)
  have all : ∀ depth st s, g (surfaceRaiseChildren depth st s) = g st := by
    intro depth
    induction depth with
    | zero => exact fun st s => blind st _
    | succ depth ih => exact fun st s => (folded _ ih _ _).trans (blind st _)
  exact all _ st s

theorem keeps_surfaceRaise (st : WindowStack) (s : Nat) : st.Keeps (st.surfaceRaise s) :=
  .of_eq (blind_surfaceRaise (fun _ _ => rfl) st s) (blind_surfaceRaise (fun _ _ => rfl) st s)
    (blind_surfaceRaise (fun _ _ => rfl) st s) (blind_surfaceRaise (fun _ _ => rfl) st s)
    fun _ held => (blind_surfaceRaise (g := lockSurface) (fun _ _ => rfl) st s).symm.trans held

theorem Roles.orphan (roles : st.Roles) (s : Nat) : (st.orphan s).Roles := by
  refine ⟨fun o => ?_, fun o held => ?_⟩
  · unfold WindowStack.orphan
    dsimp only
    split
    · exact { roles.proper o with }
    · exact roles.proper o
  · have before := roles.locked o held
    unfold WindowStack.orphan
    dsimp only
    split <;> exact before

theorem Roles.takeRole (roles : st.Roles) (free : (st.surface s).role = .none)
    (proper : (st.surface s).Proper → (f (st.surface s)).Proper) : (st.modify s f).Roles :=
  roles.modify s proper fun held => absurd (roles.locked s held) (by rw [free]; decide)

theorem Roles.destroyRole (roles : st.Roles) (unmapped : (st.surfaceUnmap s).Hides st')
    (proper : (st'.surface s).Proper → (st'.surface s).mapped = false →
      (f (st'.surface s)).Proper) : (st'.modify s f).Roles := by
  obtain ⟨hides, hidden⟩ := hides_surfaceUnmap st s
  have kept : st'.Roles := unmapped.roles (hides.roles roles)
  refine kept.modify s (fun x => proper x (unmapped.mapped hidden)) fun held => ?_
  exact absurd (unmapped.lock s held) (lock_surfaceUnmap st s)

theorem Roles.surfaceResourceDestroy (roles : st.Roles) (s : Nat) :
    (st.surfaceResourceDestroy s).Roles := by
  have removed : Roles { st with surfaces := st.surfaces.erase s } := roles.of_eq rfl fun _ => id
  have unlocked := lock_surfaceUnmap { st with surfaces := st.surfaces.erase s } s
  have kept := (keeps_surfaceUnmap { st with surfaces := st.surfaces.erase s } s).roles removed
  unfold WindowStack.surfaceResourceDestroy
  generalize WindowStack.surfaceUnmap _ s = st' at unlocked kept
  have stripped : (st'.modify s fun x => { x with subsurface := none, layer := none }).Roles :=
    kept.modify s (fun proper => { proper with
      subsurface := fun some => absurd some (by simp)
      layer := fun some => absurd some (by simp) }) fun _ => rfl
  have gone := keeps_popupGrabOnSurfaceGone
    ((st'.modify s fun x => { x with subsurface := none, layer := none }).orphan s) s
  refine (gone.roles (stripped.orphan s)).modify s (fun _ => ?_) fun held => ?_
  · constructor <;> simp
  · exact absurd (gone.lock s held) unlocked

/-- Every event leaves the surfaces used consistently. -/
theorem Roles.next (roles : st.Roles) (event : Event) (allowed : st.Allowed event) :
    (st.next event).Roles := by
  cases event with
  | create s => exact roles.of_eq rfl fun _ => id
  | destroy s => exact roles.surfaceResourceDestroy s
  | attach s buffer =>
    rw [WindowStack.next, surfaceAttach]
    exact roles.modify s (fun proper => { proper with }) fun _ => rfl
  | commit s input =>
    rw [WindowStack.next, surfaceCommit]
    split
    · refine roles.modify s (fun proper => { proper with subsurface := ?_ }) fun _ => rfl
      simpa using proper.subsurface
    · exact (keeps_commitNested input st.waiting st s).roles roles
  | bufferDestroyed s =>
    have cleared : (st.modify s fun x => { x with currentBuffer := false }).Roles :=
      roles.modify s (fun proper => { proper with }) fun _ => rfl
    rw [WindowStack.next, onBufferDestroyed]
    split
    · exact (keeps_surfaceUnmap _ s).roles cleared
    · exact cleared
  | pendingBufferDestroyed s =>
    rw [WindowStack.next, onPendingBufferDestroyed]
    exact roles.modify s (fun proper => { proper with }) fun _ => rfl
  | getToplevel s =>
    rw [WindowStack.next, xsGetToplevel]
    split
    · exact roles
    · next free =>
      simp only [xsRoleTaken, decide_eq_true_eq, not_or, ne_eq, not_not] at free
      refine roles.takeRole free.1 fun proper => ?_
      obtain ⟨hidden, foreign, -, popup, subsurface, layer⟩ := proper.free (.inl free.1)
      constructor <;> simp [hidden, foreign, popup, subsurface, layer]
  | setParent s parent =>
    rw [WindowStack.next, xtSetParent]
    split
    · exact roles
    · exact roles.modify s (fun proper => { proper with }) fun _ => rfl
  | toplevelDestroyed s =>
    rw [WindowStack.next, toplevelResourceDestroy]
    refine roles.destroyRole (.refl _) fun proper hidden => ?_
    have role : ((st.surfaceUnmap s).surface s).xdgToplevel = true := by
      rw [(hides_surfaceUnmap st s).1.blind (g := Surface.xdgToplevel) (fun _ => rfl) s]
      exact allowed.2
    obtain ⟨-, foreign, toplevel, popup, subsurface, layer⟩ := proper
    simp only [(toplevel role).1] at foreign popup subsurface layer
    constructor <;> simp_all
  | getPopup s parent =>
    rw [WindowStack.next, xsGetPopup]
    split
    · exact roles
    · next free =>
      split
      · exact roles
      · simp only [xsRoleTaken, decide_eq_true_eq, not_or, ne_eq, not_not] at free
        refine roles.takeRole free.1 fun proper => ?_
        obtain ⟨hidden, foreign, toplevel, -, subsurface, layer⟩ := proper.free (.inl free.1)
        constructor <;> simp [hidden, foreign, toplevel, subsurface, layer]
  | grab s =>
    rw [WindowStack.next, popupGrab]
    split
    · exact roles
    · exact roles.of_eq rfl fun _ => id
  | popupDestroyed s =>
    rw [WindowStack.next, popupResourceDestroy]
    refine roles.destroyRole (hides_popupGrabOnSurfaceGone _ s) fun proper hidden => ?_
    have kept := (keeps_surfaceUnmap st s).trans (keeps_popupGrabOnSurfaceGone _ s)
    have object : (((st.surfaceUnmap s).popupGrabOnSurfaceGone s).surface s).xdgPopup = true := by
      rw [kept.popup s]
      exact allowed.2
    obtain ⟨-, foreign, toplevel, popup, subsurface, layer⟩ := proper
    simp only [(popup object).1] at foreign toplevel subsurface layer
    constructor <;> simp_all
  | getSubsurface s parent =>
    rw [WindowStack.next, WindowStack.getSubsurface]
    split
    · exact roles
    · next free =>
      split
      · exact roles
      · simp only [not_or, ne_eq, not_not] at free
        refine roles.takeRole free.1 fun proper => ?_
        obtain ⟨hidden, foreign, toplevel, popup, -, layer⟩ := proper.free (.inl free.1)
        constructor <;> simp [hidden, foreign, toplevel, popup, layer]
  | placeAbove s => exact (keeps_surfaceRaise st s).roles roles
  | placeBelow s => exact roles.of_eq rfl fun _ => id
  | setSync s =>
    rw [WindowStack.next, subsurfaceSetSync]
    refine roles.modify s (fun proper => { proper with subsurface := ?_ }) fun _ => rfl
    simpa using proper.subsurface
  | setDesync s input =>
    have desync : (st.modify s fun x =>
        { x with subsurface := x.subsurface.map ({ · with sync := false }) }).Roles := by
      refine roles.modify s (fun proper => { proper with subsurface := ?_ }) fun _ => rfl
      simpa using proper.subsurface
    rw [WindowStack.next, subsurfaceSetDesync]
    split
    · exact (keeps_commitNested input _ _ s).roles ((keeps_release _ s).roles desync)
    · exact desync
  | subsurfaceDestroyed s =>
    rw [WindowStack.next, subsurfaceResourceDestroy]
    refine roles.destroyRole (.refl _) fun proper hidden => ?_
    have object : ((st.surfaceUnmap s).surface s).subsurface.isSome = true := by
      rw [(hides_surfaceUnmap st s).1.blind (g := Surface.subsurface) (fun _ => rfl) s]
      exact allowed.2
    obtain ⟨-, foreign, toplevel, popup, subsurface, layer⟩ := proper
    simp only [subsurface object] at foreign toplevel popup layer
    constructor <;> simp_all
  | getLayerSurface s layer =>
    rw [WindowStack.next, WindowStack.getLayerSurface]
    split
    · exact roles
    · next free =>
      simp only [not_or, ne_eq, not_not] at free
      refine roles.takeRole free.1 fun proper => ?_
      obtain ⟨hidden, foreign, toplevel, popup, subsurface, -⟩ := proper.free (.inl free.1)
      constructor <;> simp [hidden, foreign, toplevel, popup, subsurface]
  | setLayer s layer =>
    rw [WindowStack.next, layerSurfaceSetLayer]
    refine roles.modify s (fun proper => { proper with layer := ?_ }) fun _ => rfl
    simpa using proper.layer
  | layerGetPopup s popup =>
    rw [WindowStack.next, layerSurfaceGetPopup]
    split
    · exact roles
    · exact roles.modify popup (fun proper => { proper with }) fun _ => rfl
  | layerDestroyed s =>
    rw [WindowStack.next, layerSurfaceResDestroy]
    split
    · exact roles
    · refine roles.destroyRole (.refl _) fun proper hidden => ?_
      have role : ((st.surfaceUnmap s).surface s).role = .layer := by
        rw [(hides_surfaceUnmap st s).1.blind Surface.hide_role s]
        exact (roles.proper s).layer allowed.2
      obtain ⟨-, foreign, toplevel, popup, subsurface, -⟩ := proper
      simp only [role] at foreign toplevel popup subsurface
      constructor <;> simp_all
  | getLockSurface s granted =>
    rw [WindowStack.next, slockGetLockSurface]
    split
    · exact roles
    · next free =>
      simp only [not_or, ne_eq, not_not] at free
      obtain ⟨hidden, foreign, toplevel, popup, subsurface, layer⟩ :=
        (roles.proper s).free (.inl free.2.1)
      refine ⟨fun o => ?_, fun o held => ?_⟩
      · by_cases same : o = s
        · rw [same, modify_same]
          constructor <;> simp [hidden, foreign, toplevel, popup, subsurface, layer]
        · rw [modify_other _ _ same]
          exact roles.proper o
      · rw [← Option.some.inj held, modify_same]
  | lockSurfaceDestroyed s =>
    have role := roles.locked s allowed
    obtain ⟨hidden, foreign, toplevel, popup, subsurface, layer⟩ :=
      (roles.proper s).free (.inr role)
    have unlocked : Roles { st with lockSurface := none } :=
      roles.of_eq rfl fun _ held => by cases held
    rw [WindowStack.next, slockSurfaceResourceDestroy]
    refine unlocked.modify s (fun _ => ?_) fun held => by cases held
    constructor <;> simp [hidden, foreign, toplevel, popup, subsurface, layer]
  | adopt s overrideRedirect => exact (keeps_xwmAdoptSurface st s overrideRedirect).roles roles
  | unadopt s =>
    rw [WindowStack.next, xwmUnadoptSurface]
    split
    · next foreign =>
      refine roles.destroyRole (.refl _) fun proper hidden => ?_
      obtain ⟨toplevel, popup, subsurface, layer, -, -⟩ := proper.adoptable (by
        rw [(hides_surfaceUnmap st s).1.blind (g := Surface.isXwayland) (fun _ => rfl) s, foreign]
        simp)
      constructor <;> simp [hidden, toplevel, popup, subsurface, layer]
    · exact roles
  | raise s => exact (keeps_surfaceRaise st s).roles roles
  | pressOutside => exact (keeps_popupGrabDismissAll st).roles roles

end WindowStack

end Xios
