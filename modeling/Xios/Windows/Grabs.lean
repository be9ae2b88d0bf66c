import Mathlib.Data.List.Chain
import Mathlib.Data.List.TakeWhile
import Xios.Lib.Cycle
import Xios.Windows.Keeps

/-! The popups that hold a grab are different, live, and each one belongs to the one below it. -/

namespace Xios

theorem Surface.Proper.popup_of_role {x : Surface} (proper : x.Proper)
    (role : x.role ≠ .popup) : x.xdgPopup = false := by
  by_contra object
  exact role (proper.popup (by simpa using object)).1

namespace WindowStack

def climb (st : WindowStack) : Option Nat → Option Nat
  | some s => if (st.surface s).xdgPopup then (st.surface s).parent else none
  | none => none

/-- Popups do not belong to each other in a circle that is short enough to be noticed. -/
def Rooted (st : WindowStack) : Prop :=
  ∀ s n, 0 < n → n ≤ maxSurfaces → ¬Function.IsPeriodicPt st.climb n (some s)

theorem climb_none (st : WindowStack) (k : Nat) : st.climb^[k] none = none := by
  induction k with
  | zero => rfl
  | succ k ih => rw [Function.iterate_succ_apply, climb, ih]

variable {st : WindowStack} {s : Nat}

theorem ancestor_of_climb {k depth : Nat} (near : k < depth) {o : Option Nat}
    (reached : st.climb^[k] o = some s) : st.surfaceIsAncestorOf s depth o = true := by
  induction k generalizing o depth with
  | zero =>
    obtain ⟨depth, rfl⟩ : ∃ rest, depth = rest + 1 := ⟨depth - 1, by omega⟩
    rw [Function.iterate_zero, id_eq] at reached
    rw [reached, surfaceIsAncestorOf]
    simp
  | succ k ih =>
    obtain ⟨depth, rfl⟩ : ∃ rest, depth = rest + 1 := ⟨depth - 1, by omega⟩
    rw [Function.iterate_succ_apply] at reached
    cases o with
    | none =>
      rw [climb, climb_none] at reached
      cases reached
    | some x =>
      rw [climb] at reached
      split at reached
      · rw [surfaceIsAncestorOf, ih (by omega) reached, Bool.or_true]
      · rw [climb_none] at reached
        cases reached

variable {st' : WindowStack}

theorem Rooted.of_drop (rooted : st.Rooted)
    (drop : ∀ o, st'.climb (some o) = st.climb (some o) ∨ st'.climb (some o) = none) :
    st'.Rooted := by
  intro s n positive short cycle
  refine rooted s n positive short (Cycle.isPeriodicPt_of_drop (fun o => ?_) rfl cycle)
  cases o with
  | none => exact .inl rfl
  | some o => exact drop o

theorem climb_congr {o : Nat} (popup : (st'.surface o).xdgPopup = (st.surface o).xdgPopup)
    (parent : (st.surface o).xdgPopup = true → (st'.surface o).parent = (st.surface o).parent) :
    st'.climb (some o) = st.climb (some o) := by
  rw [climb, climb, popup]
  split
  · next object => exact parent object
  · rfl

theorem Rooted.link (rooted : st.Rooted) {parent : Option Nat}
    (linked : st'.climb = Function.update st.climb (some s) parent)
    (apart : ∀ k < maxSurfaces, st.climb^[k] parent ≠ some s) : st'.Rooted := by
  intro o n positive short cycle
  rw [linked] at cycle
  rcases Cycle.isPeriodicPt_update positive cycle with before | ⟨k, near, back⟩
  · exact rooted o n positive short before
  · exact apart k (by omega) back

/-- The popups that hold a grab, and what is known about them. -/
structure Chained (st : WindowStack) (l : List Nat) : Prop where
  -- They are stored in the array.
  stack : st.GrabStack l
  once : l.Nodup
  -- They exist and have popup objects.
  live : ∀ p ∈ l, p ∈ st.surfaces ∧ (st.surface p).xdgPopup = true
  chain : l.IsChain fun below above => (st.surface above).parent = some below

variable {l : List Nat}

theorem Chained.chain_of_shorter {l' : List Nat} (chained : st.Chained l) (shorter : l' <+: l) :
    l'.IsChain fun below above => (st.surface above).parent = some below := by
  obtain ⟨rest, rfl⟩ := shorter
  exact chained.chain.left_of_append

theorem Chained.shrink {l' : List Nat} (chained : st.Chained l) (shorter : l' <+: l)
    (stack : st'.GrabStack l') (surfaces : ∀ p ∈ l', p ∈ st.surfaces → p ∈ st'.surfaces)
    (popup : ∀ p ∈ l', (st'.surface p).xdgPopup = (st.surface p).xdgPopup)
    (parent : ∀ p ∈ l'.tail, (st'.surface p).parent = (st.surface p).parent) : st'.Chained l' := by
  have part : ∀ p ∈ l', p ∈ l := fun p member => shorter.subset member
  refine ⟨stack, chained.once.sublist shorter.sublist, fun p member => ?_, ?_⟩
  · obtain ⟨exists', object⟩ := chained.live p (part p member)
    exact ⟨surfaces p member exists', by rw [popup p member, object]⟩
  · refine (chained.chain_of_shorter shorter).imp_of_mem_tail_imp fun below above _ member => ?_
    rw [parent above member]
    exact id

theorem Chained.same (chained : st.Chained l) (array : st'.grab = st.grab)
    (count : st'.grabCount = st.grabCount)
    (surfaces : ∀ p ∈ l, p ∈ st.surfaces → p ∈ st'.surfaces)
    (popup : ∀ p ∈ l, (st'.surface p).xdgPopup = (st.surface p).xdgPopup)
    (parent : ∀ p ∈ l.tail, (st'.surface p).parent = (st.surface p).parent) : st'.Chained l :=
  chained.shrink List.prefix_rfl (chained.stack.of_eq array count) surfaces popup parent

theorem Chained.modify (chained : st.Chained l) (absent : s ∉ l) (f : Surface → Surface) :
    (st.modify s f).Chained l := by
  have other : ∀ p ∈ l, (st.modify s f).surface p = st.surface p :=
    fun p member => modify_other _ _ fun same => absent (same ▸ member)
  refine chained.same rfl rfl (fun _ _ => id) (fun p member => ?_) fun p member => ?_
  · rw [other p member]
  · rw [other p (List.mem_of_mem_tail member)]

theorem Keeps.chained (keeps : st.Keeps st') (chained : st.Chained l) :
    ∃ l', l' <+: l ∧ st'.Chained l' := by
  obtain ⟨l', shorter, stack⟩ := keeps.grabs l chained.stack chained.once
  exact ⟨l', shorter, chained.shrink shorter stack (fun p _ here => keeps.surfaces ▸ here)
    (fun p _ => keeps.popup p) fun p _ => keeps.parent p⟩

/-- What the popups and their grabs maintain. -/
structure Grabs (st : WindowStack) : Prop where
  -- Surfaces are used consistently.
  roles : st.Roles
  -- Popups do not belong to each other in a circle.
  rooted : st.Rooted
  -- The popups that hold a grab are chained.
  chained : ∃ l, st.Chained l

theorem Grabs.of_keeps (grabs : st.Grabs) (keeps : st.Keeps st') : st'.Grabs := by
  obtain ⟨l, chained⟩ := grabs.chained
  obtain ⟨l', -, chained'⟩ := keeps.chained chained
  refine ⟨keeps.roles grabs.roles, grabs.rooted.of_drop fun o => .inl ?_, l', chained'⟩
  exact climb_congr (keeps.popup o) fun _ => keeps.parent o

theorem Chained.absent (chained : st.Chained l) (none : (st.surface s).xdgPopup = false) :
    s ∉ l := by
  intro member
  rw [(chained.live s member).2] at none
  cases none

variable {f : Surface → Surface}

theorem Grabs.modify (grabs : st.Grabs) (roles : (st.modify s f).Roles)
    (before : (st.surface s).xdgPopup = false) (after : (f (st.surface s)).xdgPopup = false) :
    (st.modify s f).Grabs := by
  obtain ⟨l, chained⟩ := grabs.chained
  refine ⟨roles, grabs.rooted.of_drop fun o => .inl ?_, l, chained.modify (chained.absent before) f⟩
  by_cases same : o = s
  · subst same
    refine climb_congr ?_ fun object => ?_
    · rw [modify_same, before, after]
    · rw [before] at object
      cases object
  · exact climb_congr (by rw [modify_other _ _ same]) fun _ => by rw [modify_other _ _ same]

theorem takeWhile_ne_append {below above : List Nat} (absent : s ∉ below) :
    (below ++ s :: above).takeWhile (· ≠ s) = below := by
  rw [List.takeWhile_append_of_pos fun p member => by
    simpa using fun same : p = s => absent (same ▸ member)]
  simp

theorem takeWhile_ne_self (absent : s ∉ l) : l.takeWhile (· ≠ s) = l := by
  rw [List.takeWhile_eq_self_iff]
  intro p member
  simpa using fun same : p = s => absent (same ▸ member)

theorem notMem_takeWhile_ne (l : List Nat) (s : Nat) : s ∉ l.takeWhile (· ≠ s) := by
  intro member
  simpa using List.mem_takeWhile_imp member

theorem GrabStack.grabGone {unmap : WindowStack → Nat → WindowStack} (silent : Silent unmap)
    (grabs : st.GrabStack l) (once : l.Nodup) (s : Nat) :
    (WindowStack.grabGone unmap st s).GrabStack (l.takeWhile (· ≠ s)) := by
  by_cases member : s ∈ l
  · obtain ⟨below, above, rfl⟩ := List.append_of_mem member
    have absent : s ∉ below := by
      have apart := List.disjoint_of_nodup_append once
      exact fun below => apart below (List.mem_cons_self ..)
    rw [takeWhile_ne_append absent]
    exact grabs.gone silent once
  · rw [takeWhile_ne_self member, grabGone_absent fun i below held =>
      member ((grabs.mem_iff s).mpr ⟨i, below, held⟩)]
    exact grabs

theorem Chained.popupGrabOnSurfaceGone (chained : st.Chained l) (s : Nat) :
    (st.popupGrabOnSurfaceGone s).Chained (l.takeWhile (· ≠ s)) := by
  have keeps := keeps_popupGrabOnSurfaceGone st s
  exact chained.shrink (List.takeWhile_prefix _)
    (chained.stack.grabGone silent_surfaceUnmap chained.once s)
    (fun p _ here => keeps.surfaces ▸ here) (fun p _ => keeps.popup p) fun p _ => keeps.parent p

theorem climb_top (live : ∀ p ∈ l, (st.surface p).xdgPopup = true)
    (chain : l.IsChain fun below above => (st.surface above).parent = some below) {top : Nat}
    (last : l.getLast? = some top) (member : s ∈ l) :
    ∃ k < l.length, st.climb^[k] (some top) = some s := by
  induction l using List.reverseRecOn generalizing top with
  | nil => cases member
  | append_singleton l p ih =>
    rw [List.getLast?_concat, Option.some.injEq] at last
    subst last
    rcases List.mem_append.mp member with below | here
    · obtain ⟨q, last⟩ : ∃ q, l.getLast? = some q :=
        ⟨_, List.getLast?_eq_some_getLast (List.ne_nil_of_mem below)⟩
      obtain ⟨first, -, joined⟩ := List.isChain_append.mp chain
      obtain ⟨k, near, reached⟩ := ih (fun p' member => live p' (List.mem_append_left _ member))
        first last below
      refine ⟨k + 1, by rw [List.length_append, List.length_singleton]; omega, ?_⟩
      have step : st.climb (some p) = some q := by
        rw [climb, if_pos (live p (List.mem_append_right _ (List.mem_singleton.mpr rfl)))]
        exact joined q last p rfl
      rw [Function.iterate_succ_apply, step, reached]
    · rw [List.mem_singleton.mp here]
      exact ⟨0, by simp, rfl⟩

theorem GrabStack.getLast? (grabs : st.GrabStack l) {i : Fin maxPopupGrab}
    (top : (i.val : Int) = st.grabCount - 1) : l.getLast? = st.grab i := by
  have count := grabs.count
  have inside : i.val < l.length := by omega
  rw [grabs.stored i inside, List.getLast?_eq_getElem?, show l.length - 1 = i.val by omega,
    List.getElem?_eq_getElem inside]

theorem Grabs.fresh (grabs : st.Grabs) (chained : st.Chained l)
    (object : (st.surface s).xdgPopup = true) (granted : st.popupGrabParentOk s = true) :
    s ∉ l ∧ ∀ top ∈ l.getLast?, (st.surface s).parent = some top := by
  have count := chained.stack.count
  have empty : st.grabCount = 0 → l = [] := fun none => List.length_eq_zero_iff.mp (by omega)
  unfold popupGrabParentOk at granted
  split at granted
  · cases granted
  · next p parent =>
    split at granted
    · rw [empty (of_decide_eq_true granted)]
      simp
    · rw [empty (of_decide_eq_true granted)]
      simp
    · obtain ⟨i, -, found⟩ := List.any_eq_true.mp granted
      obtain ⟨top, held⟩ := of_decide_eq_true found
      have last : l.getLast? = some p := (chained.stack.getLast? top).trans held
      constructor
      · -- Otherwise the popup would belong to itself by way of those above it.
        intro member
        obtain ⟨k, near, reached⟩ :=
          climb_top (fun p member => (chained.live p member).2) chained.chain last member
        have bounded := chained.stack.bounded
        have few : maxPopupGrab ≤ maxSurfaces := by decide
        refine grabs.rooted s (k + 1) (by omega) (by omega) ?_
        show st.climb^[k + 1] (some s) = some s
        rw [Function.iterate_succ_apply, climb, if_pos object, parent, reached]
      · intro top' last'
        rw [last] at last'
        rw [parent, ← Option.some.inj last']
    · cases granted

theorem Chained.push (chained : st.Chained l) (room : st.grabCount < maxPopupGrab)
    (live : s ∈ st.surfaces ∧ (st.surface s).xdgPopup = true) (fresh : s ∉ l)
    (above : ∀ top ∈ l.getLast?, (st.surface s).parent = some top) :
    WindowStack.Chained { st with
      grab := fun i => if (i.val : Int) = st.grabCount then some s else st.grab i
      grabCount := st.grabCount + 1 } (l ++ [s]) := by
  have count := chained.stack.count
  refine ⟨⟨?_, ?_, fun i inside => ?_⟩, ?_, fun p member => ?_, ?_⟩
  · simp [count]
  · rw [List.length_append, List.length_singleton]
    omega
  · rw [List.length_append, List.length_singleton] at inside
    dsimp only
    split
    · next top =>
      have index : i.val = l.length := by omega
      simp [index]
    · next below =>
      have part : i.val < l.length := by omega
      rw [chained.stack.stored i part, List.getElem_append_left part]
  · exact List.nodup_append.mpr ⟨chained.once, List.nodup_singleton s, by
      intro p member q here same
      rw [List.mem_singleton] at here
      exact fresh (here ▸ same ▸ member)⟩
  · rcases List.mem_append.mp member with below | here
    · exact chained.live p below
    · rw [List.mem_singleton.mp here]
      exact live
  · refine chained.chain.append (List.isChain_singleton s) fun top last p head => ?_
    rw [List.head?_singleton, Option.mem_some] at head
    subst head
    exact above top last

theorem Grabs.popupResourceDestroy (grabs : st.Grabs) (roles : (st.popupResourceDestroy s).Roles) :
    (st.popupResourceDestroy s).Grabs := by
  have hidden := grabs.of_keeps (keeps_surfaceUnmap st s)
  have dropped := hidden.of_keeps (keeps_popupGrabOnSurfaceGone _ s)
  obtain ⟨l, chained⟩ := hidden.chained
  have gone := chained.popupGrabOnSurfaceGone s
  refine ⟨roles, dropped.rooted.of_drop fun o => ?_, _, gone.modify (notMem_takeWhile_ne l s) _⟩
  by_cases same : o = s
  · subst same
    refine .inr ?_
    unfold WindowStack.popupResourceDestroy
    rw [climb, modify_same]
    rfl
  · refine .inl (climb_congr ?_ fun _ => ?_)
    · unfold WindowStack.popupResourceDestroy
      rw [modify_other _ _ same]
    · unfold WindowStack.popupResourceDestroy
      rw [modify_other _ _ same]

/-- What is left when a surface has been destroyed, and which grabs remain. -/
theorem surfaceResourceDestroy_rest (st : WindowStack) (s : Nat) :
    (st.surfaceResourceDestroy s).surfaces = st.surfaces.erase s ∧
      ((st.surfaceResourceDestroy s).surface s).xdgPopup = false ∧
      (∀ o, o ≠ s →
        ((st.surfaceResourceDestroy s).surface o).xdgPopup = (st.surface o).xdgPopup) ∧
      (∀ o, o ≠ s → ((st.surfaceResourceDestroy s).surface o).parent = (st.surface o).parent ∨
        (st.surface o).parent = some s ∧
          ((st.surfaceResourceDestroy s).surface o).parent = none) ∧
      ∀ l, st.GrabStack l → l.Nodup →
        ∃ l', l' <+: l ∧ s ∉ l' ∧ (st.surfaceResourceDestroy s).GrabStack l' := by
  have hidden := keeps_surfaceUnmap { st with surfaces := st.surfaces.erase s } s
  unfold surfaceResourceDestroy
  generalize WindowStack.surfaceUnmap _ s = st' at hidden
  have dropped := keeps_popupGrabOnSurfaceGone
    ((st'.modify s fun x => { x with subsurface := none, layer := none }).orphan s) s
  have other : ∀ o, o ≠ s →
      (st'.modify s fun x => { x with subsurface := none, layer := none }).surface o =
        st'.surface o := fun o other => modify_other _ _ other
  refine ⟨?_, ?_, fun o away => ?_, fun o away => ?_, fun l grabs once => ?_⟩
  · exact dropped.surfaces.trans hidden.surfaces
  · rw [modify_same]
  · rw [modify_other _ _ away, dropped.popup, orphan]
    dsimp only
    split <;> (rw [other o away]; exact hidden.popup o)
  · rw [modify_other _ _ away, dropped.parent, orphan]
    dsimp only
    split
    · next child =>
      rw [other o away, hidden.parent o] at child
      exact .inr ⟨child.2, rfl⟩
    · rw [other o away]
      exact .inl (hidden.parent o)
  · obtain ⟨l', shorter, grabs'⟩ := hidden.grabs l (grabs.of_eq rfl rfl) once
    have stripped : ((st'.modify s fun x =>
        { x with subsurface := none, layer := none }).orphan s).GrabStack l' :=
      grabs'.of_eq rfl rfl
    have gone := stripped.grabGone silent_surfaceUnmap (once.sublist shorter.sublist) s
    exact ⟨_, (List.takeWhile_prefix _).trans shorter, notMem_takeWhile_ne l' s,
      gone.of_eq rfl rfl⟩

theorem parent_mem (chain : l.IsChain fun below above => (st.surface above).parent = some below)
    {p : Nat} (member : p ∈ l.tail) : ∃ q ∈ l, (st.surface p).parent = some q := by
  obtain ⟨i, inside, rfl⟩ := List.getElem_of_mem member
  rw [List.length_tail] at inside
  have link := chain.getElem i (by omega)
  refine ⟨l[i], List.getElem_mem _, ?_⟩
  rw [List.getElem_tail]
  exact link

theorem Grabs.surfaceResourceDestroy (grabs : st.Grabs) (s : Nat)
    (roles : (st.surfaceResourceDestroy s).Roles) : (st.surfaceResourceDestroy s).Grabs := by
  obtain ⟨surfaces, blank, popup, parent, shrunk⟩ := surfaceResourceDestroy_rest st s
  obtain ⟨l, chained⟩ := grabs.chained
  obtain ⟨l', shorter, gone, stack⟩ := shrunk l chained.stack chained.once
  have away : ∀ p ∈ l', p ≠ s := fun p member same => gone (same ▸ member)
  generalize st.surfaceResourceDestroy s = st' at *
  refine ⟨roles, grabs.rooted.of_drop fun o => ?_, l', ?_⟩
  · by_cases same : o = s
    · rw [same, climb, blank]
      exact .inr rfl
    · rw [climb, climb, popup o same]
      split
      · rcases parent o same with kept | ⟨-, lost⟩
        · exact .inl kept
        · exact .inr lost
      · exact .inl rfl
  · refine chained.shrink shorter stack (fun p member here => ?_)
      (fun p member => popup p (away p member)) fun p member => ?_
    · rw [surfaces]
      exact (List.mem_erase_of_ne (away p member)).mpr here
    · rcases parent p (away p (List.mem_of_mem_tail member)) with kept | ⟨below, -⟩
      · exact kept
      · obtain ⟨q, held, link⟩ := parent_mem (chained.chain_of_shorter shorter) member
        rw [link] at below
        exact absurd (Option.some.inj below) (away q held)

theorem Grabs.setParent (grabs : st.Grabs) (roles : (st.modify s f).Roles)
    (popup : (f (st.surface s)).xdgPopup = true)
    (apart : ∀ k < maxSurfaces, st.climb^[k] (f (st.surface s)).parent ≠ some s)
    (chained : (st.modify s f).Chained l) : (st.modify s f).Grabs := by
  refine ⟨roles, grabs.rooted.link ?_ apart, l, chained⟩
  funext o
  cases o with
  | none => rfl
  | some o =>
    by_cases same : o = s
    · subst same
      rw [Function.update_self, climb, modify_same, popup]
      rfl
    · rw [Function.update_of_ne (fun equal => same (Option.some.inj equal))]
      exact climb_congr (by rw [modify_other _ _ same]) fun _ => by rw [modify_other _ _ same]

theorem Grabs.xsGetPopup (grabs : st.Grabs) (parent : Option Nat)
    (roles : (st.xsGetPopup s parent).Roles) : (st.xsGetPopup s parent).Grabs := by
  revert roles
  unfold WindowStack.xsGetPopup
  split
  · exact fun _ => grabs
  · next free =>
    split
    · exact fun _ => grabs
    · next apart =>
      intro roles
      simp only [xsRoleTaken, decide_eq_true_eq, not_or, ne_eq, not_not, Bool.not_eq_true] at free
      obtain ⟨l, chained⟩ := grabs.chained
      refine grabs.setParent roles rfl (fun k near back => ?_)
        (chained.modify (chained.absent free.2.2) _)
      have ancestor := ancestor_of_climb near back
      cases parent with
      | none =>
        unfold surfaceIsAncestorOf at ancestor
        cases ancestor
      | some p => exact apart ⟨rfl, ancestor⟩

/-- A popup that holds a grab above another one is not given another parent. -/
def Attached (st : WindowStack) : Event → Prop
  | .layerGetPopup _ popup =>
    ∀ i : Fin maxPopupGrab, 0 < i.val → (i.val : Int) < st.grabCount → st.grab i ≠ some popup
  | _ => True

instance decidableAttached (st : WindowStack) (event : Event) : Decidable (st.Attached event) := by
  unfold Attached
  induction event using Event.casesOn <;> infer_instance

theorem Grabs.layerSurfaceGetPopup (grabs : st.Grabs) {popup : Nat}
    (allowed : st.Allowed (.layerGetPopup s popup))
    (attached : st.Attached (.layerGetPopup s popup))
    (roles : (st.layerSurfaceGetPopup s popup).Roles) :
    (st.layerSurfaceGetPopup s popup).Grabs := by
  obtain ⟨-, panel, -, object⟩ := allowed
  have layer := (grabs.roles.proper s).layer panel
  have role := ((grabs.roles.proper popup).popup object).1
  revert roles
  unfold WindowStack.layerSurfaceGetPopup
  rw [if_neg (fun other => other role)]
  intro roles
  obtain ⟨l, chained⟩ := grabs.chained
  have plain : (st.surface s).xdgPopup = false :=
    (grabs.roles.proper s).popup_of_role (by rw [layer]; decide)
  refine grabs.setParent (l := l) roles object (fun k _ => ?_)
    (chained.same rfl rfl (fun _ _ => id) (fun p _ => ?_) fun p member => ?_)
  · cases k with
    | zero =>
      intro same
      rw [← Option.some.inj same, layer] at role
      cases role
    | succ k =>
      rw [Function.iterate_succ_apply, climb, plain, if_neg (by decide), climb_none]
      exact nofun
  · by_cases same : p = popup
    · rw [same, modify_same]
    · rw [modify_other _ _ same]
  · have other : p ≠ popup := by
      obtain ⟨i, inside, rfl⟩ := List.getElem_of_mem member
      rw [List.length_tail] at inside
      have count := chained.stack.count
      have bounded := chained.stack.bounded
      rw [List.getElem_tail]
      intro same
      refine attached ⟨i + 1, by omega⟩ (by simp) (by simp only; omega) ?_
      rw [chained.stack.stored ⟨i + 1, by omega⟩ (by simp only; omega), same]
    rw [modify_other _ _ other]

theorem Grabs.plain (grabs : st.Grabs) (roles : (st.modify s f).Roles)
    (parent : ∀ x, (f x).parent = x.parent) (popup : ∀ x, (f x).xdgPopup = x.xdgPopup) :
    (st.modify s f).Grabs :=
  grabs.of_keeps (keeps_modify parent popup fun _ => roles)

/-- Every event maintains the grabs if it does not take a popup out of the middle of its chain. -/
theorem Grabs.next (grabs : st.Grabs) (event : Event) (allowed : st.Allowed event)
    (attached : st.Attached event) : (st.next event).Grabs := by
  have after := grabs.roles.next event allowed
  have proper := grabs.roles.proper
  revert after
  cases event with
  | create s =>
    intro after
    obtain ⟨l, chained⟩ := grabs.chained
    refine ⟨after, grabs.rooted.of_drop fun o => .inl rfl, l, chained.same rfl rfl ?_ ?_ ?_⟩
    · exact fun p _ here => List.mem_cons_of_mem s here
    · exact fun _ _ => rfl
    · exact fun _ _ => rfl
  | destroy s => exact grabs.surfaceResourceDestroy s
  | attach s buffer =>
    rw [WindowStack.next, surfaceAttach]
    exact fun after => grabs.plain after (fun _ => rfl) fun _ => rfl
  | commit s input =>
    rw [WindowStack.next, surfaceCommit]
    split
    · exact fun after => grabs.plain after (fun _ => rfl) fun _ => rfl
    · exact fun _ => grabs.of_keeps (keeps_commitNested input st.waiting st s)
  | bufferDestroyed s =>
    have cleared : (st.modify s fun x => { x with currentBuffer := false }).Grabs :=
      grabs.plain (grabs.roles.modify s (fun proper => { proper with }) fun _ => rfl)
        (fun _ => rfl) fun _ => rfl
    rw [WindowStack.next, onBufferDestroyed]
    split
    · exact fun _ => cleared.of_keeps (keeps_surfaceUnmap _ s)
    · exact fun _ => cleared
  | pendingBufferDestroyed s =>
    rw [WindowStack.next, onPendingBufferDestroyed]
    exact fun after => grabs.plain after (fun _ => rfl) fun _ => rfl
  | getToplevel s =>
    rw [WindowStack.next, xsGetToplevel]
    split
    · exact fun _ => grabs
    · exact fun after => grabs.plain after (fun _ => rfl) fun _ => rfl
  | setParent s parent =>
    have object : (st.surface s).xdgToplevel = true := by
      cases parent with
      | none => exact allowed.2
      | some parent => exact allowed.2.1
    have window : (st.surface s).xdgPopup = false :=
      (proper s).popup_of_role (by rw [((proper s).toplevel object).1]; decide)
    rw [WindowStack.next, xtSetParent]
    split
    · exact fun _ => grabs
    · exact fun after => grabs.modify after window window
  | toplevelDestroyed s =>
    rw [WindowStack.next, toplevelResourceDestroy]
    exact fun after => (grabs.of_keeps (keeps_surfaceUnmap st s)).plain after (fun _ => rfl)
      fun _ => rfl
  | getPopup s parent => exact grabs.xsGetPopup parent
  | grab s =>
    rw [WindowStack.next, popupGrab]
    split
    · exact fun _ => grabs
    · next granted =>
      intro after
      simp only [not_or, ne_eq, not_not, Bool.not_eq_false, not_le] at granted
      obtain ⟨l, chained⟩ := grabs.chained
      obtain ⟨fresh, above⟩ := grabs.fresh chained allowed.2 granted.2.1
      refine ⟨after, grabs.rooted.of_drop fun o => .inl rfl, _,
        chained.push granted.2.2 allowed fresh above⟩
  | popupDestroyed s => exact grabs.popupResourceDestroy
  | getSubsurface s parent =>
    rw [WindowStack.next, WindowStack.getSubsurface]
    split
    · exact fun _ => grabs
    · next free =>
      split
      · exact fun _ => grabs
      · simp only [not_or, ne_eq, not_not] at free
        have plain := ((proper s).free (.inl free.1)).2.2.2.1
        exact fun after => grabs.modify after plain plain
  | placeAbove s => exact fun _ => grabs.of_keeps (keeps_surfaceRaise st s)
  | placeBelow s => exact fun _ => grabs.of_keeps (.of_eq rfl rfl rfl rfl fun _ => id)
  | setSync s =>
    rw [WindowStack.next, subsurfaceSetSync]
    exact fun after => grabs.plain after (fun _ => rfl) fun _ => rfl
  | setDesync s input =>
    have desync : (st.modify s fun x =>
        { x with subsurface := x.subsurface.map ({ · with sync := false }) }).Grabs := by
      refine grabs.plain (grabs.roles.modify s (fun proper => ?_) fun _ => rfl) (fun _ => rfl)
        fun _ => rfl
      exact { proper with subsurface := by simpa using proper.subsurface }
    rw [WindowStack.next, subsurfaceSetDesync]
    split
    · exact fun _ => (desync.of_keeps (keeps_release _ s)).of_keeps (keeps_commitNested input _ _ s)
    · exact fun _ => desync
  | subsurfaceDestroyed s =>
    have hidden := grabs.of_keeps (keeps_surfaceUnmap st s)
    have plain : ((st.surfaceUnmap s).surface s).xdgPopup = false := by
      rw [(keeps_surfaceUnmap st s).popup]
      exact (proper s).popup_of_role (by rw [(proper s).subsurface allowed.2]; decide)
    rw [WindowStack.next, subsurfaceResourceDestroy]
    exact fun after => hidden.modify after plain plain
  | getLayerSurface s layer =>
    rw [WindowStack.next, WindowStack.getLayerSurface]
    split
    · exact fun _ => grabs
    · exact fun after => grabs.plain after (fun _ => rfl) fun _ => rfl
  | setLayer s layer =>
    rw [WindowStack.next, layerSurfaceSetLayer]
    exact fun after => grabs.plain after (fun _ => rfl) fun _ => rfl
  | layerGetPopup s popup => exact grabs.layerSurfaceGetPopup allowed attached
  | layerDestroyed s =>
    rw [WindowStack.next, layerSurfaceResDestroy]
    split
    · exact fun _ => grabs
    · exact fun after => (grabs.of_keeps (keeps_surfaceUnmap st s)).plain after (fun _ => rfl)
        fun _ => rfl
  | getLockSurface s granted =>
    rw [WindowStack.next, slockGetLockSurface]
    split
    · exact fun _ => grabs
    · intro after
      obtain ⟨l, chained⟩ := grabs.chained
      have same : ∀ o, (({ st with lockSurface := some s }.modify s fun x =>
          { x with role := .lock }).surface o).xdgPopup = (st.surface o).xdgPopup ∧
          (({ st with lockSurface := some s }.modify s fun x =>
            { x with role := .lock }).surface o).parent = (st.surface o).parent := by
        intro o
        by_cases here : o = s
        · rw [here, modify_same]
          exact ⟨rfl, rfl⟩
        · rw [modify_other _ _ here]
          exact ⟨rfl, rfl⟩
      exact ⟨after, grabs.rooted.of_drop fun o => .inl (climb_congr (same o).1 fun _ => (same o).2),
        l, chained.same rfl rfl (fun _ _ => id) (fun p _ => (same p).1) fun p _ => (same p).2⟩
  | lockSurfaceDestroyed s =>
    have unlocked : Grabs { st with lockSurface := none } :=
      grabs.of_keeps (.of_eq rfl rfl rfl rfl fun _ held => by cases held)
    rw [WindowStack.next, slockSurfaceResourceDestroy]
    exact fun after => unlocked.plain after (fun _ => rfl) fun _ => rfl
  | adopt s overrideRedirect =>
    exact fun _ => grabs.of_keeps (keeps_xwmAdoptSurface st s overrideRedirect)
  | unadopt s =>
    rw [WindowStack.next, xwmUnadoptSurface]
    split
    · exact fun after => (grabs.of_keeps (keeps_surfaceUnmap st s)).plain after (fun _ => rfl)
        fun _ => rfl
    · exact fun _ => grabs
  | raise s => exact fun _ => grabs.of_keeps (keeps_surfaceRaise st s)
  | pressOutside => exact fun _ => grabs.of_keeps (keeps_popupGrabDismissAll st)

end WindowStack

end Xios
