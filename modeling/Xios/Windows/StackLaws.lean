import Xios.Windows.Stack

/-! Mapping, hiding, raising and committing surfaces keep the list of mapped surfaces in order. -/

namespace Xios

/-- What the role of a surface says about its other fields. -/
structure Surface.Proper (x : Surface) : Prop where
  -- Only some roles are ever shown.
  shown : x.mapped = true → x.role ≠ .none ∧ x.role ≠ .lock
  -- X windows are windows and menus.
  foreign : x.isXwayland = true → x.role = .toplevel ∨ x.role = .popup
  -- A role object comes with its role, and not for X windows.
  toplevel : x.xdgToplevel = true → x.role = .toplevel ∧ x.isXwayland = false
  popup : x.xdgPopup = true → x.role = .popup ∧ x.isXwayland = false
  subsurface : x.subsurface.isSome = true → x.role = .subsurface
  layer : x.layer.isSome = true → x.role = .layer

theorem Surface.band_of_role {x : Surface} (role : x.role ≠ .layer) : x.band = 2 := by
  unfold Surface.band
  split
  · rename_i isLayer _
    exact absurd isLayer role
  · rfl

theorem Surface.band_congr {x y : Surface} (role : y.role = x.role)
    (layer : y.layer.map LayerState.layer = x.layer.map LayerState.layer) : y.band = x.band := by
  obtain ⟨xRole, _, xLayer⟩ := x
  obtain ⟨yRole, _, yLayer⟩ := y
  simp only at role layer
  subst role
  cases xLayer with
  | none =>
    rw [Option.map_none, Option.map_eq_none_iff] at layer
    rw [layer]
    rfl
  | some old =>
    obtain ⟨new, found, same⟩ := Option.map_eq_some_iff.mp layer
    rw [found]
    cases yRole <;> simp [Surface.band, same]

@[simp]
theorem Surface.hide_role (x : Surface) : x.hide.role = x.role := rfl

@[simp]
theorem Surface.hide_mapped (x : Surface) : x.hide.mapped = false := rfl

@[simp]
theorem Surface.hide_subsurface (x : Surface) : x.hide.subsurface = x.subsurface := rfl

theorem Surface.hide_band (x : Surface) : x.hide.band = x.band := by
  refine Surface.band_congr rfl ?_
  unfold Surface.hide
  split
  · rw [Option.map_map]
    rfl
  · rfl

theorem Surface.hide_hide (x : Surface) : x.hide.hide = x.hide := by
  unfold Surface.hide
  split
  · simp only [Option.map_map]
    rfl
  · rfl

theorem Surface.Proper.hide {x : Surface} (proper : x.Proper) : x.hide.Proper := by
  obtain ⟨-, foreign, toplevel, popup, subsurface, layer⟩ := proper
  refine ⟨fun shown => absurd shown (by simp), foreign, toplevel, popup, subsurface, ?_⟩
  intro kept
  refine layer ?_
  unfold Surface.hide at kept
  split at kept
  · simpa using kept
  · exact kept

theorem Surface.Proper.free {x : Surface} (proper : x.Proper)
    (role : x.role = .none ∨ x.role = .lock) :
    x.mapped = false ∧ x.isXwayland = false ∧ x.xdgToplevel = false ∧ x.xdgPopup = false ∧
      x.subsurface = none ∧ x.layer = none := by
  obtain ⟨shown, foreign, toplevel, popup, subsurface, layer⟩ := proper
  cases role with
  | inl role | inr role =>
    simp only [role] at shown foreign toplevel popup subsurface layer
    simp_all

theorem Surface.Proper.adoptable {x : Surface} (proper : x.Proper)
    (free : ¬(x.role ≠ .none ∧ x.isXwayland = false)) :
    x.xdgToplevel = false ∧ x.xdgPopup = false ∧ x.subsurface = none ∧ x.layer = none ∧
      x.role ≠ .lock ∧ (x.mapped = true → x.role ≠ .layer) := by
  by_cases role : x.role = .none
  · obtain ⟨hidden, -, toplevel, popup, subsurface, layer⟩ := proper.free (.inl role)
    simp_all
  · have foreign : x.isXwayland = true := by
      by_contra native
      exact free ⟨role, by simpa using native⟩
    obtain ⟨-, windows, toplevel, popup, subsurface, layer⟩ := proper
    cases windows foreign with
    | inl window => simp_all
    | inr menu => simp_all

namespace WindowStack

/-- The list of mapped surfaces says what is shown, and in which order. -/
structure Stacked (st : WindowStack) : Prop where
  -- A surface is in the list exactly if its flag says so.
  listed : ∀ s, s ∈ st.mapped ↔ (st.surface s).mapped = true
  -- No surface is in the list twice.
  once : st.mapped.Nodup
  -- The list is not longer than its array.
  bounded : st.mapped.length ≤ maxSurfaces
  -- From bottom to top the bands never go down.
  ordered : Banded.Sorted st.surfaceBand st.mapped

/-- What the windows maintain. -/
structure Sound (st : WindowStack) : Prop where
  -- The list of mapped surfaces is in order.
  stacked : st.Stacked
  proper : ∀ s, (st.surface s).Proper
  locked : ∀ s, st.lockSurface = some s → (st.surface s).role = .lock

@[simp]
theorem modify_same (st : WindowStack) (s : Nat) (f : Surface → Surface) :
    (st.modify s f).surface s = f (st.surface s) := by
  simp [modify]

variable {s : Nat}

theorem modify_other (st : WindowStack) {o : Nat} (f : Surface → Surface) (other : o ≠ s) :
    (st.modify s f).surface o = st.surface o := by
  simp [modify, other]

variable {st st' : WindowStack}

theorem Sound.of_eq (sound : st.Sound) (surface : st'.surface = st.surface)
    (mapped : st'.mapped = st.mapped)
    (lock : ∀ s, st'.lockSurface = some s → st.lockSurface = some s) : st'.Sound := by
  obtain ⟨⟨listed, once, bounded, ordered⟩, proper, locked⟩ := sound
  refine ⟨⟨?_, ?_, ?_, ?_⟩, ?_, ?_⟩
  · rwa [surface, mapped]
  · rwa [mapped]
  · rwa [mapped]
  · rw [mapped]
    have bands : st'.surfaceBand = st.surfaceBand := by
      funext s
      unfold surfaceBand
      rw [surface]
    rwa [bands]
  · rwa [surface]
  · intro s shown
    rw [surface]
    exact locked s (lock s shown)

theorem sorted_congr {band band' : Nat → Nat} {l : List Nat} (sorted : Banded.Sorted band l)
    (same : ∀ s ∈ l, band' s = band s) : Banded.Sorted band' l := by
  refine List.Pairwise.imp_of_mem ?_ sorted
  intro a b first second below
  rw [same a first, same b second]
  exact below

theorem Sound.modify (sound : st.Sound) (s : Nat) (f : Surface → Surface)
    (held : st.lockSurface = some s → (f (st.surface s)).role = .lock)
    (flag : (f (st.surface s)).mapped = (st.surface s).mapped)
    (band : (st.surface s).mapped = true → (f (st.surface s)).band = (st.surface s).band)
    (proper : (f (st.surface s)).Proper) : (st.modify s f).Sound := by
  refine ⟨⟨?_, sound.stacked.once, sound.stacked.bounded, ?_⟩, ?_, ?_⟩
  · intro o
    have listed := sound.stacked.listed o
    by_cases same : o = s
    · rw [same] at listed ⊢
      rw [modify_same, flag]
      exact listed
    · rw [modify_other st f same]
      exact listed
  · refine sorted_congr sound.stacked.ordered ?_
    intro o member
    unfold surfaceBand
    by_cases same : o = s
    · rw [same] at member ⊢
      rw [modify_same]
      exact band ((sound.stacked.listed s).mp member)
    · rw [modify_other st f same]
  · intro o
    by_cases same : o = s
    · rw [same, modify_same]
      exact proper
    · rw [modify_other st f same]
      exact sound.proper o
  · intro o shown
    by_cases same : o = s
    · rw [same, modify_same]
      exact held (same ▸ shown)
    · rw [modify_other st f same]
      exact sound.locked o shown

theorem Sound.setOther (sound : st.Sound) (s : Nat) {f : Surface → Surface}
    (flag : (f (st.surface s)).mapped = (st.surface s).mapped)
    (role : (f (st.surface s)).role = (st.surface s).role)
    (layer : (f (st.surface s)).layer.map LayerState.layer =
      (st.surface s).layer.map LayerState.layer)
    (proper : (f (st.surface s)).Proper) : (st.modify s f).Sound := by
  refine sound.modify s f ?_ flag (fun _ => Surface.band_congr role layer) proper
  intro held
  rw [role]
  exact sound.locked s held

theorem Sound.reorder (sound : st.Sound) {l : List Nat} (perm : l.Perm st.mapped)
    (sorted : Banded.Sorted st.surfaceBand l) : Sound { st with mapped := l } := by
  refine ⟨⟨?_, ?_, ?_, sorted⟩, sound.proper, sound.locked⟩
  · intro s
    rw [perm.mem_iff]
    exact sound.stacked.listed s
  · exact perm.nodup_iff.mpr sound.stacked.once
  · rw [perm.length_eq]
    exact sound.stacked.bounded

/-- A surface is shown on top of its band, so the stack stays sorted. -/
theorem Sound.surfaceMap (sound : st.Sound) (s : Nat)
    (role : (st.surface s).role ≠ .none ∧ (st.surface s).role ≠ .lock) :
    (st.surfaceMap s).Sound := by
  unfold WindowStack.surfaceMap
  split
  · exact sound
  · rename_i room
    simp only [not_or, Bool.not_eq_true, not_le] at room
    obtain ⟨hidden, room⟩ := room
    have perm := Banded.insert_perm st.surfaceBand s st.mapped
    have fresh : s ∉ st.mapped := by
      rw [sound.stacked.listed s, hidden]
      simp
    refine ⟨⟨?_, ?_, ?_, ?_⟩, ?_, ?_⟩
    · intro o
      show o ∈ Banded.insert st.surfaceBand s st.mapped ↔ _
      rw [perm.mem_iff, List.mem_cons, sound.stacked.listed o]
      by_cases same : o = s
      · simp [same]
      · rw [modify_other _ _ same]
        simp [same]
    · exact perm.nodup_iff.mpr (List.nodup_cons.mpr ⟨fresh, sound.stacked.once⟩)
    · show (Banded.insert st.surfaceBand s st.mapped).length ≤ maxSurfaces
      rw [perm.length_eq, List.length_cons]
      exact room
    · -- The flag has no part in the band.
      refine sorted_congr (sound.stacked.ordered.insert s) ?_
      intro o _
      unfold surfaceBand
      by_cases same : o = s
      · rw [same, modify_same]
        rfl
      · rw [modify_other _ _ same]
    · intro o
      by_cases same : o = s
      · rw [same, modify_same]
        exact { sound.proper s with shown := fun _ => role }
      · rw [modify_other _ _ same]
        exact sound.proper o
    · intro o shown
      have locked := sound.locked o shown
      by_cases same : o = s
      · rw [same, modify_same]
        exact same ▸ locked
      · rw [modify_other _ _ same]
        exact locked

theorem Sound.surfaceHide (sound : st.Sound) (s : Nat) : (st.surfaceHide s).Sound := by
  have once := sound.stacked.once
  refine ⟨⟨?_, ?_, ?_, ?_⟩, ?_, ?_⟩
  · intro o
    show o ∈ st.mapped.erase s ↔ _
    rw [once.mem_erase_iff, sound.stacked.listed o]
    unfold WindowStack.surfaceHide
    by_cases same : o = s
    · rw [same, modify_same]
      simp
    · rw [modify_other _ _ same]
      simp [same]
  · exact once.erase s
  · exact List.length_erase_le.trans sound.stacked.bounded
  · refine sorted_congr (sound.stacked.ordered.sublist List.erase_sublist) ?_
    intro o _
    unfold surfaceBand WindowStack.surfaceHide
    by_cases same : o = s
    · rw [same, modify_same]
      exact Surface.hide_band _
    · rw [modify_other _ _ same]
  · intro o
    unfold WindowStack.surfaceHide
    by_cases same : o = s
    · rw [same, modify_same]
      exact (sound.proper s).hide
    · rw [modify_other _ _ same]
      exact sound.proper o
  · intro o shown
    have locked := sound.locked o shown
    unfold WindowStack.surfaceHide
    by_cases same : o = s
    · rw [same, modify_same]
      exact same ▸ locked
    · rw [modify_other _ _ same]
      exact locked

/-- One state follows another by hiding surfaces and dropping grabs. -/
structure Hides (st st' : WindowStack) : Prop where
  -- Every surface is as it was, or hidden.
  surface : ∀ o, st'.surface o = st.surface o ∨ st'.surface o = (st.surface o).hide
  -- No surface comes or goes.
  surfaces : st'.surfaces = st.surfaces
  grabs : st'.grabCount ≤ st.grabCount
  -- No lock screen is put up.
  lock : ∀ s, st'.lockSurface = some s → st.lockSurface = some s
  -- The windows stay sound.
  sound : st.Sound → st'.Sound

theorem Hides.refl (st : WindowStack) : st.Hides st :=
  ⟨fun _ => .inl rfl, rfl, le_refl _, fun _ => id, id⟩

theorem Hides.trans {st'' : WindowStack} (first : st.Hides st') (second : st'.Hides st'') :
    st.Hides st'' := by
  refine ⟨?_, second.surfaces.trans first.surfaces, second.grabs.trans first.grabs,
    fun s shown => first.lock s (second.lock s shown), second.sound ∘ first.sound⟩
  intro o
  cases first.surface o with
  | inl same =>
    rw [← same]
    exact second.surface o
  | inr hidden =>
    -- What is hidden already stays what it is when it is hidden again.
    right
    cases second.surface o with
    | inl same => rw [same, hidden]
    | inr again => rw [again, hidden, Surface.hide_hide]

theorem Hides.mapped (hides : st.Hides st') (hidden : (st.surface s).mapped = false) :
    (st'.surface s).mapped = false := by
  cases hides.surface s with
  | inl same => rw [same, hidden]
  | inr gone => rw [gone, Surface.hide_mapped]

theorem Hides.blind {γ : Type*} (hides : st.Hides st') {g : Surface → γ}
    (unseen : ∀ x, g x.hide = g x) (s : Nat) : g (st'.surface s) = g (st.surface s) := by
  cases hides.surface s with
  | inl same => rw [same]
  | inr gone => rw [gone, unseen]

theorem Hides.of_eq (surface : st'.surface = st.surface) (mapped : st'.mapped = st.mapped)
    (surfaces : st'.surfaces = st.surfaces) (grabs : st'.grabCount ≤ st.grabCount)
    (lock : ∀ s, st'.lockSurface = some s → st.lockSurface = some s) : st.Hides st' :=
  ⟨fun o => .inl (by rw [surface]), surfaces, grabs, lock,
    fun sound => sound.of_eq surface mapped lock⟩

theorem hides_surfaceHide (st : WindowStack) (s : Nat) : st.Hides (st.surfaceHide s) := by
  refine ⟨?_, rfl, le_refl _, fun _ => id, fun sound => sound.surfaceHide s⟩
  intro o
  unfold surfaceHide
  by_cases same : o = s
  · rw [same, modify_same]
    exact .inr rfl
  · rw [modify_other _ _ same]
    exact .inl rfl

theorem hides_unmapWith {gone : WindowStack → Nat → WindowStack}
    (told : ∀ st s, Hides st (gone st s)) (st : WindowStack) (s : Nat) :
    st.Hides (unmapWith gone st s) ∧ ((unmapWith gone st s).surface s).mapped = false := by
  have unlocked : st.Hides
      (if st.lockSurface = some s then { st with lockSurface := none } else st) := by
    split
    · exact .of_eq rfl rfl rfl (le_refl _) fun _ shown => absurd shown (by simp)
    · exact .refl st
  unfold unmapWith
  generalize (if st.lockSurface = some s then { st with lockSurface := none } else st) = st'
    at unlocked
  simp only
  split
  · have asked : st'.Hides (if (st'.surface s).role = .popup then gone st' s else st') := by
      split
      · exact told st' s
      · exact .refl st'
    refine ⟨unlocked.trans (asked.trans (hides_surfaceHide _ s)), ?_⟩
    unfold surfaceHide
    rw [modify_same, Surface.hide_mapped]
  · rename_i hidden
    exact ⟨unlocked, by simpa using hidden⟩

theorem hides_dismiss {unmap : WindowStack → Nat → WindowStack}
    (unmaps : ∀ st s, Hides st (unmap st s)) (st : WindowStack) (popup : Option Nat) :
    st.Hides (dismiss unmap st popup) := by
  cases popup with
  | none => exact .refl st
  | some p =>
    simp only [dismiss]
    split
    · exact unmaps st p
    · exact .refl st

theorem hides_foldl {β : Type*} {step : WindowStack → β → WindowStack}
    (steps : ∀ st b, Hides st (step st b)) (l : List β) (st : WindowStack) :
    st.Hides (l.foldl step st) := by
  induction l generalizing st with
  | nil => exact .refl st
  | cons b rest ih => exact (steps st b).trans (ih (step st b))

theorem hides_popGrab {unmap : WindowStack → Nat → WindowStack}
    (unmaps : ∀ st s, Hides st (unmap st s)) (st : WindowStack) (i : Fin maxPopupGrab) :
    st.Hides (popGrab unmap st i) := by
  have dropped : st.Hides { (st.takeGrab i).2 with grabCount := st.grabCount - 1 } :=
    .of_eq rfl rfl rfl (by show st.grabCount - 1 ≤ st.grabCount; omega) fun _ => id
  exact dropped.trans (hides_dismiss unmaps _ _)

theorem hides_grabGone {unmap : WindowStack → Nat → WindowStack}
    (unmaps : ∀ st s, Hides st (unmap st s)) (st : WindowStack) (s : Nat) :
    st.Hides (grabGone unmap st s) := by
  unfold grabGone
  split
  · exact .refl st
  · rename_i index _
    refine (hides_foldl (hides_popGrab unmaps) (st.grabsAbove index.val) st).trans ?_
    refine .of_eq rfl rfl rfl ?_ fun _ => id
    simp only [takeGrab]
    omega

theorem hides_unmapNested (grabs : Nat) (st : WindowStack) (s : Nat) :
    st.Hides (unmapNested grabs st s) ∧ ((unmapNested grabs st s).surface s).mapped = false := by
  -- The induction is on the grabs, each of which may unmap one more popup.
  induction grabs generalizing st s with
  | zero => exact hides_unmapWith (fun st _ => .refl st) st s
  | succ grabs ih =>
    exact hides_unmapWith (fun st s => hides_grabGone (fun st s => (ih st s).1) st s) st s

theorem hides_surfaceUnmap (st : WindowStack) (s : Nat) :
    st.Hides (st.surfaceUnmap s) ∧ ((st.surfaceUnmap s).surface s).mapped = false :=
  hides_unmapNested _ st s

theorem lock_surfaceUnmap (st : WindowStack) (s : Nat) :
    (st.surfaceUnmap s).lockSurface ≠ some s := by
  have other : ∀ gone : WindowStack → Nat → WindowStack, (∀ st s, Hides st (gone st s)) →
      (unmapWith gone st s).lockSurface ≠ some s := by
    intro gone told
    unfold unmapWith
    have cleared : (if st.lockSurface = some s then { st with lockSurface := none }
        else st).lockSurface ≠ some s := by
      split
      · simp
      · rename_i unlocked
        exact unlocked
    generalize (if st.lockSurface = some s then { st with lockSurface := none } else st) = st'
      at cleared
    simp only
    split
    · intro shown
      have before := (hides_surfaceHide _ s).lock s shown
      split at before
      · exact cleared ((told st' s).lock s before)
      · exact cleared before
    · exact cleared
  unfold surfaceUnmap
  cases st.grabCount.toNat with
  | zero => exact other _ fun st _ => .refl st
  | succ grabs =>
    exact other _ fun st s => hides_grabGone (fun st s => (hides_unmapNested grabs st s).1) st s

theorem hides_popupGrabOnSurfaceGone (st : WindowStack) (s : Nat) :
    st.Hides (st.popupGrabOnSurfaceGone s) :=
  hides_grabGone (fun st s => (hides_surfaceUnmap st s).1) st s

theorem Sound.popupGrabDismissAll (sound : st.Sound) : st.popupGrabDismissAll.Sound := by
  unfold WindowStack.popupGrabDismissAll
  split
  · exact sound
  · have steps : ∀ (st : WindowStack) (i : Fin maxPopupGrab),
        st.Hides (dismiss surfaceUnmap (st.takeGrab i).2 (st.takeGrab i).1) := by
      intro st i
      have forgot : st.Hides (st.takeGrab i).2 := .of_eq rfl rfl rfl (le_refl _) fun _ => id
      exact forgot.trans (hides_dismiss (fun st s => (hides_surfaceUnmap st s).1) _ _)
    exact ((hides_foldl steps _ st).sound sound).of_eq rfl rfl fun _ => id

theorem Sound.surfaceRaiseOne (sound : st.Sound) (s : Nat) : (st.surfaceRaiseOne s).Sound :=
  sound.reorder (Banded.raise_perm _ s _) (sound.stacked.ordered.raise s)

theorem Sound.surfaceLowerOne (sound : st.Sound) (s : Nat) : (st.surfaceLowerOne s).Sound :=
  sound.reorder (Banded.lower_perm _ s _) (sound.stacked.ordered.lower s)

theorem Sound.surfaceRaiseChildren (sound : st.Sound) (depth s : Nat) :
    (surfaceRaiseChildren depth st s).Sound := by
  -- The induction is on the depth, and inside it the children are raised one after the other.
  induction depth generalizing st s with
  | zero => exact sound.surfaceRaiseOne s
  | succ depth ih =>
    simp only [WindowStack.surfaceRaiseChildren]
    have raised := sound.surfaceRaiseOne s
    generalize st.surfaceRaiseOne s = st' at raised
    generalize st'.children s = kids
    induction kids generalizing st' with
    | nil => exact raised
    | cons kid rest step => exact step _ (ih raised kid)

theorem Sound.surfaceRaise (sound : st.Sound) (s : Nat) : (st.surfaceRaise s).Sound :=
  sound.surfaceRaiseChildren maxSurfaces s

/-- The commit of a surface waits. -/
def Pending (st : WindowStack) (s : Nat) : Prop :=
  (st.surface s).subsurface.any SubsurfaceState.cachePending = true

/-- One state follows another by applying commits. -/
structure Settles (st st' : WindowStack) : Prop where
  -- No surface comes or goes.
  surfaces : st'.surfaces = st.surfaces
  -- No further commit waits.
  pending : ∀ o, st'.Pending o → st.Pending o
  -- The windows stay sound.
  sound : st.Sound → st'.Sound

theorem Settles.refl (st : WindowStack) : st.Settles st :=
  ⟨rfl, fun _ => id, id⟩

theorem Settles.trans {st'' : WindowStack} (first : st.Settles st') (second : st'.Settles st'') :
    st.Settles st'' :=
  ⟨second.surfaces.trans first.surfaces, fun o waits => first.pending o (second.pending o waits),
    second.sound ∘ first.sound⟩

theorem Hides.settles (hides : st.Hides st') : st.Settles st' := by
  refine ⟨hides.surfaces, ?_, hides.sound⟩
  intro o waits
  unfold Pending at waits ⊢
  cases hides.surface o with
  | inl same => rwa [same] at waits
  | inr hidden => rwa [hidden, Surface.hide_subsurface] at waits

theorem settles_modify {f : Surface → Surface}
    (subsurface : (f (st.surface s)).subsurface = (st.surface s).subsurface)
    (sound : st.Sound → (st.modify s f).Sound) : st.Settles (st.modify s f) := by
  refine ⟨rfl, ?_, sound⟩
  intro o waits
  unfold Pending at waits ⊢
  by_cases same : o = s
  · rw [same, modify_same, subsurface] at waits
    rwa [same]
  · rwa [modify_other _ _ same] at waits

theorem settles_surfaceMap (role : (st.surface s).role ≠ .none ∧ (st.surface s).role ≠ .lock) :
    st.Settles (st.surfaceMap s) := by
  refine ⟨?_, ?_, fun sound => sound.surfaceMap s role⟩
  · unfold surfaceMap
    split <;> rfl
  · intro o waits
    unfold surfaceMap at waits
    split at waits
    · exact waits
    · unfold Pending at waits ⊢
      by_cases same : o = s
      · rw [same, modify_same] at waits
        rwa [same]
      · rwa [modify_other _ _ same] at waits

theorem settles_xwmAdoptSurface (st : WindowStack) (s : Nat) (overrideRedirect : Bool) :
    st.Settles (st.xwmAdoptSurface s overrideRedirect) := by
  unfold xwmAdoptSurface
  split
  · exact .refl st
  · rename_i free
    have role : (if overrideRedirect then SurfaceRole.popup else .toplevel) ≠ .none ∧
        (if overrideRedirect then SurfaceRole.popup else .toplevel) ≠ .lock ∧
        (if overrideRedirect then SurfaceRole.popup else .toplevel) ≠ .layer ∧
        ((if overrideRedirect then SurfaceRole.popup else .toplevel) = .toplevel ∨
          (if overrideRedirect then SurfaceRole.popup else .toplevel) = .popup) := by
      cases overrideRedirect <;> simp
    generalize (if overrideRedirect then SurfaceRole.popup else .toplevel) = new at role
    have adopted : st.Settles (st.modify s fun x => { x with isXwayland := true, role := new }) := by
      refine settles_modify rfl fun sound => ?_
      obtain ⟨toplevel, popup, subsurface, layer, unlocked, middle⟩ :=
        (sound.proper s).adoptable free
      refine sound.modify s _ ?_ rfl ?_ ?_
      · intro held
        exact absurd (sound.locked s held) unlocked
      · intro shown
        -- A surface that is shown already was an X window before, and no panel.
        rw [Surface.band_of_role role.2.2.1, Surface.band_of_role (middle shown)]
      · refine ⟨fun _ => ⟨role.1, role.2.1⟩, fun _ => role.2.2.2, ?_, ?_, ?_, ?_⟩ <;>
          simp [toplevel, popup, subsurface, layer]
    simp only
    split
    · refine adopted.trans (settles_surfaceMap ?_)
      rw [modify_same]
      exact ⟨role.1, role.2.1⟩
    · exact adopted

theorem settles_layerCommit (st : WindowStack) (s : Nat) : st.Settles (st.layerCommit s) := by
  unfold layerCommit
  split
  · refine settles_modify rfl fun sound => sound.setOther s rfl rfl ?_ ?_
    · rw [Option.map_map]
      rfl
    · refine { sound.proper s with layer := ?_ }
      simpa using (sound.proper s).layer
  · exact .refl st

theorem settles_bufferCommit (st : WindowStack) (s : Nat) : st.Settles (st.bufferCommit s) := by
  unfold bufferCommit
  split
  · simp only
    generalize (st.surface s).pendingBuffer = buffer
    have replaced : st.Settles (st.modify s fun x =>
        { x with pendingBuffer := false, bufferAttached := false, currentBuffer := buffer }) :=
      settles_modify rfl fun sound => sound.setOther s rfl rfl rfl { sound.proper s with }
    generalize (st.modify s fun x =>
        { x with pendingBuffer := false, bufferAttached := false, currentBuffer := buffer }) = st'
      at replaced
    split
    · split
      · rename_i first
        refine replaced.trans (settles_surfaceMap ?_)
        have mappable := first.2
        unfold Surface.mappable at mappable
        constructor <;> intro role <;> rw [role] at mappable <;> cases mappable
      · exact replaced
    · exact replaced.trans (hides_surfaceUnmap st' s).1.settles
  · exact .refl st

theorem settles_release (st : WindowStack) (c : Nat) :
    st.Settles (st.release c) ∧ ¬(st.release c).Pending c := by
  have cleared : ¬(st.release c).Pending c := by
    unfold Pending release
    rw [modify_same]
    cases (st.surface c).subsurface <;> simp [SubsurfaceState.cache]
  refine ⟨⟨rfl, ?_, ?_⟩, cleared⟩
  · intro o waits
    by_cases same : o = c
    · rw [same] at waits
      exact absurd waits cleared
    · unfold Pending release at waits
      rwa [modify_other _ _ same] at waits
  · intro sound
    refine sound.setOther c rfl rfl rfl { sound.proper c with subsurface := ?_ }
    simpa using (sound.proper c).subsurface

theorem settles_own (input : CommitInput) (st : WindowStack) (s : Nat) :
    st.Settles (((match input.adopt s with
      | some overrideRedirect => st.xwmAdoptSurface s overrideRedirect
      | none => st).layerCommit s).bufferCommit s) := by
  have adopted : st.Settles (match input.adopt s with
      | some overrideRedirect => st.xwmAdoptSurface s overrideRedirect
      | none => st) := by
    split
    · exact settles_xwmAdoptSurface st s _
    · exact .refl st
  exact adopted.trans ((settles_layerCommit _ s).trans (settles_bufferCommit _ s))

theorem settles_commitWith {apply : WindowStack → Nat → WindowStack} (input : CommitInput)
    (applies : ∀ st s, Settles st (apply st s)) (st : WindowStack) (s : Nat) :
    st.Settles (commitWith apply input st s) := by
  have own := settles_own input st s
  unfold commitWith
  simp only
  generalize ((match input.adopt s with
      | some overrideRedirect => st.xwmAdoptSurface s overrideRedirect
      | none => st).layerCommit s).bufferCommit s = st' at own
  split
  · refine own.trans ?_
    -- The loop visits the surfaces one after the other.
    generalize st'.surfaces = children
    induction children generalizing st' with
    | nil => exact .refl st'
    | cons child rest step =>
      have one : st'.Settles (if st'.waits s child then apply (st'.release child) child else st') := by
        split
        · exact (settles_release st' child).1.trans (applies _ child)
        · exact .refl st'
      exact one.trans (step _ (own.trans one))
  · exact own

theorem settles_commitNested (input : CommitInput) (waiting : Nat) (st : WindowStack) (s : Nat) :
    st.Settles (commitNested input waiting st s) := by
  induction waiting generalizing st s with
  | zero => exact settles_commitWith input (fun st _ => .refl st) st s
  | succ waiting ih => exact settles_commitWith input ih st s

theorem Sound.surfaceCommitApply (sound : st.Sound) (input : CommitInput) (s : Nat) :
    (st.surfaceCommitApply input s).Sound :=
  (settles_commitNested input st.waiting st s).sound sound

section Nesting

variable {unmap unmap' : WindowStack → Nat → WindowStack}

variable {st : WindowStack}

theorem grabGone_idle (idle : st.grabCount ≤ 0) (s : Nat) : grabGone unmap st s = st := by
  unfold grabGone
  split
  · rfl
  · rename_i index found
    have low := List.find?_some found
    simp only [decide_eq_true_eq] at low
    omega

theorem grabGone_congr (s : Nat) (unmaps : ∀ st s, Hides st (unmap st s))
    (agree : ∀ st' s', st'.grabCount < st.grabCount → unmap st' s' = unmap' st' s') :
    grabGone unmap st s = grabGone unmap' st s := by
  unfold grabGone
  split
  · rfl
  · rename_i index _
    have loop : ∀ (l : List (Fin maxPopupGrab)) (st' : WindowStack),
        st'.grabCount ≤ st.grabCount →
          l.foldl (popGrab unmap) st' = l.foldl (popGrab unmap') st' := by
      intro l
      induction l with
      | nil => exact fun _ _ => rfl
      | cons i rest ih =>
        intro st' below
        have same : popGrab unmap st' i = popGrab unmap' st' i := by
          unfold popGrab takeGrab dismiss
          simp only
          split
          · rw [agree _ _ (by simp only; omega)]
          · rfl
        rw [List.foldl_cons, List.foldl_cons, ← same]
        exact ih _ ((hides_popGrab unmaps st' i).grabs.trans below)
    simp only
    rw [loop (st.grabsAbove index.val) st (le_refl _)]

theorem unmapWith_congr {gone gone' : WindowStack → Nat → WindowStack} {s : Nat}
    (agree : ∀ st', st'.grabCount = st.grabCount → gone st' s = gone' st' s) :
    unmapWith gone st s = unmapWith gone' st s := by
  unfold unmapWith
  have count : (if st.lockSurface = some s then { st with lockSurface := none }
      else st).grabCount = st.grabCount := by
    split <;> rfl
  simp only [agree _ count]

theorem unmapNested_succ (grabs : Nat) (s : Nat) (enough : st.grabCount ≤ grabs) :
    unmapNested grabs st s = unmapNested (grabs + 1) st s := by
  -- The induction is on the grabs, of which each nested call finds fewer.
  induction grabs generalizing st s with
  | zero =>
    refine unmapWith_congr ?_
    intro st' count
    rw [grabGone_idle (by omega)]
  | succ grabs ih =>
    refine unmapWith_congr ?_
    intro st' count
    refine grabGone_congr s (fun st s => (hides_unmapNested grabs st s).1) ?_
    intro st'' s' fewer
    exact ih s' (by omega)

theorem unmapNested_eq {grabs : Nat} (s : Nat) (enough : st.grabCount ≤ grabs) :
    unmapNested grabs st s = st.surfaceUnmap s := by
  unfold surfaceUnmap
  have least : st.grabCount.toNat ≤ grabs := by omega
  induction grabs, least using Nat.le_induction with
  | base => rfl
  | succ grabs below ih =>
    rw [← unmapNested_succ grabs s (by omega)]
    exact ih (by omega)

theorem surfaceUnmap_eq (st : WindowStack) (s : Nat) :
    st.surfaceUnmap s = unmapWith popupGrabOnSurfaceGone st s := by
  have deeper : unmapNested (st.grabCount.toNat + 1) st s = st.surfaceUnmap s :=
    unmapNested_eq s (by omega)
  rw [← deeper]
  refine unmapWith_congr ?_
  intro st' count
  refine grabGone_congr s (fun st s => (hides_unmapNested _ st s).1) ?_
  intro st'' s' fewer
  exact unmapNested_eq s' (by omega)

theorem Settles.waiting_lt {st' : WindowStack} (settles : st.Settles st') {c : Nat}
    (member : c ∈ st.surfaces) (before : st.Pending c) (after : ¬st'.Pending c) :
    st'.waiting < st.waiting := by
  unfold waiting
  rw [settles.surfaces]
  have fewer := settles.pending
  unfold Pending at fewer before after
  generalize st.surfaces = l at member
  -- The induction is on the surfaces, one of which is counted only before.
  induction l with
  | nil => cases member
  | cons o rest ih =>
    have tail : rest.countP (fun o => (st'.surface o).subsurface.any SubsurfaceState.cachePending) ≤
        rest.countP (fun o => (st.surface o).subsurface.any SubsurfaceState.cachePending) :=
      List.countP_mono_left fun o _ => fewer o
    rw [List.countP_cons, List.countP_cons]
    rcases List.mem_cons.mp member with same | later
    · rw [← same, if_neg after, if_pos before]
      omega
    · have less := ih later
      have head := fewer o
      split
      · rw [if_pos (head ‹_›)]
        omega
      · omega

theorem Settles.waiting_le {st' : WindowStack} (settles : st.Settles st') :
    st'.waiting ≤ st.waiting := by
  unfold waiting
  rw [settles.surfaces]
  exact List.countP_mono_left fun o _ => settles.pending o

theorem commitWith_congr {apply apply' : WindowStack → Nat → WindowStack} {input : CommitInput}
    (s : Nat) (applies : ∀ st s, Settles st (apply st s))
    (agree : ∀ st' s', st'.waiting < st.waiting → apply st' s' = apply' st' s') :
    commitWith apply input st s = commitWith apply' input st s := by
  have own := settles_own input st s
  unfold commitWith
  simp only
  generalize ((match input.adopt s with
      | some overrideRedirect => st.xwmAdoptSurface s overrideRedirect
      | none => st).layerCommit s).bufferCommit s = st' at own
  split
  · have loop : ∀ (l : List Nat) (st'' : WindowStack), st.Settles st'' →
        (∀ c ∈ l, c ∈ st''.surfaces) →
        l.foldl (fun st c => if st.waits s c then apply (st.release c) c else st) st'' =
          l.foldl (fun st c => if st.waits s c then apply' (st.release c) c else st) st'' := by
      intro l
      induction l with
      | nil => exact fun _ _ _ => rfl
      | cons child rest ih =>
        intro st'' settles members
        rw [List.foldl_cons, List.foldl_cons]
        by_cases waits : st''.waits s child = true
        · have pending : st''.Pending child := by
            unfold WindowStack.waits at waits
            unfold Pending
            simp only [decide_eq_true_eq] at waits
            cases found : (st''.surface child).subsurface with
            | none => simp [found] at waits
            | some ss =>
              simp only [found, Option.any_some, Bool.and_eq_true] at waits
              exact waits.2.2.2
          obtain ⟨released, cleared⟩ := settles_release st'' child
          have fewer : (st''.release child).waiting < st.waiting :=
            (released.waiting_lt (members child List.mem_cons_self) pending cleared).trans_le
              settles.waiting_le
          rw [if_pos waits, if_pos waits, ← agree _ child fewer]
          have applied := released.trans (applies (st''.release child) child)
          refine ih _ (settles.trans applied) ?_
          intro c member
          rw [applied.surfaces]
          exact members c (List.mem_cons_of_mem _ member)
        · rw [if_neg waits, if_neg waits]
          exact ih _ settles fun c member => members c (List.mem_cons_of_mem _ member)
    exact loop _ st' own fun _ member => member
  · rfl

theorem commitNested_succ (input : CommitInput) (waiting : Nat) (s : Nat)
    (enough : st.waiting ≤ waiting) :
    commitNested input waiting st s = commitNested input (waiting + 1) st s := by
  induction waiting generalizing st s with
  | zero =>
    refine commitWith_congr s (fun st _ => .refl st) ?_
    intro st' _ fewer
    omega
  | succ waiting ih =>
    refine commitWith_congr s (settles_commitNested input waiting) ?_
    intro st' s' fewer
    exact ih s' (by omega)

theorem commitNested_eq {input : CommitInput} {waiting : Nat} (s : Nat)
    (enough : st.waiting ≤ waiting) :
    commitNested input waiting st s = st.surfaceCommitApply input s := by
  unfold surfaceCommitApply
  induction waiting, enough using Nat.le_induction with
  | base => rfl
  | succ waiting below ih => rw [← commitNested_succ input waiting s below, ih]

theorem surfaceCommitApply_eq (input : CommitInput) (st : WindowStack) (s : Nat) :
    st.surfaceCommitApply input s = commitWith (surfaceCommitApply input) input st s := by
  rw [← commitNested_eq s (Nat.le_succ _)]
  refine commitWith_congr s (settles_commitNested input st.waiting) ?_
  intro st' s' fewer
  exact commitNested_eq s' (by omega)

/--
The recursions of `surface_unmap` and `surface_commit_apply` end.

Unmapping nests at most once for each grab and a commit at most once for each commit that waits,
any deeper recursion computes the same, and so both functions meet the equations in the source.
-/
theorem recursions_end (st : WindowStack) (s : Nat) (input : CommitInput) :
    (∀ grabs : Nat, st.grabCount ≤ grabs → unmapNested grabs st s = st.surfaceUnmap s) ∧
      st.surfaceUnmap s = unmapWith popupGrabOnSurfaceGone st s ∧
      (∀ waiting, st.waiting ≤ waiting →
        commitNested input waiting st s = st.surfaceCommitApply input s) ∧
      st.surfaceCommitApply input s = commitWith (surfaceCommitApply input) input st s :=
  ⟨fun _ enough => unmapNested_eq s enough, surfaceUnmap_eq st s,
    fun _ enough => commitNested_eq s enough, surfaceCommitApply_eq input st s⟩

end Nesting

end WindowStack

end Xios
