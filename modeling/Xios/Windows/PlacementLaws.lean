import Xios.Windows.Parents
import Xios.Windows.Placement
import Xios.Windows.Resize

/-! Which steps keep popups and subsurfaces where they belong on their parents. -/

namespace Xios

/-- A popup or subsurface that is shown and belongs to a surface. -/
def Surface.Follows (x : Surface) (p : Nat) : Prop :=
  x.mapped = true ∧ (x.role = .popup ∨ x.role = .subsurface) ∧ x.parent = some p
  deriving Decidable

theorem Surface.not_follows_of_unmapped {x : Surface} (hidden : x.mapped = false) (p : Nat) :
    ¬x.Follows p :=
  fun follows => Bool.false_ne_true (hidden.symm.trans follows.1)

theorem Surface.not_follows_of_role {x : Surface} (popup : x.role ≠ .popup)
    (subsurface : x.role ≠ .subsurface) (p : Nat) : ¬x.Follows p :=
  fun follows => follows.2.1.elim popup subsurface

namespace WindowStack

/-- Only surfaces that exist belong to another one, and none to itself. -/
structure Linked (st : WindowStack) : Prop where
  -- None belongs to itself.
  apart : ∀ s, (st.surface s).parent ≠ some s
  -- Those that belong to another one exist.
  live : ∀ s p, (st.surface s).parent = some p → s ∈ st.surfaces

/-- A step after which no more surfaces follow others than before. -/
structure Gentle (st st' : WindowStack) : Prop where
  -- What follows a surface did so before.
  follows : ∀ c p, (st'.surface c).Follows p → (st.surface c).Follows p
  -- Surfaces stay linked.
  linked : st.Linked → st'.Linked

theorem Gentle.refl (st : WindowStack) : st.Gentle st :=
  ⟨fun _ _ => id, id⟩

variable {st st' : WindowStack}

theorem Gentle.trans {st'' : WindowStack} (first : st.Gentle st') (second : st'.Gentle st'') :
    st.Gentle st'' :=
  ⟨fun c p follows => first.follows c p (second.follows c p follows),
    second.linked ∘ first.linked⟩

theorem Gentle.of_eq (surface : st'.surface = st.surface)
    (surfaces : ∀ s, s ∈ st.surfaces → s ∈ st'.surfaces) : st.Gentle st' := by
  refine ⟨fun c p follows => ?_, fun linked => ⟨fun s => ?_, fun s p belongs => ?_⟩⟩
  · rw [surface] at follows
    exact follows
  · rw [surface]
    exact linked.apart s
  · rw [surface] at belongs
    exact surfaces s (linked.live s p belongs)

variable {s : Nat} {f : Surface → Surface}

theorem gentle_modify (follows : ∀ p, (f (st.surface s)).Follows p → (st.surface s).Follows p)
    (parent : ∀ p, (f (st.surface s)).parent = some p →
      (st.surface s).parent = some p ∨ p ≠ s ∧ s ∈ st.surfaces) : st.Gentle (st.modify s f) := by
  refine ⟨fun c p => ?_, fun linked => ⟨fun o own => ?_, fun o p belongs => ?_⟩⟩
  · by_cases here : c = s
    · subst here
      rw [modify_same]
      exact follows p
    · rw [modify_other _ _ here]
      exact id
  · by_cases here : o = s
    · subst here
      rw [modify_same] at own
      obtain before | ⟨other, _⟩ := parent o own
      · exact linked.apart o before
      · exact other rfl
    · rw [modify_other _ _ here] at own
      exact linked.apart o own
  · by_cases here : o = s
    · subst here
      rw [modify_same] at belongs
      obtain before | ⟨_, live⟩ := parent p belongs
      · exact linked.live o p before
      · exact live
    · rw [modify_other _ _ here] at belongs
      exact linked.live o p belongs

theorem gentle_modify_same (mapped : (f (st.surface s)).mapped = (st.surface s).mapped)
    (role : (f (st.surface s)).role = (st.surface s).role)
    (parent : (f (st.surface s)).parent = (st.surface s).parent) : st.Gentle (st.modify s f) := by
  refine gentle_modify (fun p => ?_) fun p belongs => .inl (parent.symm.trans belongs)
  unfold Surface.Follows
  rw [mapped, role, parent]
  exact id

theorem Hides.gentle (hides : st.Hides st') : st.Gentle st' := by
  have parent : ∀ o, (st'.surface o).parent = (st.surface o).parent :=
    hides.blind (g := Surface.parent) fun _ => rfl
  refine ⟨fun c p follows => ?_, fun linked => ⟨fun s => ?_, fun s p belongs => ?_⟩⟩
  · obtain same | hidden := hides.surface c
    · rw [same] at follows
      exact follows
    · rw [hidden] at follows
      exact absurd follows (Surface.not_follows_of_unmapped (Surface.hide_mapped _) p)
  · rw [parent]
    exact linked.apart s
  · rw [parent] at belongs
    rw [hides.surfaces]
    exact linked.live s p belongs

theorem gentle_surfaceUnmap (st : WindowStack) (s : Nat) : st.Gentle (st.surfaceUnmap s) :=
  (hides_surfaceUnmap st s).1.gentle

theorem gentle_dropRole (hides : (st.surfaceUnmap s).Hides st') (role : ∀ x, (f x).role = .none)
    (parent : ∀ x p, (f x).parent = some p → x.parent = some p) : st.Gentle (st'.modify s f) := by
  have unmapped : st.Gentle st' := (gentle_surfaceUnmap st s).trans hides.gentle
  refine unmapped.trans (gentle_modify (fun p follows => ?_) fun p belongs => ?_)
  · refine absurd follows (Surface.not_follows_of_role ?_ ?_ p) <;> (rw [role]; decide)
  · exact .inl (parent _ p belongs)

theorem gentle_popupGrabDismissAll (st : WindowStack) : st.Gentle st.popupGrabDismissAll := by
  unfold popupGrabDismissAll
  split
  · exact .refl st
  · have steps : ∀ (st : WindowStack) (i : Fin maxPopupGrab),
        st.Hides (dismiss surfaceUnmap (st.takeGrab i).2 (st.takeGrab i).1) := by
      intro st i
      have forgot : st.Hides (st.takeGrab i).2 := .of_eq rfl rfl rfl (le_refl _) fun _ => id
      exact forgot.trans (hides_dismiss (fun st s => (hides_surfaceUnmap st s).1) _ _)
    exact (hides_foldl steps _ st).gentle.trans (.of_eq rfl fun _ => id)

theorem follows_of_orphan {c p : Nat} (follows : ((st.orphan s).surface c).Follows p) :
    (st.surface c).Follows p := by
  unfold orphan at follows
  dsimp only at follows
  split at follows
  · exact absurd follows.2.2 (by simp)
  · exact follows

theorem gentle_surfaceResourceDestroy (st : WindowStack) (s : Nat) :
    st.Gentle (st.surfaceResourceDestroy s) := by
  have parents := parent_surfaceResourceDestroy st s
  have surfaces := (surfaceResourceDestroy_rest st s).1
  refine ⟨fun c p follows => ?_, fun linked => ⟨fun o own => ?_, fun o p belongs => ?_⟩⟩
  · -- What is left of another surface has only been hidden or orphaned on the way.
    have unmapped := (hides_surfaceUnmap { st with surfaces := st.surfaces.erase s } s).1
    unfold surfaceResourceDestroy at follows
    dsimp only at follows
    generalize WindowStack.surfaceUnmap _ s = st' at unmapped follows
    by_cases here : c = s
    · subst here
      rw [modify_same] at follows
      exact absurd follows.1 (by simp)
    · rw [modify_other _ _ here] at follows
      have kept := follows_of_orphan ((hides_popupGrabOnSurfaceGone _ s).gentle.follows c p follows)
      rw [modify_other _ _ here] at kept
      exact unmapped.gentle.follows c p kept
  · rw [parents] at own
    split at own
    · cases own
    · exact linked.apart o own
  · rw [parents] at belongs
    split at belongs
    · cases belongs
    · rename_i kept
      have away : o ≠ s := fun here => kept (.inl here)
      rw [surfaces]
      exact (List.mem_erase_of_ne away).mpr (linked.live o p belongs)

theorem surfaceIsAncestorOf_self (st : WindowStack) (s depth : Nat) :
    st.surfaceIsAncestorOf s (depth + 1) (some s) = true := by
  simp [surfaceIsAncestorOf]

/-- Requests that place nothing make no surface follow another one. -/
theorem gentle_next (roles : st.Roles) {event : Event} (silent : Placement.Silent event = true)
    (allowed : st.Allowed event) : st.Gentle (st.next event) := by
  cases event with
  | commit | setDesync | getToplevel | getPopup | getLayerSurface | layerGetPopup
  | getLockSurface | adopt => cases silent
  | create s => exact .of_eq rfl fun o old => List.mem_cons_of_mem s old
  | destroy s => exact gentle_surfaceResourceDestroy st s
  | attach s buffer =>
    rw [next, surfaceAttach]
    exact gentle_modify_same rfl rfl rfl
  | bufferDestroyed s =>
    have cleared : st.Gentle (st.modify s fun x => { x with currentBuffer := false }) :=
      gentle_modify_same rfl rfl rfl
    simp only [next, onBufferDestroyed]
    split
    · exact cleared.trans (gentle_surfaceUnmap _ s)
    · exact cleared
  | pendingBufferDestroyed s =>
    rw [next, onPendingBufferDestroyed]
    exact gentle_modify_same rfl rfl rfl
  | setParent s parent =>
    simp only [next, xtSetParent]
    split
    · exact .refl st
    · -- A window follows no other surface, whatever it belongs to.
      rename_i accepted
      have window : (st.surface s).role = .toplevel := by
        cases parent with
        | none => exact ((roles.proper s).toplevel allowed.2).1
        | some p => exact ((roles.proper s).toplevel allowed.2.1).1
      have live : s ∈ st.surfaces := by
        cases parent with
        | none => exact allowed.1
        | some p => exact allowed.1
      refine gentle_modify (fun p follows => ?_) fun p belongs => .inr ⟨?_, live⟩
      · refine absurd follows (Surface.not_follows_of_role ?_ ?_ p) <;>
          (show (st.surface s).role ≠ _; rw [window]; decide)
      · rintro rfl
        obtain rfl : parent = some p := belongs
        exact accepted ⟨rfl, surfaceIsAncestorOf_self st p _⟩
  | toplevelDestroyed s =>
    rw [next, toplevelResourceDestroy]
    exact gentle_dropRole (.refl _) (fun _ => rfl) fun _ _ => id
  | grab s =>
    simp only [next, popupGrab]
    split
    · exact .refl st
    · exact .of_eq rfl fun _ => id
  | popupDestroyed s =>
    rw [next, popupResourceDestroy]
    exact gentle_dropRole (hides_popupGrabOnSurfaceGone _ s) (fun _ => rfl) fun _ _ => id
  | getSubsurface s parent =>
    simp only [next, getSubsurface]
    split
    · exact .refl st
    · split
      · exact .refl st
      · rename_i free accepted
        simp only [not_or, ne_eq, not_not] at free accepted
        have hidden : (st.surface s).mapped = false := by
          by_contra shown
          rw [Bool.not_eq_false] at shown
          exact ((roles.proper s).shown shown).1 free.1
        refine gentle_modify (fun p follows => ?_) fun p belongs => .inr ⟨?_, allowed.1⟩
        · exact absurd (hidden.symm.trans follows.1) Bool.false_ne_true
        · rintro rfl
          exact accepted.1 (Option.some.inj belongs).symm
  | placeAbove s | raise s =>
    exact .of_eq (blind_surfaceRaise (fun _ _ => rfl) st s) fun o old =>
      (blind_surfaceRaise (g := surfaces) (fun _ _ => rfl) st s).symm ▸ old
  | placeBelow s => exact .of_eq rfl fun _ => id
  | setSync s =>
    rw [next, subsurfaceSetSync]
    exact gentle_modify_same rfl rfl rfl
  | subsurfaceDestroyed s =>
    rw [next, subsurfaceResourceDestroy]
    exact gentle_dropRole (.refl _) (fun _ => rfl) fun _ _ belongs => absurd belongs (by simp)
  | setLayer s layer =>
    rw [next, layerSurfaceSetLayer]
    exact gentle_modify_same rfl rfl rfl
  | layerDestroyed s =>
    simp only [next, layerSurfaceResDestroy]
    split
    · exact .refl st
    · exact gentle_dropRole (.refl _) (fun _ => rfl) fun _ _ => id
  | lockSurfaceDestroyed s =>
    rw [next, slockSurfaceResourceDestroy]
    have unlocked : st.Gentle { st with lockSurface := none } := .of_eq rfl fun _ => id
    refine unlocked.trans (gentle_modify (fun p follows => ?_) fun p belongs => .inl belongs)
    exact absurd follows (Surface.not_follows_of_role (by simp) (by simp) p)
  | unadopt s =>
    simp only [next, xwmUnadoptSurface]
    split
    · exact gentle_dropRole (.refl _) (fun _ => rfl) fun _ _ => id
    · exact .refl st
  | pressOutside => exact gentle_popupGrabDismissAll st

end WindowStack

/-- The surface is where it was, and belongs where it belonged. -/
def Spot.Stays (x y : Spot) : Prop :=
  y.place = x.place ∧ y.relX = x.relX ∧ y.relY = x.relY

theorem Spot.Stays.refl (x : Spot) : x.Stays x :=
  ⟨rfl, rfl, rfl⟩

namespace Placement

/-- Popups and subsurfaces are where they belong on the surfaces they follow. -/
def Followed (d : Placement) : Prop :=
  ∀ c p, (d.stack.surface c).Follows p → d.place c = d.childPlace c p

/-- What holds between steps. -/
structure Orderly (d : Placement) : Prop where
  -- Surfaces are used consistently and linked properly.
  roles : d.stack.Roles
  linked : d.stack.Linked
  -- Children are on their parents.
  followed : d.Followed

/-- Moving the surface leaves nothing behind: it stays where it is, or nothing follows it. -/
def Harmless (d : Placement) (s : Nat) (t : Point) : Prop :=
  t = d.place s ∨ ∀ c ∈ d.stack.surfaces, ¬(d.stack.surface c).Follows s
  deriving Decidable

/-- The surface leaves nothing behind, and gets where it belongs if it follows another one. -/
def Fits (d : Placement) (s : Nat) (t : Point) : Prop :=
  d.Harmless s t ∧
    ∀ p ∈ (d.stack.surface s).parent, (d.stack.surface s).Follows p → t = d.childPlace s p
  deriving Decidable

theorem childPlace_eq (d : Placement) (c p : Nat) :
    d.childPlace c p = ⟨(d.place p).x + (d.spot c).relX, (d.place p).y + (d.spot c).relY⟩ :=
  rfl

variable {d d' : Placement} {p : Nat}

theorem childPlace_congr {c : Nat} (child : (d.spot c).Stays (d'.spot c))
    (parent : (d.spot p).Stays (d'.spot p)) : d'.childPlace c p = d.childPlace c p := by
  rw [childPlace_eq, childPlace_eq, child.2.1, child.2.2]
  unfold place
  rw [parent.1]

theorem Orderly.of_gentle (orderly : d.Orderly) (roles : d'.stack.Roles)
    (gentle : d.stack.Gentle d'.stack)
    (spots : ∀ c p, (d'.stack.surface c).Follows p →
      (d.spot c).Stays (d'.spot c) ∧ (d.spot p).Stays (d'.spot p)) : d'.Orderly where
  roles := roles
  linked := gentle.linked orderly.linked
  followed c p follows := by
    obtain ⟨child, parent⟩ := spots c p follows
    rw [childPlace_congr child parent]
    exact child.1.trans (orderly.followed c p (gentle.follows c p follows))

theorem Orderly.of_same (orderly : d.Orderly) (stack : d'.stack = d.stack)
    (spots : ∀ o, (d.spot o).Stays (d'.spot o)) : d'.Orderly := by
  refine orderly.of_gentle ?_ ?_ fun c p _ => ⟨spots c, spots p⟩
  · rw [stack]
    exact orderly.roles
  · rw [stack]
    exact .refl _

variable {s : Nat}

theorem Orderly.put (orderly : d.Orderly) (roles : d'.stack.Roles) (linked : d'.stack.Linked)
    (fewer : ∀ c p, c ≠ s → (d'.stack.surface c).Follows p → (d.stack.surface c).Follows p)
    (others : ∀ o, o ≠ s → (d.spot o).Stays (d'.spot o)) (harmless : d.Harmless s (d'.place s))
    (own : ∀ p, (d'.stack.surface s).Follows p → d'.place s = d'.childPlace s p) : d'.Orderly where
  roles := roles
  linked := linked
  followed c p follows := by
    by_cases here : c = s
    · subst here
      exact own p follows
    · have child := others c here
      have earlier := fewer c p here follows
      have before := orderly.followed c p earlier
      by_cases at_parent : p = s
      · subst at_parent
        -- The surface is followed, so that it is where it was.
        obtain same | free := harmless
        · rw [childPlace_eq, same, child.2.1, child.2.2]
          exact child.1.trans before
        · exact absurd earlier (free c (orderly.linked.live c p earlier.2.2))
      · rw [childPlace_congr child (others p at_parent)]
        exact child.1.trans before

theorem Orderly.putSame (orderly : d.Orderly) (stack : d'.stack = d.stack)
    (others : ∀ o, o ≠ s → (d.spot o).Stays (d'.spot o)) (harmless : d.Harmless s (d'.place s))
    (own : ∀ p, (d.stack.surface s).Follows p → d'.place s = d'.childPlace s p) : d'.Orderly := by
  refine orderly.put (s := s) ?_ ?_ (fun c p _ => ?_) others harmless ?_
  · rw [stack]
    exact orderly.roles
  · rw [stack]
    exact orderly.linked
  · rw [stack]
    exact id
  · rw [stack]
    exact own

variable {f : Spot → Spot}

theorem stays_modify (d : Placement) (s : Nat) (stays : (d.spot s).Stays (f (d.spot s))) (o : Nat) :
    (d.spot o).Stays ((d.modify s f).spot o) := by
  by_cases here : o = s
  · subst here
    simpa [modify] using stays
  · simpa [modify, here] using Spot.Stays.refl (d.spot o)

@[simp]
theorem modify_spot_same (d : Placement) (s : Nat) (f : Spot → Spot) :
    (d.modify s f).spot s = f (d.spot s) := by
  simp [modify]

variable {o : Nat}

theorem modify_spot_other (d : Placement) (f : Spot → Spot) (other : o ≠ s) :
    (d.modify s f).spot o = d.spot o := by
  simp [modify, other]

@[simp]
theorem place_moveTo (d : Placement) (s : Nat) (t : Point) : (d.moveTo s t).place s = t := by
  simp [moveTo, place, Spot.place, Spot.moveTo]

theorem childPlace_moveTo (d : Placement) (t : Point) (away : p ≠ s) :
    (d.moveTo s t).childPlace s p = d.childPlace s p := by
  simp [moveTo, childPlace, modify_spot_other _ _ away, Spot.moveTo]

variable {t : Point}

theorem Orderly.moveTo (orderly : d.Orderly) (fits : d.Fits s t) : (d.moveTo s t).Orderly := by
  refine orderly.putSame (s := s) rfl (fun o away => ?_) ?_ fun p follows => ?_
  · rw [Placement.moveTo, modify_spot_other _ _ away]
    exact .refl _
  · rw [place_moveTo]
    exact fits.1
  · -- The surface is not its own parent, which therefore is where it was.
    have away : p ≠ s := by
      rintro rfl
      exact orderly.linked.apart p follows.2.2
    rw [place_moveTo, childPlace_moveTo _ _ away]
    exact fits.2 p follows.2.2 follows

theorem Orderly.workAreaRecompute (orderly : d.Orderly) : d.workAreaRecompute.Orderly :=
  orderly.of_same rfl fun _ => .refl _

theorem Orderly.dropInteractive (orderly : d.Orderly) (s : Nat) : (d.dropInteractive s).Orderly :=
  orderly.of_same rfl fun _ => .refl _

theorem mapPlace_of_child
    (role : (d.stack.surface s).role = .popup ∨ (d.stack.surface s).role = .subsurface)
    (parent : (d.stack.surface s).parent = some p) : d.mapPlace s = d.childPlace s p := by
  unfold mapPlace isLayer
  obtain role | role := role <;> simp [role, parent]

theorem Orderly.surfaceMap (orderly : d.Orderly)
    (role : (d.stack.surface s).role ≠ .none ∧ (d.stack.surface s).role ≠ .lock)
    (harmless : (d.stack.surface s).mapped = false → d.Harmless s (d.mapPlace s)) :
    (d.surfaceMap s).Orderly := by
  unfold Placement.surfaceMap
  split
  · exact orderly
  · rename_i room
    simp only [not_or, Bool.not_eq_true] at room
    have kept := WindowStack.keeps_surfaceMap role
    have inserted : d.stack.surfaceMap s =
        { d.stack with mapped := Banded.insert d.stack.surfaceBand s d.stack.mapped }.modify s
          fun x => { x with mapped := true } := by
      unfold WindowStack.surfaceMap
      rw [if_neg]
      simpa using room
    have shown : Orderly { d.moveTo s (d.mapPlace s) with stack := d.stack.surfaceMap s } := by
      refine orderly.put (s := s) (kept.roles orderly.roles) ⟨fun o => ?_, fun o p belongs => ?_⟩
        (fun c p away follows => ?_) (fun o away => ?_) ?_ fun p follows => ?_
      · rw [kept.parent]
        exact orderly.linked.apart o
      · rw [kept.parent] at belongs
        rw [kept.surfaces]
        exact orderly.linked.live o p belongs
      · simp only [inserted] at follows
        rw [WindowStack.modify_other _ _ away] at follows
        exact follows
      · change (d.spot o).Stays ((d.moveTo s (d.mapPlace s)).spot o)
        rw [Placement.moveTo, modify_spot_other _ _ away]
        exact .refl _
      · change d.Harmless s ((d.moveTo s (d.mapPlace s)).place s)
        rw [place_moveTo]
        exact harmless room.1
      · -- It is put on its parent, which is another surface.
        simp only [inserted] at follows
        rw [WindowStack.modify_same] at follows
        have away : p ≠ s := by
          rintro rfl
          exact orderly.linked.apart p follows.2.2
        change (d.moveTo s (d.mapPlace s)).place s = (d.moveTo s (d.mapPlace s)).childPlace s p
        rw [place_moveTo, childPlace_moveTo _ _ away]
        exact mapPlace_of_child follows.2.1 follows.2.2
    dsimp only
    split
    · exact shown.workAreaRecompute
    · exact shown

theorem place_popupPlace (d : Placement) (positioner : Positioner) (away : p ≠ s) :
    (d.popupPlace s p positioner).place s = d.popupTarget p positioner ∧
      (d.popupPlace s p positioner).childPlace s p = d.popupTarget p positioner := by
  constructor
  · simp only [popupPlace, place_moveTo]
    simp [childPlace, modify_spot_other _ _ away]
  · simp [popupPlace, moveTo, childPlace, modify_spot_other _ _ away, Spot.moveTo]

theorem stays_popupPlace (d : Placement) (p : Nat) (positioner : Positioner) (other : o ≠ s) :
    (d.spot o).Stays ((d.popupPlace s p positioner).spot o) := by
  simp only [popupPlace, moveTo]
  rw [modify_spot_other _ _ other, modify_spot_other _ _ other]
  exact .refl _

variable {positioner : Positioner}

theorem Orderly.popupPlace (orderly : d.Orderly) (parent : (d.stack.surface s).parent = some p)
    (harmless : d.Harmless s (d.popupTarget p positioner)) :
    (d.popupPlace s p positioner).Orderly := by
  have away : p ≠ s := by
    rintro rfl
    exact orderly.linked.apart p parent
  obtain ⟨target, child⟩ := place_popupPlace d positioner away
  refine orderly.putSame (s := s) rfl (fun o other => stays_popupPlace d p positioner other) ?_
    fun q follows => ?_
  · rw [target]
    exact harmless
  · obtain rfl : p = q := Option.some.inj (parent.symm.trans follows.2.2)
    rw [target, child]

variable {x y : Int}

theorem Orderly.setPosition (orderly : d.Orderly)
    (harmless : ∀ p, (d.stack.surface s).parent = some p →
      d.Harmless s ⟨(d.spot p).dx + x, (d.spot p).dy + y⟩) :
    (d.subsurfaceSetPosition s x y).Orderly := by
  cases parent : (d.stack.surface s).parent with
  | none =>
    have alone : d.subsurfaceSetPosition s x y = d.modify s ({ · with relX := x, relY := y }) := by
      unfold subsurfaceSetPosition surfacePlaceChild
      rw [show ((d.modify s ({ · with relX := x, relY := y })).stack.surface s).parent = none
        from parent]
    rw [alone]
    refine orderly.putSame (s := s) rfl (fun o other => ?_) (.inl ?_) fun q follows => ?_
    · rw [modify_spot_other _ _ other]
      exact .refl _
    · simp [place, Spot.place]
    · exact absurd (parent.symm.trans follows.2.2) (by simp)
  | some p =>
    have away : p ≠ s := by
      rintro rfl
      exact orderly.linked.apart p parent
    have moved : d.subsurfaceSetPosition s x y =
        (d.modify s ({ · with relX := x, relY := y })).moveTo s
          ⟨(d.spot p).dx + x, (d.spot p).dy + y⟩ := by
      unfold subsurfaceSetPosition surfacePlaceChild
      rw [show ((d.modify s ({ · with relX := x, relY := y })).stack.surface s).parent = some p
        from parent]
      simp [childPlace, modify_spot_other _ _ away]
    rw [moved]
    refine orderly.putSame (s := s) rfl (fun o other => ?_) ?_ fun q follows => ?_
    · rw [Placement.moveTo, modify_spot_other _ _ other, modify_spot_other _ _ other]
      exact .refl _
    · rw [place_moveTo]
      exact harmless p parent
    · obtain rfl : p = q := Option.some.inj (parent.symm.trans follows.2.2)
      rw [place_moveTo]
      simp [childPlace, Placement.moveTo, modify_spot_other _ _ away, Spot.moveTo]

@[simp]
theorem withStack_stack (d : Placement) (stack : WindowStack) :
    (d.withStack stack).stack = stack := by
  unfold withStack
  dsimp only
  split <;> rfl

@[simp]
theorem withStack_spot (d : Placement) (stack : WindowStack) :
    (d.withStack stack).spot = d.spot := by
  unfold withStack
  dsimp only
  split <;> rfl

variable {stack : WindowStack}

theorem Orderly.withStack (orderly : d.Orderly) (roles : stack.Roles)
    (gentle : d.stack.Gentle stack) : (d.withStack stack).Orderly := by
  refine orderly.of_gentle ?_ ?_ fun c p _ => ?_
  · rw [withStack_stack]
    exact roles
  · rw [withStack_stack]
    exact gentle
  · rw [withStack_spot]
    exact ⟨.refl _, .refl _⟩

theorem Orderly.restack (orderly : d.Orderly) (roles : stack.Roles)
    (gentle : d.stack.Gentle stack) : Orderly { d with stack := stack } :=
  orderly.of_gentle roles gentle fun _ _ _ => ⟨.refl _, .refl _⟩

/-- Requests that place nothing leave every child where it follows its parent. -/
theorem Orderly.window (orderly : d.Orderly) {event : WindowStack.Event}
    (silent : Silent event = true) (allowed : d.stack.Allowed event) :
    (d.window event).Orderly := by
  have gentle := WindowStack.gentle_next orderly.roles silent allowed
  have after := orderly.withStack (orderly.roles.next event allowed) gentle
  cases event with
  | destroy s =>
    -- Nothing follows the surface any longer, and it follows none.
    have gone : ∀ c p, ((d.stack.next (.destroy s)).surface c).Follows p → c ≠ s ∧ p ≠ s := by
      intro c p follows
      have parent : ((d.stack.surfaceResourceDestroy s).surface c).parent = some p := follows.2.2
      have live := orderly.linked.live c p (gentle.follows c p follows).2.2
      rw [WindowStack.parent_surfaceResourceDestroy] at parent
      split at parent
      · cases parent
      · rename_i kept
        simp only [not_or, not_and] at kept
        refine ⟨kept.1, ?_⟩
        rintro rfl
        exact kept.2 ((List.mem_erase_of_ne kept.1).mpr live) parent
    have cleared : (((d.withStack (d.stack.next (.destroy s))).dropInteractive s).modify s
        fun _ => {}).Orderly := by
      refine (after.dropInteractive s).of_gentle after.roles (.refl _) fun c p follows => ?_
      have follows' : ((d.stack.next (.destroy s)).surface c).Follows p := by
        simpa [modify, Placement.dropInteractive] using follows
      obtain ⟨child, parent⟩ := gone c p follows'
      rw [modify_spot_other _ _ child, modify_spot_other _ _ parent]
      exact ⟨.refl _, .refl _⟩
    unfold Placement.window
    dsimp only
    split
    · exact cleared.workAreaRecompute
    · exact cleared
  | toplevelDestroyed s | popupDestroyed s | subsurfaceDestroyed s =>
    exact after.dropInteractive s
  | layerDestroyed s => exact (after.dropInteractive s).workAreaRecompute
  | unadopt s | bufferDestroyed s =>
    unfold Placement.window
    dsimp only
    split
    · exact after.dropInteractive s
    · exact after
  | create | attach | pendingBufferDestroyed | setParent | grab | getSubsurface | placeAbove
  | placeBelow | setSync | setLayer | lockSurfaceDestroyed | raise | pressOutside => exact after
  | commit | setDesync | getToplevel | getPopup | getLayerSurface | layerGetPopup
  | getLockSurface | adopt => cases silent

theorem Orderly.harmless (orderly : d.Orderly) (harmless : d.Harmless s t)
    (place : d'.place s = d.place s) (gentle : d.stack.Gentle d'.stack) : d'.Harmless s t := by
  obtain same | free := harmless
  · exact .inl (same.trans place.symm)
  · refine .inr fun c _ follows => ?_
    have before := gentle.follows c s follows
    exact free c (orderly.linked.live c s before.2.2) before

/-- An X window may take over the surface. -/
def Adoptable (d : Placement) (s : Nat) : Prop :=
  (d.stack.surface s).role = .none ∨ (d.stack.surface s).isXwayland = true
  deriving Decidable

/-- A panel that is shown is placed again by each commit. -/
def ShownPanel (d : Placement) (s : Nat) : Prop :=
  d.isLayer s = true ∧ (d.stack.surface s).layer.any LayerState.configured = true ∧
    (d.stack.surface s).mapped = true
  deriving Decidable

def panelPlace (d : Placement) (s : Nat) : Point :=
  ⟨((d.spot s).layer.compute d.output).x, ((d.spot s).layer.compute d.output).y⟩

/-- A commit is about to map the surface. -/
def Maps (d : Placement) (s : Nat) : Prop :=
  (d.stack.surface s).bufferAttached = true ∧ (d.stack.surface s).pendingBuffer = true ∧
    (d.stack.surface s).mapped = false ∧ (d.stack.surface s).mappable = true
  deriving Decidable

/-- Whoever puts a surface somewhere leaves no popup and no subsurface of it behind. -/
def Condition (d : Placement) : Event → Prop
  | .adopt s overrideRedirect x y =>
    d.Adoptable s →
      (overrideRedirect = true → d.Harmless s ⟨x, y⟩ ∧ ((d.stack.surface s).mapped = true →
        ∀ p ∈ (d.stack.surface s).parent, ⟨x, y⟩ = d.childPlace s p)) ∧
      let d' := d.xwmTakeOver s overrideRedirect x y
      (d'.stack.surface s).mapped = false → d'.Harmless s (d'.mapPlace s)
  | .configure s x y =>
    (d.stack.surface s).isXwayland = true ∧ (d.stack.surface s).role = .popup → d.Fits s ⟨x, y⟩
  | .apply s input =>
    let d := d.latch s input
    (d.ShownPanel s → d.Harmless s (d.panelPlace s)) ∧
      (d.Maps s →
        (d.setBuffer s true input.size).Harmless s ((d.setBuffer s true input.size).mapPlace s))
  | .getToplevel s =>
    d.stack.xsRoleTaken s = false → d.fullscreenToplevels = true ∧ d.nativeMode = false →
      d.Harmless s ⟨0, 0⟩
  | .setMaximized s on =>
    d.Fits s ((d.modify s ({ · with maximized := on })).statePlace s)
  | .setFullscreen s on =>
    d.Fits s ((d.modify s ({ · with fullscreen := on })).statePlace s)
  | .getPopup s (some p) positioner =>
    ¬d.PopupRefused s (some p) → d.Harmless s (d.popupTarget p positioner)
  | .layerGetPopup s popup =>
    (d.stack.surface popup).role = .popup →
    ((d.spot popup).positioner = none → (d.stack.surface popup).mapped = false) ∧
      ∀ positioner ∈ (d.spot popup).positioner,
        d.Harmless popup (d.popupTarget s positioner)
  | .reposition s positioner =>
    ∀ p ∈ (d.stack.surface s).parent, d.Harmless s (d.popupTarget p positioner)
  | .setPosition s x y =>
    ∀ p ∈ (d.stack.surface s).parent,
      d.Harmless s ⟨(d.spot p).dx + x, (d.spot p).dy + y⟩
  | .getLockSurface s granted =>
    granted = true ∧ (d.stack.surface s).role = .none ∧ d.stack.lockSurface = none →
      d.Harmless s ⟨0, 0⟩
  | .interactiveUpdate x y =>
    ∀ i ∈ d.interactive, d.Fits i.surface (d.interactivePlace i x y)
  | .outputReconfigure width height scale granted =>
    0 < width ∧ 0 < height ∧ granted = true →
      let d := { d with output := { width, height, scale := if scale < 1 then 1 else scale } }
      ∀ s ∈ d.stack.mapped, d.isShownWindow s = true → d.Fits s (d.refitPlace s)
  | _ => True

instance decidableCondition (d : Placement) (event : Event) : Decidable (d.Condition event) := by
  unfold Condition
  induction event using Event.casesOn with
  | getPopup s parent =>
    induction parent using Option.casesOn <;> infer_instance
  | _ => infer_instance

theorem Orderly.modify (orderly : d.Orderly) (stays : (d.spot s).Stays (f (d.spot s))) :
    (d.modify s f).Orderly :=
  orderly.of_same rfl (stays_modify d s stays)

theorem Orderly.fits (orderly : d.Orderly) (fits : d.Fits s t)
    (stays : (d.spot s).Stays (f (d.spot s))) : (d.modify s f).Fits s t := by
  have spots := stays_modify d s stays
  refine ⟨orderly.harmless fits.1 (spots s).1 (.refl _), fun p belongs follows => ?_⟩
  rw [childPlace_congr (spots s) (spots p)]
  exact fits.2 p belongs follows

theorem Orderly.setState (orderly : d.Orderly) (stays : (d.spot s).Stays (f (d.spot s)))
    (fits : d.Fits s ((d.modify s f).statePlace s)) :
    ((d.modify s f).toplevelReconfigureState s).Orderly :=
  (orderly.modify stays).moveTo (orderly.fits fits stays)

theorem Orderly.modifyStack (orderly : d.Orderly) {f : Surface → Surface}
    (roles : (d.stack.modify s f).Roles)
    (mapped : (f (d.stack.surface s)).mapped = (d.stack.surface s).mapped)
    (role : (f (d.stack.surface s)).role = (d.stack.surface s).role)
    (parent : (f (d.stack.surface s)).parent = (d.stack.surface s).parent) :
    Orderly { d with stack := d.stack.modify s f } :=
  orderly.restack roles (WindowStack.gentle_modify_same mapped role parent)

theorem Orderly.setSubsurface (orderly : d.Orderly) (s : Nat)
    (f : SubsurfaceState → SubsurfaceState) :
    Orderly { d with
      stack := d.stack.modify s fun x => { x with subsurface := x.subsurface.map f } } := by
  refine orderly.modifyStack ?_ rfl rfl rfl
  refine orderly.roles.modify s (fun proper => { proper with subsurface := ?_ }) fun _ => rfl
  simpa using proper.subsurface

theorem Orderly.latch (orderly : d.Orderly) (s : Nat) (input : PlacementInput) :
    (d.latch s input).Orderly :=
  orderly.modify ⟨rfl, rfl, rfl⟩

theorem Orderly.layerCommit (orderly : d.Orderly)
    (harmless : d.ShownPanel s → d.Harmless s (d.panelPlace s)) : (d.layerCommit s).Orderly := by
  have kept := WindowStack.keeps_layerCommit d.stack s
  have gentle : d.stack.Gentle (d.stack.layerCommit s) := by
    unfold WindowStack.layerCommit
    split
    · exact WindowStack.gentle_modify_same rfl rfl rfl
    · exact .refl _
  have restacked := orderly.restack (kept.roles orderly.roles) gentle
  unfold Placement.layerCommit
  dsimp only
  split
  · rename_i shown
    refine (restacked.moveTo ⟨orderly.harmless (harmless shown) rfl gentle,
      fun p _ follows => ?_⟩).workAreaRecompute
    -- A panel follows no other surface.
    have before := gentle.follows s p follows
    have role : (d.stack.surface s).role = .layer := by
      have panel := shown.1
      simp only [isLayer, Bool.and_eq_true, decide_eq_true_eq] at panel
      exact panel.1
    exact absurd before (Surface.not_follows_of_role (by simp [role]) (by simp [role]) p)
  · exact restacked

theorem Orderly.setBuffer (orderly : d.Orderly) (s : Nat) (buffer : Bool) (size : Int × Int) :
    (d.setBuffer s buffer size).Orderly := by
  have replaced : Orderly { d with
      stack := d.stack.modify s fun x =>
        { x with pendingBuffer := false, bufferAttached := false, currentBuffer := buffer } } :=
    orderly.modifyStack ((WindowStack.keeps_replaceBuffer d.stack s buffer).roles orderly.roles)
      rfl rfl rfl
  refine replaced.modify ?_
  split <;> exact ⟨rfl, rfl, rfl⟩

variable {input : PlacementInput}

theorem Orderly.bufferCommit (orderly : d.Orderly)
    (harmless : d.Maps s →
      (d.setBuffer s true input.size).Harmless s ((d.setBuffer s true input.size).mapPlace s)) :
    (d.bufferCommit s input).Orderly := by
  unfold Placement.bufferCommit
  split
  · rename_i attached
    split
    · rename_i pending
      have shown := orderly.setBuffer s true input.size
      have surface : (d.setBuffer s true input.size).stack.surface s =
          { d.stack.surface s with
            pendingBuffer := false, bufferAttached := false, currentBuffer := true } := by
        simp [Placement.setBuffer, Placement.modify]
      dsimp only
      split
      · rename_i first
        refine shown.surfaceMap (WindowStack.role_of_mappable first.2) fun _ => ?_
        rw [surface] at first
        exact harmless ⟨attached, pending, first⟩
      · exact shown
    · have hidden := orderly.setBuffer s false (0, 0)
      have kept := WindowStack.keeps_surfaceUnmap (d.setBuffer s false (0, 0)).stack s
      exact (hidden.withStack (kept.roles hidden.roles)
        (WindowStack.gentle_surfaceUnmap _ s)).dropInteractive s
  · exact orderly

theorem layerCommit_of_maps (maps : d.Maps s) : d.layerCommit s = d := by
  obtain ⟨attached, _, hidden, _⟩ := maps
  have same : d.stack.layerCommit s = d.stack := by
    unfold WindowStack.layerCommit
    rw [if_neg]
    simp [attached]
  unfold layerCommit
  simp [same, hidden]

theorem maps_of_layerCommit (maps : (d.layerCommit s).Maps s) : d.Maps s := by
  have surface : ∃ l, (d.layerCommit s).stack.surface s = { d.stack.surface s with layer := l } ∧
      (l = (d.stack.surface s).layer ∨ (d.stack.surface s).bufferAttached = false) := by
    have stack : (d.layerCommit s).stack = d.stack.layerCommit s := by
      unfold layerCommit
      dsimp only
      split <;> rfl
    rw [stack]
    unfold WindowStack.layerCommit
    split
    · rename_i first
      exact ⟨_, WindowStack.modify_same _ _ _, .inr first.2.1⟩
    · exact ⟨_, rfl, .inl rfl⟩
  obtain ⟨l, surface, same | idle⟩ := surface
  · unfold Maps at maps ⊢
    rw [surface, same] at maps
    exact maps
  · unfold Maps at maps
    rw [surface] at maps
    exact absurd (idle.symm.trans maps.1) Bool.false_ne_true

theorem Orderly.applyOwn (orderly : d.Orderly) (condition : d.Condition (.apply s input)) :
    (d.applyOwn s input).Orderly := by
  obtain ⟨panel, maps⟩ := condition
  have latched := orderly.latch s input
  refine (latched.layerCommit panel).bufferCommit fun mapping => ?_
  have before := maps_of_layerCommit mapping
  rw [layerCommit_of_maps before]
  exact maps before

/-- Adopting a surface leaves no child behind. -/
theorem Orderly.xwmAdoptSurface (orderly : d.Orderly) {overrideRedirect : Bool}
    (condition : d.Condition (.adopt s overrideRedirect x y)) :
    (d.xwmAdoptSurface s overrideRedirect x y).Orderly := by
  unfold Placement.xwmAdoptSurface
  split
  · exact orderly
  · rename_i free
    have adoptable : d.Adoptable s := by
      unfold Adoptable
      by_cases role : (d.stack.surface s).role = .none
      · exact .inl role
      · refine .inr ?_
        by_contra native
        exact free ⟨role, by simpa using native⟩
    obtain ⟨own, harmless⟩ := condition adoptable
    obtain ⟨kept, role⟩ := WindowStack.keeps_takeOver overrideRedirect free
    have gentle : ∀ c p, c ≠ s → ((d.stack.modify s fun x => { x with
        isXwayland := true
        role := if overrideRedirect then .popup else .toplevel }).surface c).Follows p →
        (d.stack.surface c).Follows p := by
      intro c p away follows
      rw [WindowStack.modify_other _ _ away] at follows
      exact follows
    have linked : (d.stack.modify s fun x => { x with
        isXwayland := true
        role := if overrideRedirect then .popup else .toplevel }).Linked := by
      refine ⟨fun o => ?_, fun o p belongs => ?_⟩
      · rw [kept.parent]
        exact orderly.linked.apart o
      · rw [kept.parent] at belongs
        rw [kept.surfaces]
        exact orderly.linked.live o p belongs
    have surface : (d.xwmTakeOver s overrideRedirect x y).stack =
        d.stack.modify s fun x => { x with
          isXwayland := true
          role := if overrideRedirect then .popup else .toplevel } := by
      unfold xwmTakeOver
      dsimp only
      split <;> rfl
    have taken : (d.xwmTakeOver s overrideRedirect x y).Orderly := by
      cases overrideRedirect with
      | false =>
        refine orderly.put (s := s) (kept.roles orderly.roles) linked gentle
          (fun o _ => .refl _) (.inl rfl) fun p follows => ?_
        have window : ((d.xwmTakeOver s false x y).stack.surface s).role = .toplevel := by
          rw [surface, WindowStack.modify_same]
          rfl
        exact absurd follows (Surface.not_follows_of_role (by simp [window]) (by simp [window]) p)
      | true =>
        obtain ⟨leaves, belongs⟩ := own rfl
        refine orderly.put (s := s) (kept.roles orderly.roles) linked gentle
          (fun o away => ?_) ?_ fun p follows => ?_
        · change (d.spot o).Stays ((d.moveTo s ⟨x, y⟩).spot o)
          rw [Placement.moveTo, modify_spot_other _ _ away]
          exact .refl _
        · change d.Harmless s ((d.moveTo s ⟨x, y⟩).place s)
          rw [place_moveTo]
          exact leaves
        · rw [surface, WindowStack.modify_same] at follows
          have away : p ≠ s := by
            rintro rfl
            exact orderly.linked.apart p follows.2.2
          change (d.moveTo s ⟨x, y⟩).place s = (d.moveTo s ⟨x, y⟩).childPlace s p
          rw [place_moveTo, childPlace_moveTo _ _ away]
          exact belongs follows.1 p follows.2.2
    dsimp only
    split
    · refine taken.surfaceMap ?_ fun hidden => harmless hidden
      rw [surface]
      exact role
    · exact taken

theorem Orderly.hidden (orderly : d.Orderly) (free : (d.stack.surface s).role = .none) :
    (d.stack.surface s).mapped = false := by
  by_contra shown
  rw [Bool.not_eq_false] at shown
  exact ((orderly.roles.proper s).shown shown).1 free

theorem Orderly.xsGetToplevel (orderly : d.Orderly) (live : s ∈ d.stack.surfaces)
    (condition : d.Condition (.getToplevel s)) : (d.xsGetToplevel s).Orderly := by
  unfold Placement.xsGetToplevel
  split
  · exact orderly
  · rename_i free
    have roles := orderly.roles.next (.getToplevel s) live
    have unfolded : d.stack.xsGetToplevel s =
        d.stack.modify s fun x => { x with role := .toplevel, xdgToplevel := true } := by
      unfold WindowStack.xsGetToplevel
      rw [if_neg free]
    have window : ((d.stack.xsGetToplevel s).surface s).role = .toplevel := by
      rw [unfolded, WindowStack.modify_same]
    have silent : ∀ p, ¬((d.stack.xsGetToplevel s).surface s).Follows p :=
      Surface.not_follows_of_role (by simp [window]) (by simp [window])
    have gentle : d.stack.Gentle (d.stack.xsGetToplevel s) := by
      rw [unfolded]
      refine WindowStack.gentle_modify (fun p follows => ?_) fun p belongs => .inl belongs
      refine absurd ?_ (silent p)
      rw [unfolded, WindowStack.modify_same]
      exact follows
    have restacked := orderly.restack roles gentle
    dsimp only
    split
    · rename_i fullscreen
      simp only [Bool.and_eq_true, Bool.not_eq_true'] at fullscreen
      have harmless := condition (Bool.eq_false_iff.mpr free) fullscreen
      refine (restacked.modify ⟨rfl, rfl, rfl⟩).moveTo
        ⟨orderly.harmless harmless ?_ gentle, fun p _ follows => absurd follows (silent p)⟩
      simp [place, Spot.place]
    · exact restacked

/-- A new popup is placed where its positioner says. -/
theorem Orderly.xsGetPopup (orderly : d.Orderly) {parent : Option Nat}
    (allowed : d.Allowed (.getPopup s parent positioner))
    (condition : d.Condition (.getPopup s parent positioner)) :
    (d.xsGetPopup s parent positioner).Orderly := by
  unfold Placement.xsGetPopup
  split
  · exact orderly
  · rename_i accepted
    have refused := accepted
    simp only [PopupRefused, not_or, not_and] at refused
    have live : s ∈ d.stack.surfaces := by
      cases parent with
      | none => exact allowed
      | some p => exact allowed.1
    have roles := orderly.roles.next (.getPopup s parent) (by
      cases parent with
      | none => exact allowed
      | some p => exact allowed)
    have unfolded : d.stack.xsGetPopup s parent = d.stack.modify s fun x =>
        { x with role := .popup, parent := parent, xdgPopup := true } := by
      unfold WindowStack.xsGetPopup
      rw [if_neg refused.1, if_neg fun both => refused.2 both.1 both.2]
    have hidden : (d.stack.surface s).mapped = false := by
      refine orderly.hidden ?_
      by_contra used
      exact refused.1 (by simp [WindowStack.xsRoleTaken, used])
    have gentle : d.stack.Gentle (d.stack.xsGetPopup s parent) := by
      rw [unfolded]
      refine WindowStack.gentle_modify (fun p follows => ?_) fun p belongs => .inr ⟨?_, live⟩
      · exact absurd (hidden.symm.trans follows.1) Bool.false_ne_true
      · rintro rfl
        obtain rfl : parent = some p := belongs
        exact refused.2 rfl (WindowStack.surfaceIsAncestorOf_self d.stack p _)
    have restacked : Orderly ({ d with stack := d.stack.xsGetPopup s parent }.modify s
        ({ · with positioner := some positioner })) :=
      (orderly.restack roles gentle).modify ⟨rfl, rfl, rfl⟩
    dsimp only
    cases parent with
    | none => exact restacked
    | some p =>
      have parent : (({ d with stack := d.stack.xsGetPopup s (some p) }.modify s
          ({ · with positioner := some positioner })).stack.surface s).parent = some p := by
        simp [Placement.modify, unfolded]
      have away : p ≠ s := by
        rintro rfl
        exact restacked.linked.apart p parent
      refine restacked.popupPlace parent ?_
      have target : ({ d with stack := d.stack.xsGetPopup s (some p) }.modify s
          ({ · with positioner := some positioner })).popupTarget p positioner =
          d.popupTarget p positioner := by
        unfold popupTarget
        rw [modify_spot_other _ _ away]
        rfl
      rw [target]
      refine orderly.harmless (condition accepted) ?_ gentle
      simp [place, Spot.place]

/-- A popup that gets its parent late was not placed before. -/
theorem Orderly.layerSurfaceGetPopup (orderly : d.Orderly) {popup : Nat}
    (allowed : d.Allowed (.layerGetPopup s popup))
    (condition : d.Condition (.layerGetPopup s popup)) :
    (d.layerSurfaceGetPopup s popup).Orderly := by
  unfold Placement.layerSurfaceGetPopup
  split
  · exact orderly
  · rename_i isPopup
    rw [ne_eq, not_not] at isPopup
    obtain ⟨unplaced, harmless⟩ := condition isPopup
    obtain ⟨live, panel, livePopup, object⟩ := allowed
    have roles := orderly.roles.next (.layerGetPopup s popup) ⟨live, panel, livePopup, object⟩
    have unfolded : d.stack.layerSurfaceGetPopup s popup =
        d.stack.modify popup fun x => { x with parent := some s } := by
      unfold WindowStack.layerSurfaceGetPopup
      rw [if_neg (by simp [isPopup])]
    have apart : s ≠ popup := by
      rintro rfl
      have layer := (orderly.roles.proper s).layer panel
      rw [isPopup] at layer
      cases layer
    have surface : (d.stack.layerSurfaceGetPopup s popup).surface popup =
        { d.stack.surface popup with parent := some s } := by
      rw [unfolded, WindowStack.modify_same]
    have other : ∀ o, o ≠ popup →
        (d.stack.layerSurfaceGetPopup s popup).surface o = d.stack.surface o := by
      intro o away
      rw [unfolded, WindowStack.modify_other _ _ away]
    have surfaces : (d.stack.layerSurfaceGetPopup s popup).surfaces = d.stack.surfaces := by
      rw [unfolded]
      rfl
    have linked : (d.stack.layerSurfaceGetPopup s popup).Linked := by
      refine ⟨fun o own => ?_, fun o p belongs => ?_⟩
      · by_cases here : o = popup
        · subst here
          rw [surface] at own
          exact apart (Option.some.inj own)
        · rw [other o here] at own
          exact orderly.linked.apart o own
      · rw [surfaces]
        by_cases here : o = popup
        · exact here ▸ livePopup
        · rw [other o here] at belongs
          exact orderly.linked.live o p belongs
    dsimp only
    cases known : (d.spot popup).positioner with
    | none =>
      refine orderly.put (s := popup) roles linked (fun c p away follows => ?_) (fun o _ => .refl _)
        (.inl rfl) fun p follows => ?_
      · change ((d.stack.layerSurfaceGetPopup s popup).surface c).Follows p at follows
        rw [other c away] at follows
        exact follows
      · change ((d.stack.layerSurfaceGetPopup s popup).surface popup).Follows p at follows
        rw [surface] at follows
        exact absurd ((unplaced known).symm.trans follows.1) Bool.false_ne_true
    | some positioner =>
      obtain ⟨target, child⟩ := place_popupPlace
        { d with stack := d.stack.layerSurfaceGetPopup s popup } positioner apart
      refine orderly.put (s := popup) roles linked (fun c p away follows => ?_)
        (fun o away => stays_popupPlace
          { d with stack := d.stack.layerSurfaceGetPopup s popup } s positioner away)
        ?_ fun p follows => ?_
      · change ((d.stack.layerSurfaceGetPopup s popup).surface c).Follows p at follows
        rw [other c away] at follows
        exact follows
      · rw [target]
        exact harmless positioner known
      · change ((d.stack.layerSurfaceGetPopup s popup).surface popup).Follows p at follows
        rw [surface] at follows
        obtain rfl : s = p := Option.some.inj follows.2.2
        rw [target, child]

theorem Orderly.getLayerSurface (orderly : d.Orderly) {layer : BitVec 32}
    (live : s ∈ d.stack.surfaces) : (d.getLayerSurface s layer).Orderly := by
  unfold Placement.getLayerSurface
  split
  · exact orderly
  · rename_i free
    have roles := orderly.roles.next (.getLayerSurface s layer) live
    have unfolded : d.stack.getLayerSurface s layer =
        d.stack.modify s fun x => { x with role := .layer, layer := some { layer } } := by
      unfold WindowStack.getLayerSurface
      rw [if_neg free]
    have gentle : d.stack.Gentle (d.stack.getLayerSurface s layer) := by
      rw [unfolded]
      refine WindowStack.gentle_modify (fun p follows => ?_) fun p belongs => .inl belongs
      exact absurd follows (Surface.not_follows_of_role (by simp) (by simp) p)
    exact (orderly.restack roles gentle).modify ⟨rfl, rfl, rfl⟩

theorem Orderly.slockGetLockSurface (orderly : d.Orderly) {granted : Bool}
    (live : s ∈ d.stack.surfaces) (condition : d.Condition (.getLockSurface s granted)) :
    (d.slockGetLockSurface s granted).Orderly := by
  unfold Placement.slockGetLockSurface
  split
  · exact orderly
  · rename_i free
    have roles := orderly.roles.next (.getLockSurface s granted) live
    have unfolded : d.stack.slockGetLockSurface s granted =
        WindowStack.modify { d.stack with lockSurface := some s } s
          fun x => { x with role := .lock } := by
      unfold WindowStack.slockGetLockSurface
      rw [if_neg free]
    have silent : ∀ p, ¬((d.stack.slockGetLockSurface s granted).surface s).Follows p := by
      intro p
      rw [unfolded, WindowStack.modify_same]
      exact Surface.not_follows_of_role (by simp) (by simp) p
    have gentle : d.stack.Gentle (d.stack.slockGetLockSurface s granted) := by
      have locked : d.stack.Gentle { d.stack with lockSurface := some s } := .of_eq rfl fun _ => id
      rw [unfolded]
      refine locked.trans (WindowStack.gentle_modify (fun p follows => ?_) fun p belongs =>
        .inl belongs)
      exact absurd follows (Surface.not_follows_of_role (by simp) (by simp) p)
    have allowed : granted = true ∧ (d.stack.surface s).role = .none ∧
        d.stack.lockSurface = none := by
      simpa using free
    exact (orderly.restack roles gentle).moveTo
      ⟨orderly.harmless (condition allowed) rfl gentle,
        fun p _ follows => absurd follows (silent p)⟩

theorem Orderly.refit (orderly : d.Orderly)
    (fits : ∀ s ∈ d.stack.mapped, d.isShownWindow s = true → d.Fits s (d.refitPlace s)) :
    d.refit.Orderly := by
  refine ⟨orderly.roles, orderly.linked, fun c p follows => ?_⟩
  -- What follows a window is no window itself.
  have child : (d.refit).spot c = d.spot c := by
    have kind := follows.2.1
    have other : d.isShownWindow c = false := by
      unfold isShownWindow
      change (d.stack.surface c).role = _ ∨ (d.stack.surface c).role = _ at kind
      obtain role | role := kind <;> simp [role]
    simp [Placement.refit, other]
  have parent : (d.refit).place p = d.place p := by
    by_cases window : d.isShownWindow p = true
    · have moved : (d.refit).place p = d.refitPlace p := by
        simp [Placement.refit, place, window, Spot.place, Spot.moveTo]
      have shown : p ∈ d.stack.mapped := by
        simp only [isShownWindow, decide_eq_true_eq] at window
        exact window.1
      obtain same | free := (fits p shown window).1
      · exact moved.trans same
      · exact absurd follows (free c (orderly.linked.live c p follows.2.2))
    · simp [Placement.refit, place, window]
  have kept := orderly.followed c p follows
  rw [childPlace_eq] at kept ⊢
  rw [child, parent]
  unfold place at kept ⊢
  rw [child]
  exact kept

/-- Steps that meet the condition keep order. -/
theorem Orderly.next (orderly : d.Orderly) {event : Event} (allowed : d.Allowed event)
    (condition : d.Condition event) : (d.next event).Orderly := by
  cases event with
  | window event => exact orderly.window allowed.1 allowed.2
  | adopt s overrideRedirect x y => exact orderly.xwmAdoptSurface condition
  | configure s x y =>
    simp only [Placement.next, xwmConfigureSurface]
    split
    · rename_i isMenu
      exact orderly.moveTo (condition isMenu)
    · exact orderly
  | cache s pending => exact orderly.setSubsurface s _
  | setDesync s => exact orderly.setSubsurface s _
  | apply s input => exact orderly.applyOwn condition
  | getToplevel s => exact orderly.xsGetToplevel allowed condition
  | setMaximized s on => exact orderly.setState ⟨rfl, rfl, rfl⟩ condition
  | setFullscreen s on => exact orderly.setState ⟨rfl, rfl, rfl⟩ condition
  | getPopup s parent positioner => exact orderly.xsGetPopup allowed condition
  | layerGetPopup s popup => exact orderly.layerSurfaceGetPopup allowed condition
  | reposition s positioner =>
    have noted := orderly.modify (s := s) (f := ({ · with positioner := some positioner }))
      ⟨rfl, rfl, rfl⟩
    simp only [Placement.next, popupReposition]
    split
    · rename_i p parent
      have away : p ≠ s := by
        rintro rfl
        exact orderly.linked.apart p parent
      refine noted.popupPlace parent ?_
      have target : (d.modify s ({ · with positioner := some positioner })).popupTarget p
          positioner = d.popupTarget p positioner := by
        unfold popupTarget
        rw [modify_spot_other _ _ away]
        rfl
      rw [target]
      refine orderly.harmless (condition p parent) ?_ (.refl _)
      simp [place, Spot.place]
    · exact noted
  | setPosition s x y => exact orderly.setPosition condition
  | getLayerSurface s layer => exact orderly.getLayerSurface allowed
  | setLayerGeometry s l =>
    rw [Placement.next, Placement.setLayerGeometry]
    exact orderly.modify ⟨rfl, rfl, rfl⟩
  | setExclusiveZone s zone =>
    have noted : (d.modify s fun x => { x with
        layer := { x.layer with exclZone := zone } }).Orderly :=
      orderly.modify ⟨rfl, rfl, rfl⟩
    simp only [Placement.next, Placement.setExclusiveZone]
    split
    · exact noted.workAreaRecompute
    · exact noted
  | getLockSurface s granted => exact orderly.slockGetLockSurface allowed condition
  | setViewport s size =>
    rw [Placement.next]
    exact orderly.modify ⟨rfl, rfl, rfl⟩
  | interactiveBegin s resize edges px py =>
    simp only [Placement.next, interactiveBegin]
    split
    · exact orderly.of_same rfl fun _ => .refl _
    · exact orderly
  | interactiveUpdate x y =>
    simp only [Placement.next, interactiveUpdate]
    split
    · exact orderly
    · rename_i i active
      exact orderly.moveTo (condition i active)
  | interactiveEnd => exact orderly.of_same rfl fun _ => .refl _
  | outputReconfigure width height scale granted =>
    simp only [Placement.next, outputReconfigurePx]
    split
    · exact orderly
    · rename_i accepted
      simp only [not_or, Int.not_le, Bool.not_eq_false] at accepted
      have resized : Orderly { d with
          output := { width, height, scale := if scale < 1 then 1 else scale } } :=
        orderly.of_same rfl fun _ => .refl _
      exact resized.refit (condition accepted)

theorem orderly_start (begun : machine.start d) : d.Orderly := by
  obtain ⟨stack, _, _⟩ := begun
  refine ⟨?_, ⟨fun s => ?_, fun s p belongs => ?_⟩, fun c p follows => ?_⟩
  · rw [stack]
    exact ⟨fun s => by constructor <;> simp, fun s held => nomatch held⟩
  · rw [stack]
    simp
  · rw [stack] at belongs
    cases belongs
  · rw [stack] at follows
    cases follows.1

/--
Where every step meets the condition, children follow their parents.

Whoever puts a surface somewhere then leaves no popup and no subsurface of it behind.
-/
theorem children_follow {trace : List Event} {d : Placement}
    (run : (machine.restrict Condition).Run trace d) : d.Followed := by
  have orderly : d.Orderly := by
    refine run.invariant (fun _ d => d.Orderly) ?_ ?_
    · intro d begun
      exact orderly_start begun
    · intro _ d event orderly allowed
      exact orderly.next allowed.1 allowed.2
  exact orderly.followed

def emptyScreen : Placement where
  output := { width := 1000, height := 800, scale := 1 }

instance (d : Placement) (event : Event) : Decidable (machine.enabled d event) :=
  d.decidableAllowed event

def windowOpened : List Event :=
  [.window (.create 1), .getToplevel 1, .window (.attach 1 true), .apply 1 { size := (200, 100) }]

def menu : Positioner :=
  { sizeW := 50, sizeH := 40, anchor := { w := 20, h := 10 }, edge := 6, gravity := 8 }

def menuOpened : List Event :=
  [.window (.create 2), .getPopup 2 (some 1) menu, .window (.attach 2 true),
    .apply 2 { size := (50, 40) }]

def windowDragged : List Event :=
  [.interactiveBegin 1 false 0 45 45, .interactiveUpdate 55 45]

theorem children_follow_menu :
    ((windowOpened ++ windowDragged ++ menuOpened).foldl next emptyScreen).Followed :=
  children_follow
    (Machine.Run.of_script (m := machine.restrict Condition) ⟨rfl, fun _ => rfl, rfl⟩
      (windowOpened ++ windowDragged ++ menuOpened) (by decide))

/--
Children do not always follow their parents.

A menu stays behind where its window is dragged.
-/
theorem not_children_follow :
    ¬∀ (trace : List Event) (d : Placement), machine.Run trace d → d.Followed := by
  intro always
  have run : machine.Run _ _ :=
    .of_script (m := machine) (s := emptyScreen) ⟨rfl, fun _ => rfl, rfl⟩
      (windowOpened ++ menuOpened ++ windowDragged) (by decide)
  -- The window is ten pixels further, and its menu is not.
  have place := always _ _ run 2 1 (by decide)
  exact absurd place (by decide)

/-- A window that is dragged goes where the model of a single dragged window puts it. -/
theorem interactivePlace_eq_update (d : Placement) (i : Interactive) (st : InteractiveWindow)
    (p : Point) (op : st.op = if i.resize then .resize else .move) (edges : st.edges = i.edges)
    (pointer : st.px = i.px ∧ st.py = i.py) (position : st.dx = i.dx ∧ st.dy = i.dy)
    (size : st.w = i.w ∧ st.h = i.h)
    (geometry : st.surface.surfaceGeometry = (d.spot i.surface).surfaceGeometry) :
    d.interactivePlace i p.x p.y =
      ⟨(st.update d.workArea p).surface.dx, (st.update d.workArea p).surface.dy⟩ := by
  cases resize : i.resize with
  | false =>
    rw [resize, if_neg Bool.false_ne_true] at op
    simp [interactivePlace, InteractiveWindow.update, InteractiveWindow.moveAxis, resize, op,
      pointer, position, geometry]
  | true =>
    rw [resize, if_pos rfl] at op
    -- No edge is opposite to itself, so the order in which the edges are looked at is no matter.
    obtain ⟨across, along⟩ := InteractiveWindow.resizeHas_apart i.edges
    simp only [interactivePlace, InteractiveWindow.update, InteractiveWindow.resizeAxis, resize, op,
      edges, pointer, position, size, geometry, Bool.not_true, Bool.false_eq_true, if_false]
    simp only [resizeHasLeft, resizeHasRight, resizeHasTop, resizeHasBottom] at across along ⊢
    congr 1

theorem stack_surfaceMap (d : Placement) (s : Nat) :
    (d.surfaceMap s).stack = d.stack.surfaceMap s := by
  unfold surfaceMap
  split
  · rename_i full
    unfold WindowStack.surfaceMap
    rw [if_pos full]
  · dsimp only
    split <;> rfl

theorem stack_xwmAdoptSurface (d : Placement) (s : Nat) (overrideRedirect : Bool) (x y : Int) :
    (d.xwmAdoptSurface s overrideRedirect x y).stack =
      d.stack.xwmAdoptSurface s overrideRedirect := by
  have taken : (d.xwmTakeOver s overrideRedirect x y).stack =
      d.stack.modify s fun x =>
        { x with isXwayland := true, role := if overrideRedirect then .popup else .toplevel } := by
    unfold xwmTakeOver
    dsimp only
    split <;> rfl
  unfold xwmAdoptSurface WindowStack.xwmAdoptSurface
  split
  · rfl
  · dsimp only
    generalize d.stack.modify s _ = st' at taken ⊢
    rw [taken]
    split
    · rw [stack_surfaceMap, taken]
    · exact taken

theorem stack_commitOwn (input : PlacedCommit) (d : Placement) (s : Nat) :
    (commitOwn input d s).stack = WindowStack.commitOwn input.toCommitInput d.stack s := by
  have own : ∀ d : Placement, ∀ places : PlacementInput,
      (d.applyOwn s places).stack = (d.stack.layerCommit s).bufferCommit s := by
    intro d places
    have handshake : ((d.latch s places).layerCommit s).stack = d.stack.layerCommit s := by
      unfold layerCommit
      dsimp only
      split <;> rfl
    unfold applyOwn bufferCommit WindowStack.bufferCommit
    rw [handshake]
    split
    · split
      · rename_i pending
        have shown : ∀ d : Placement, (d.setBuffer s true places.size).stack =
            d.stack.modify s fun x =>
              { x with pendingBuffer := false, bufferAttached := false, currentBuffer := true } :=
          fun _ => rfl
        dsimp only
        rw [pending, shown, handshake, if_pos rfl]
        split
        · rw [stack_surfaceMap, shown, handshake]
        · rw [shown, handshake]
      · rename_i none
        rw [Bool.not_eq_true] at none
        have cleared : ∀ d : Placement, (d.setBuffer s false (0, 0)).stack =
            d.stack.modify s fun x =>
              { x with pendingBuffer := false, bufferAttached := false, currentBuffer := false } :=
          fun _ => rfl
        dsimp only
        rw [none, if_neg Bool.false_ne_true]
        change ((Placement.withStack _ _).dropInteractive s).stack = _
        rw [show ∀ d : Placement, (d.dropInteractive s).stack = d.stack from fun _ => rfl,
          withStack_stack, cleared, handshake]
    · exact handshake
  unfold commitOwn WindowStack.commitOwn
  cases adopted : input.adopt s with
  | none => exact own _ _
  | some overrideRedirect =>
    dsimp only
    rw [own, stack_xwmAdoptSurface]

theorem stack_foldl {step : Placement → Nat → Placement}
    {step' : WindowStack → Nat → WindowStack}
    (same : ∀ d c, (step d c).stack = step' d.stack c) (cs : List Nat) (d : Placement) :
    (cs.foldl step d).stack = cs.foldl step' d.stack := by
  induction cs generalizing d with
  | nil => rfl
  | cons c cs ih =>
    rw [List.foldl_cons, List.foldl_cons, ih, same]

theorem stack_commitNested (input : PlacedCommit) (waiting : Nat) (d : Placement) (s : Nat) :
    (commitNested input waiting d s).stack =
      WindowStack.commitNested input.toCommitInput waiting d.stack s := by
  have nested : ∀ (apply : Placement → Nat → Placement)
      (apply' : WindowStack → Nat → WindowStack),
      (∀ d c, (apply d c).stack = apply' d.stack c) → ∀ d s,
        (commitWith apply input d s).stack =
          WindowStack.commitWith apply' input.toCommitInput d.stack s := by
    intro apply apply' same d s
    rw [WindowStack.commitWith_eq]
    unfold commitWith
    dsimp only
    rw [← stack_commitOwn]
    split
    · refine stack_foldl (fun d c => ?_) _ _
      split
      · rw [same]
        rfl
      · rfl
    · rfl
  induction waiting generalizing d s with
  | zero => exact nested _ _ (fun _ _ => rfl) d s
  | succ waiting ih => exact nested _ _ ih d s

theorem stack_surfaceCommit (d : Placement) (s : Nat) (input : PlacedCommit) :
    (d.surfaceCommit s input).stack = d.stack.surfaceCommit s input.toCommitInput := by
  unfold surfaceCommit WindowStack.surfaceCommit
  split
  · rfl
  · exact stack_commitNested input _ d s

theorem stack_subsurfaceSetDesync (d : Placement) (s : Nat) (input : PlacedCommit) :
    (d.subsurfaceSetDesync s input).stack =
      d.stack.subsurfaceSetDesync s input.toCommitInput := by
  unfold subsurfaceSetDesync WindowStack.subsurfaceSetDesync
  dsimp only
  split
  · exact stack_commitNested input _ _ s
  · rfl

/-- One state follows another by steps that neither create nor destroy a surface. -/
def Reaches (d d' : Placement) : Prop :=
  d'.stack.surfaces = d.stack.surfaces ∧
    ∀ trace, machine.Run trace d → ∃ trace', machine.Run trace' d'

theorem Reaches.trans {d'' : Placement} (first : d.Reaches d') (second : d'.Reaches d'') :
    d.Reaches d'' := by
  refine ⟨second.1.trans first.1, fun trace run => ?_⟩
  obtain ⟨trace', run'⟩ := first.2 trace run
  exact second.2 trace' run'

theorem reaches_next {e : Event} (allowed : d.Allowed e)
    (surfaces : (d.next e).stack.surfaces = d.stack.surfaces) : d.Reaches (d.next e) :=
  ⟨surfaces, fun _ run => ⟨_, run.step e allowed⟩⟩

theorem reaches_commitOwn (input : PlacedCommit) (live : s ∈ d.stack.surfaces) :
    d.Reaches (commitOwn input d s) := by
  have kept := (WindowStack.keeps_commitOwn input.toCommitInput d.stack s).surfaces
  rw [← stack_commitOwn] at kept
  unfold commitOwn at kept ⊢
  cases adopted : input.adopt s with
  | none =>
    rw [adopted] at kept
    exact reaches_next (e := .apply s (input.places s)) live kept
  | some overrideRedirect =>
    rw [adopted] at kept
    have taken : (d.xwmAdoptSurface s overrideRedirect (input.adoptAt s).1
        (input.adoptAt s).2).stack.surfaces = d.stack.surfaces := by
      rw [stack_xwmAdoptSurface]
      exact (WindowStack.keeps_xwmAdoptSurface d.stack s overrideRedirect).surfaces
    have first := reaches_next (d := d) (e := .adopt s overrideRedirect (input.adoptAt s).1
      (input.adoptAt s).2) live taken
    refine first.trans (reaches_next (e := .apply s (input.places s)) ?_ ?_)
    · change s ∈ (d.xwmAdoptSurface s overrideRedirect (input.adoptAt s).1
        (input.adoptAt s).2).stack.surfaces
      rw [taken]
      exact live
    · exact kept.trans taken.symm

/-- A commit with all it sets off is a run of single placements. -/
theorem reaches_commitNested (input : PlacedCommit) (waiting : Nat) (live : s ∈ d.stack.surfaces) :
    d.Reaches (commitNested input waiting d s) := by
  have nested : ∀ apply : Placement → Nat → Placement,
      (∀ d c, c ∈ d.stack.surfaces → Reaches d (apply d c)) →
        ∀ d s, s ∈ d.stack.surfaces → Reaches d (commitWith apply input d s) := by
    intro apply applies d s live
    have own := reaches_commitOwn input live
    unfold commitWith
    dsimp only
    split
    · -- The children exist before and after each of them is applied.
      have loop : ∀ (cs : List Nat) (d' : Placement), d.Reaches d' →
          (∀ c ∈ cs, c ∈ d'.stack.surfaces) → d.Reaches (cs.foldl (fun d c =>
            if d.stack.waits s c then apply (d.cache c false) c else d) d') := by
        intro cs
        induction cs with
        | nil => exact fun d' reached _ => reached
        | cons c cs ih =>
          intro d' reached exist
          have here := exist c List.mem_cons_self
          have step :
              d'.Reaches (if d'.stack.waits s c then apply (d'.cache c false) c else d') := by
            split
            · rename_i waits
              have object : (d'.stack.surface c).subsurface.isSome = true := by
                simp only [WindowStack.waits, decide_eq_true_eq] at waits
                cases known : (d'.stack.surface c).subsurface with
                | none => simp [known] at waits
                | some ss => rfl
              have released := reaches_next (d := d') (e := .cache c false) ⟨here, object⟩ rfl
              exact released.trans (applies _ c here)
            · exact ⟨rfl, fun trace run => ⟨trace, run⟩⟩
          refine ih _ (reached.trans step) fun o within => ?_
          rw [step.1]
          exact exist o (List.mem_cons_of_mem c within)
      exact loop _ _ own fun _ within => within
    · exact own
  induction waiting generalizing d s with
  | zero => exact nested _ (fun _ _ _ => ⟨rfl, fun trace run => ⟨trace, run⟩⟩) d s live
  | succ waiting ih => exact nested _ (fun _ _ live => ih live) d s live

variable {trace : List Event}

theorem run_surfaceCommit (run : machine.Run trace d) (live : s ∈ d.stack.surfaces)
    (input : PlacedCommit) : ∃ trace', machine.Run trace' (d.surfaceCommit s input) := by
  unfold surfaceCommit
  split
  · rename_i cached
    have object : (d.stack.surface s).subsurface.isSome = true := by
      cases known : (d.stack.surface s).subsurface with
      | none => simp [known] at cached
      | some ss => rfl
    have allowed : d.Allowed (.cache s true) := ⟨live, object⟩
    exact ⟨_, Machine.Run.step (m := machine) (Event.cache s true) run allowed⟩
  · exact (reaches_commitNested input _ live).2 trace run

theorem run_subsurfaceSetDesync (run : machine.Run trace d) (live : s ∈ d.stack.surfaces)
    (object : (d.stack.surface s).subsurface.isSome = true) (input : PlacedCommit) :
    ∃ trace', machine.Run trace' (d.subsurfaceSetDesync s input) := by
  have allowed : d.Allowed (.setDesync s) := ⟨live, object⟩
  have desync : machine.Run (.setDesync s :: trace) (d.next (.setDesync s)) :=
    Machine.Run.step (m := machine) (Event.setDesync s) run allowed
  unfold subsurfaceSetDesync
  dsimp only
  split
  · have waits : (d.next (.setDesync s)).Allowed (.cache s false) :=
      ⟨live, by simpa [next] using object⟩
    have released : machine.Run (.cache s false :: .setDesync s :: trace)
        ((d.next (.setDesync s)).next (.cache s false)) :=
      Machine.Run.step (m := machine) (Event.cache s false) desync waits
    have applied := reaches_commitNested input
      ((d.next (.setDesync s)).next (.cache s false)).stack.waiting
      (d := (d.next (.setDesync s)).next (.cache s false)) live
    exact applied.2 _ released
  · exact ⟨_, desync⟩

/--
Commits that apply to whole trees of subsurfaces are made of the steps that runs are made of.

So what holds in all runs of the machine holds where the code recurses, too, and the windows are
those of the model without positions.
-/
theorem commits_are_runs (run : machine.Run trace d) (live : s ∈ d.stack.surfaces)
    (input : PlacedCommit) :
    (∃ trace', machine.Run trace' (d.surfaceCommit s input)) ∧
      (d.surfaceCommit s input).stack = d.stack.surfaceCommit s input.toCommitInput ∧
      ((d.stack.surface s).subsurface.isSome = true →
        (∃ trace', machine.Run trace' (d.subsurfaceSetDesync s input)) ∧
          (d.subsurfaceSetDesync s input).stack =
            d.stack.subsurfaceSetDesync s input.toCommitInput) :=
  ⟨run_surfaceCommit run live input, stack_surfaceCommit d s input,
    fun object => ⟨run_subsurfaceSetDesync run live object input,
      stack_subsurfaceSetDesync d s input⟩⟩

/-- A window is about to be mapped, and so is a synchronized subsurface that waits for it. -/
def subsurfaceWaiting : List Event :=
  [.window (.create 1), .getToplevel 1, .window (.attach 1 true), .window (.create 2),
    .window (.getSubsurface 2 1), .window (.attach 2 true), .cache 2 true]

theorem commits_are_runs_subsurface :
    (∃ trace, machine.Run trace ((subsurfaceWaiting.foldl next emptyScreen).surfaceCommit 1 {})) ∧
      ((subsurfaceWaiting.foldl next emptyScreen).surfaceCommit 1 {}).stack.mapped = [1, 2] ∧
      (∃ trace,
        machine.Run trace ((subsurfaceWaiting.foldl next emptyScreen).subsurfaceSetDesync 2 {})) ∧
      ((subsurfaceWaiting.foldl next emptyScreen).subsurfaceSetDesync 2 {}).stack.mapped = [2] := by
  have run : machine.Run _ (subsurfaceWaiting.foldl next emptyScreen) :=
    .of_script (m := machine) ⟨rfl, fun _ => rfl, rfl⟩ subsurfaceWaiting (by decide)
  obtain ⟨window, shown, -⟩ := commits_are_runs (s := 1) run (by decide) {}
  obtain ⟨-, -, desync⟩ := commits_are_runs (s := 2) run (by decide) {}
  obtain ⟨subsurface, alone⟩ := desync (by decide)
  refine ⟨window, ?_, subsurface, ?_⟩
  · rw [shown]
    decide
  · rw [alone]
    decide

end Placement

end Xios
