import Xios.Windows.Requests
import Xios.Windows.StackLaws

/-! The list of mapped surfaces stays in order unless a panel leaves its band while it is shown. -/

namespace Xios

namespace WindowStack

/--
A panel stays between its neighbours.

Moving a surface to another layer while it is mapped is harmless if its new band is not below that
of the surface directly under it, and not above that of the surface directly over it.
-/
def Between (st : WindowStack) : Event → Prop
  | .setLayer s layer =>
    s ∈ st.mapped →
      (∀ o ∈ (Banded.before s st.mapped).getLast?,
        st.surfaceBand o ≤ (st.layerSurfaceSetLayer s layer).surfaceBand s) ∧
      ∀ o ∈ (Banded.after s st.mapped).head?,
        (st.layerSurfaceSetLayer s layer).surfaceBand s ≤ st.surfaceBand o
  | _ => True

instance decidableBetween (st : WindowStack) (event : Event) : Decidable (st.Between event) := by
  unfold Between
  induction event using Event.casesOn <;> infer_instance

theorem sound_empty : Sound {} := by
  refine ⟨⟨?_, List.nodup_nil, Nat.zero_le _, List.Pairwise.nil⟩, ?_, ?_⟩
  · intro s
    simp
  · intro s
    constructor <;> simp
  · intro s shown
    cases shown

variable {st : WindowStack} {s : Nat} {f : Surface → Surface}

theorem Sound.takeRole (sound : st.Sound) (free : (st.surface s).role = .none)
    (flag : (f (st.surface s)).mapped = (st.surface s).mapped)
    (proper : (f (st.surface s)).Proper) : (st.modify s f).Sound := by
  refine sound.modify s f ?_ flag ?_ proper
  · intro held
    have lock := sound.locked s held
    rw [free] at lock
    cases lock
  · intro shown
    exact absurd free ((sound.proper s).shown shown).1

theorem Sound.dropRole (sound : st.Sound) (hidden : (st.surface s).mapped = false)
    (unlocked : st.lockSurface ≠ some s)
    (flag : (f (st.surface s)).mapped = (st.surface s).mapped)
    (proper : (f (st.surface s)).Proper) : (st.modify s f).Sound := by
  refine sound.modify s f (fun held => absurd held unlocked) flag ?_ proper
  intro shown
  rw [hidden] at shown
  cases shown

theorem Sound.destroyRole {st' : WindowStack} (sound : st.Sound)
    (unmapped : (st.surfaceUnmap s).Hides st')
    (flag : (f (st'.surface s)).mapped = (st'.surface s).mapped)
    (proper : (st'.surface s).Proper → (f (st'.surface s)).Proper) : (st'.modify s f).Sound := by
  obtain ⟨hides, hidden⟩ := hides_surfaceUnmap st s
  have kept : st'.Sound := unmapped.sound (hides.sound sound)
  refine kept.dropRole (unmapped.mapped hidden) ?_ flag (proper (kept.proper s))
  intro held
  exact lock_surfaceUnmap st s (unmapped.lock s held)

theorem Sound.orphan (sound : st.Sound) (s : Nat) : (st.orphan s).Sound := by
  have same : ∀ o, ((st.orphan s).surface o).Proper ∧
      ((st.orphan s).surface o).mapped = (st.surface o).mapped ∧
      ((st.orphan s).surface o).band = (st.surface o).band ∧
      ((st.orphan s).surface o).role = (st.surface o).role := by
    intro o
    unfold WindowStack.orphan
    simp only
    split
    · exact ⟨{ sound.proper o with }, rfl, rfl, rfl⟩
    · exact ⟨sound.proper o, rfl, rfl, rfl⟩
  refine ⟨⟨?_, sound.stacked.once, sound.stacked.bounded, ?_⟩, fun o => (same o).1, ?_⟩
  · intro o
    rw [(same o).2.1]
    exact sound.stacked.listed o
  · exact sorted_congr sound.stacked.ordered fun o _ => (same o).2.2.1
  · intro o held
    rw [(same o).2.2.2]
    exact sound.locked o held

theorem Sound.surfaceResourceDestroy (sound : st.Sound) (s : Nat) :
    (st.surfaceResourceDestroy s).Sound := by
  have removed : Sound { st with surfaces := st.surfaces.erase s } :=
    sound.of_eq rfl rfl fun _ => id
  obtain ⟨hides, hidden⟩ := hides_surfaceUnmap { st with surfaces := st.surfaces.erase s } s
  have unlocked := lock_surfaceUnmap { st with surfaces := st.surfaces.erase s } s
  unfold WindowStack.surfaceResourceDestroy
  simp only
  generalize surfaceUnmap { st with surfaces := st.surfaces.erase s } s = st' at hides hidden unlocked
  have unmapped : st'.Sound := hides.sound removed
  -- The surface is off every list before its state is cleared.
  have stripped : (st'.modify s fun x => { x with subsurface := none, layer := none }).Sound := by
    refine unmapped.dropRole hidden unlocked rfl ?_
    exact { unmapped.proper s with
      subsurface := fun some => absurd some (by simp), layer := fun some => absurd some (by simp) }
  have gone := hides_popupGrabOnSurfaceGone
    ((st'.modify s fun x => { x with subsurface := none, layer := none }).orphan s) s
  have flag : (((st'.modify s fun x => { x with subsurface := none, layer := none }).orphan
      s).surface s).mapped = false := by
    unfold WindowStack.orphan
    simp only [modify_same]
    split <;> exact hidden
  have hiddenStill := gone.mapped flag
  refine (gone.sound (stripped.orphan s)).dropRole hiddenStill ?_ ?_ ?_
  · intro held
    exact unlocked (gone.lock s held)
  · rw [hiddenStill]
  · constructor <;> simp

theorem Sound.xsGetToplevel (sound : st.Sound) (s : Nat) : (st.xsGetToplevel s).Sound := by
  unfold WindowStack.xsGetToplevel
  split
  · exact sound
  · rename_i taken
    simp only [xsRoleTaken, ne_eq, decide_eq_true_eq, not_or, not_not] at taken
    obtain ⟨hidden, native, -, popup, subsurface, layer⟩ := (sound.proper s).free (.inl taken.1)
    refine sound.takeRole taken.1 rfl ?_
    constructor <;> simp [hidden, native, popup, subsurface, layer]

theorem Sound.xsGetPopup (sound : st.Sound) (s : Nat) (parent : Option Nat) :
    (st.xsGetPopup s parent).Sound := by
  unfold WindowStack.xsGetPopup
  split
  · exact sound
  · rename_i taken
    split
    · exact sound
    · simp only [xsRoleTaken, ne_eq, decide_eq_true_eq, not_or, not_not] at taken
      obtain ⟨hidden, native, toplevel, -, subsurface, layer⟩ :=
        (sound.proper s).free (.inl taken.1)
      refine sound.takeRole taken.1 rfl ?_
      constructor <;> simp [hidden, native, toplevel, subsurface, layer]

theorem Sound.getSubsurface (sound : st.Sound) (s parent : Nat) :
    (st.getSubsurface s parent).Sound := by
  unfold WindowStack.getSubsurface
  split
  · exact sound
  · rename_i taken
    split
    · exact sound
    · simp only [ne_eq, not_or, not_not] at taken
      obtain ⟨hidden, native, toplevel, popup, -, layer⟩ := (sound.proper s).free (.inl taken.1)
      refine sound.takeRole taken.1 rfl ?_
      constructor <;> simp [hidden, native, toplevel, popup, layer]

theorem Sound.getLayerSurface (sound : st.Sound) (s : Nat) (layer : BitVec 32) :
    (st.getLayerSurface s layer).Sound := by
  unfold WindowStack.getLayerSurface
  split
  · exact sound
  · rename_i taken
    simp only [ne_eq, not_or, not_not] at taken
    obtain ⟨hidden, native, toplevel, popup, subsurface, -⟩ :=
      (sound.proper s).free (.inl taken.1)
    refine sound.takeRole taken.1 rfl ?_
    constructor <;> simp [hidden, native, toplevel, popup, subsurface]

theorem Sound.slockGetLockSurface (sound : st.Sound) (s : Nat) (granted : Bool) :
    (st.slockGetLockSurface s granted).Sound := by
  unfold WindowStack.slockGetLockSurface
  split
  · exact sound
  · rename_i taken
    simp only [ne_eq, not_or, not_not] at taken
    obtain ⟨hidden, native, toplevel, popup, subsurface, layer⟩ :=
      (sound.proper s).free (.inl taken.2.1)
    have role : (st.modify s fun x => { x with role := .lock }).Sound := by
      refine sound.takeRole taken.2.1 rfl ?_
      constructor <;> simp [hidden, native, toplevel, popup, subsurface, layer]
    refine ⟨⟨role.stacked.listed, role.stacked.once, role.stacked.bounded, role.stacked.ordered⟩,
      role.proper, ?_⟩
    intro o held
    have same : o = s := Option.some.inj held.symm
    rw [same, modify_same]

theorem Sound.slockSurfaceResourceDestroy (sound : st.Sound) (held : st.lockSurface = some s) :
    (st.slockSurfaceResourceDestroy s).Sound := by
  have unlocked : Sound { st with lockSurface := none } :=
    sound.of_eq rfl rfl fun _ shown => absurd shown (by simp)
  obtain ⟨hidden, native, toplevel, popup, subsurface, layer⟩ :=
    (sound.proper s).free (.inr (sound.locked s held))
  refine unlocked.dropRole hidden (by simp) rfl ?_
  constructor <;> simp [hidden, native, toplevel, popup, subsurface, layer]

theorem Sound.toplevelResourceDestroy (sound : st.Sound)
    (object : (st.surface s).xdgToplevel = true) : (st.toplevelResourceDestroy s).Sound := by
  obtain ⟨hides, hidden⟩ := hides_surfaceUnmap st s
  refine sound.destroyRole (.refl _) rfl ?_
  intro proper
  have still := hides.blind (g := Surface.xdgToplevel) (fun _ => rfl) s
  rw [object] at still
  obtain ⟨role, native⟩ := proper.toplevel still
  obtain ⟨-, -, -, popup, subsurface, layer⟩ := proper
  constructor <;> simp_all

theorem Sound.popupResourceDestroy (sound : st.Sound) (object : (st.surface s).xdgPopup = true) :
    (st.popupResourceDestroy s).Sound := by
  obtain ⟨hides, hidden⟩ := hides_surfaceUnmap st s
  have gone := hides_popupGrabOnSurfaceGone (st.surfaceUnmap s) s
  refine sound.destroyRole gone rfl ?_
  intro proper
  have still := (hides.trans gone).blind (g := Surface.xdgPopup) (fun _ => rfl) s
  have hiddenStill := gone.mapped hidden
  rw [object] at still
  obtain ⟨role, native⟩ := proper.popup still
  obtain ⟨-, -, toplevel, -, subsurface, layer⟩ := proper
  constructor <;> simp_all

theorem Sound.subsurfaceResourceDestroy (sound : st.Sound)
    (object : (st.surface s).subsurface.isSome) : (st.subsurfaceResourceDestroy s).Sound := by
  obtain ⟨hides, hidden⟩ := hides_surfaceUnmap st s
  refine sound.destroyRole (.refl _) rfl ?_
  intro proper
  have still := hides.blind (g := Surface.subsurface) (fun _ => rfl) s
  have role := proper.subsurface (by rw [still]; exact object)
  obtain ⟨-, foreign, toplevel, popup, -, layer⟩ := proper
  constructor <;> simp_all

theorem Sound.layerSurfaceResDestroy (sound : st.Sound) (s : Nat) :
    (st.layerSurfaceResDestroy s).Sound := by
  unfold WindowStack.layerSurfaceResDestroy
  split
  · exact sound
  · rename_i object
    obtain ⟨hides, hidden⟩ := hides_surfaceUnmap st s
    refine sound.destroyRole (.refl _) rfl ?_
    intro proper
    have still := hides.blind (g := fun x => x.layer.isSome)
      (fun x => by unfold Surface.hide; simp only; split <;> simp) s
    have role := proper.layer (by rw [still]; exact Option.isSome_iff_ne_none.mpr (by simpa using object))
    obtain ⟨-, foreign, toplevel, popup, subsurface, -⟩ := proper
    constructor <;> simp_all

theorem Sound.xwmUnadoptSurface (sound : st.Sound) (s : Nat) : (st.xwmUnadoptSurface s).Sound := by
  unfold WindowStack.xwmUnadoptSurface
  split
  · rename_i adopted
    obtain ⟨hides, hidden⟩ := hides_surfaceUnmap st s
    refine sound.destroyRole (.refl _) rfl ?_
    intro proper
    have still := hides.blind (g := Surface.isXwayland) (fun _ => rfl) s
    rw [adopted] at still
    have role := proper.foreign still
    obtain ⟨-, -, toplevel, popup, subsurface, layer⟩ := proper
    constructor <;> simp_all
    all_goals
      cases role with
      | inl window => simp_all
      | inr menu => simp_all
  · exact sound

variable {band : Nat → Nat} {l : List Nat} {bound o : Nat}

theorem le_of_getLast (sorted : Banded.Sorted band l) (last : ∀ o ∈ l.getLast?, band o ≤ bound)
    (member : o ∈ l) : band o ≤ bound := by
  cases split : l.getLast? with
  | none =>
    rw [List.getLast?_eq_none_iff.mp split] at member
    cases member
  | some top =>
    obtain ⟨init, rfl⟩ := List.getLast?_eq_some_iff.mp split
    have topped : band top ≤ bound := last top (by simp)
    rcases List.mem_append.mp member with before | same
    · exact ((List.pairwise_append.mp sorted).2.2 o before top (by simp)).trans topped
    · rw [List.mem_singleton.mp same]
      exact topped

theorem ge_of_head (sorted : Banded.Sorted band l) (first : ∀ o ∈ l.head?, bound ≤ band o)
    (member : o ∈ l) : bound ≤ band o := by
  cases l with
  | nil => cases member
  | cons bottom rest =>
    have based : bound ≤ band bottom := first bottom (by simp)
    rcases List.mem_cons.mp member with same | after
    · rw [same]
      exact based
    · exact based.trans ((List.pairwise_cons.mp sorted).1 o after)

/-- A new layer keeps the order when the neighbours' bands are on the right sides. -/
theorem Sound.layerSurfaceSetLayer (sound : st.Sound) (s : Nat) (layer : BitVec 32)
    (between : st.Between (.setLayer s layer)) : (st.layerSurfaceSetLayer s layer).Sound := by
  have proper : ({ st.surface s with
      layer := (st.surface s).layer.map ({ · with layer }) } : Surface).Proper := by
    refine { sound.proper s with layer := ?_ }
    simpa using (sound.proper s).layer
  by_cases member : s ∈ st.mapped
  · have split := Banded.before_append_after member
    obtain ⟨under, upper⟩ := between member
    generalize Banded.before s st.mapped = below at split under
    generalize Banded.after s st.mapped = above at split upper
    have sorted := sound.stacked.ordered
    have once := sound.stacked.once
    rw [← split] at sorted once
    obtain ⟨low, high, across⟩ := List.pairwise_append.mp sorted
    obtain ⟨least, high⟩ := List.pairwise_cons.mp high
    -- The other surfaces keep their bands.
    have others : ∀ o, o ≠ s →
        (st.layerSurfaceSetLayer s layer).surfaceBand o = st.surfaceBand o := by
      intro o other
      unfold surfaceBand WindowStack.layerSurfaceSetLayer
      rw [modify_other _ _ other]
    have belowOther : ∀ o ∈ below, o ≠ s := by
      intro o here same
      rw [same] at here
      exact (List.nodup_append.mp once).2.2 s here s (by simp) rfl
    have aboveOther : ∀ o ∈ above, o ≠ s := by
      intro o here same
      rw [same] at here
      exact (List.nodup_cons.mp (List.nodup_append.mp once).2.1).1 here
    refine ⟨⟨?_, sound.stacked.once, sound.stacked.bounded, ?_⟩, ?_, ?_⟩
    · intro o
      show o ∈ st.mapped ↔ _
      rw [sound.stacked.listed o]
      unfold WindowStack.layerSurfaceSetLayer
      by_cases same : o = s
      · rw [same, modify_same]
      · rw [modify_other _ _ same]
    · show Banded.Sorted _ st.mapped
      rw [← split]
      refine List.pairwise_append.mpr ⟨?_, List.pairwise_cons.mpr ⟨?_, ?_⟩, ?_⟩
      · exact sorted_congr low fun o here => others o (belowOther o here)
      · intro o here
        rw [others o (aboveOther o here)]
        exact ge_of_head high upper here
      · exact sorted_congr high fun o here => others o (aboveOther o here)
      · intro o here o' there
        rw [others o (belowOther o here)]
        rcases List.mem_cons.mp there with same | later
        · rw [same]
          exact le_of_getLast low under here
        · rw [others o' (aboveOther o' later)]
          exact across o here o' (List.mem_cons_of_mem _ later)
    · intro o
      unfold WindowStack.layerSurfaceSetLayer
      by_cases same : o = s
      · rw [same, modify_same]
        exact proper
      · rw [modify_other _ _ same]
        exact sound.proper o
    · intro o held
      have locked := sound.locked o held
      unfold WindowStack.layerSurfaceSetLayer
      by_cases same : o = s
      · rw [same, modify_same]
        exact same ▸ locked
      · rw [modify_other _ _ same]
        exact locked
  · refine sound.modify s _ (fun held => sound.locked s held) rfl ?_ proper
    intro shown
    exact absurd ((sound.stacked.listed s).mpr shown) member

theorem Sound.surfaceCommit (sound : st.Sound) (s : Nat) (input : CommitInput) :
    (st.surfaceCommit s input).Sound := by
  unfold WindowStack.surfaceCommit
  split
  · refine sound.setOther s rfl rfl rfl { sound.proper s with subsurface := ?_ }
    simpa using (sound.proper s).subsurface
  · exact sound.surfaceCommitApply input s

theorem Sound.subsurfaceSetDesync (sound : st.Sound) (s : Nat) (input : CommitInput) :
    (st.subsurfaceSetDesync s input).Sound := by
  have desync : (st.modify s fun x =>
      { x with subsurface := x.subsurface.map ({ · with sync := false }) }).Sound := by
    refine sound.setOther s rfl rfl rfl { sound.proper s with subsurface := ?_ }
    simpa using (sound.proper s).subsurface
  unfold WindowStack.subsurfaceSetDesync
  simp only
  split
  · exact ((settles_release _ s).1.sound desync).surfaceCommitApply input s
  · exact desync

theorem Sound.onBufferDestroyed (sound : st.Sound) (s : Nat) : (st.onBufferDestroyed s).Sound := by
  have cleared : (st.modify s fun x => { x with currentBuffer := false }).Sound :=
    sound.setOther s rfl rfl rfl { sound.proper s with }
  unfold WindowStack.onBufferDestroyed
  simp only
  split
  · exact (hides_surfaceUnmap _ s).1.sound cleared
  · exact cleared

/-- Each event keeps the windows sound if panels stay between their neighbours. -/
theorem Sound.next (sound : st.Sound) (event : Event) (allowed : st.Allowed event)
    (between : st.Between event) : (st.next event).Sound := by
  cases event with
  | create s => exact sound.of_eq rfl rfl fun _ => id
  | destroy s => exact sound.surfaceResourceDestroy s
  | attach s buffer =>
    simp only [WindowStack.next, surfaceAttach]
    exact sound.setOther s rfl rfl rfl { sound.proper s with }
  | commit s input => exact sound.surfaceCommit s input
  | bufferDestroyed s => exact sound.onBufferDestroyed s
  | pendingBufferDestroyed s =>
    simp only [WindowStack.next, onPendingBufferDestroyed]
    exact sound.setOther s rfl rfl rfl { sound.proper s with }
  | getToplevel s => exact sound.xsGetToplevel s
  | setParent s parent =>
    simp only [WindowStack.next, xtSetParent]
    split
    · exact sound
    · exact sound.setOther s rfl rfl rfl { sound.proper s with }
  | toplevelDestroyed s => exact sound.toplevelResourceDestroy allowed.2
  | getPopup s parent => exact sound.xsGetPopup s parent
  | grab s =>
    simp only [WindowStack.next, popupGrab]
    split
    · exact sound
    · exact sound.of_eq rfl rfl fun _ => id
  | popupDestroyed s => exact sound.popupResourceDestroy allowed.2
  | getSubsurface s parent => exact sound.getSubsurface s parent
  | placeAbove s => exact sound.surfaceRaise s
  | placeBelow s => exact sound.surfaceLowerOne s
  | setSync s =>
    simp only [WindowStack.next, subsurfaceSetSync]
    refine sound.setOther s rfl rfl rfl { sound.proper s with subsurface := ?_ }
    simpa using (sound.proper s).subsurface
  | setDesync s input => exact sound.subsurfaceSetDesync s input
  | subsurfaceDestroyed s => exact sound.subsurfaceResourceDestroy allowed.2
  | getLayerSurface s layer => exact sound.getLayerSurface s layer
  | setLayer s layer => exact sound.layerSurfaceSetLayer s layer between
  | layerGetPopup s popup =>
    simp only [WindowStack.next, layerSurfaceGetPopup]
    split
    · exact sound
    · exact sound.setOther popup rfl rfl rfl { sound.proper popup with }
  | layerDestroyed s => exact sound.layerSurfaceResDestroy s
  | getLockSurface s granted => exact sound.slockGetLockSurface s granted
  | lockSurfaceDestroyed s => exact sound.slockSurfaceResourceDestroy allowed
  | adopt s overrideRedirect => exact (settles_xwmAdoptSurface st s overrideRedirect).sound sound
  | unadopt s => exact sound.xwmUnadoptSurface s
  | raise s => exact sound.surfaceRaise s
  | pressOutside => exact sound.popupGrabDismissAll

/--
The list of mapped surfaces is in order.

In every history in which panels stay between their neighbours, it holds exactly the surfaces that
are shown, each once, no more than fit, and sorted by band from bottom to top.
-/
theorem mapped_in_order {trace : List Event} {st : WindowStack}
    (run : (machine.restrict Between).Run trace st) : st.Stacked := by
  have sound : st.Sound := by
    refine run.invariant (fun _ st => st.Sound) ?_ ?_
    · intro st begun
      have empty : st = {} := begun
      rw [empty]
      exact sound_empty
    · intro _ st event sound allowed
      exact sound.next event allowed.1 allowed.2
  exact sound.stacked

instance decidableEnabled (st : WindowStack) (event : Event) :
    Decidable (machine.enabled st event) :=
  inferInstanceAs (Decidable (st.Allowed event))

def windowOverPanel : List Event :=
  [.create 0, .getToplevel 0, .attach 0 true, .commit 0 {},
    .create 1, .getLayerSurface 1 1#32, .commit 1 {}, .attach 1 true, .commit 1 {}]

def panelToBottom : List Event :=
  windowOverPanel ++ [.setLayer 1 0#32]

theorem mapped_in_order_bottom :
    (panelToBottom.foldl next {}).mapped = [1, 0] ∧ (panelToBottom.foldl next {}).Stacked := by
  have run : (machine.restrict Between).Run panelToBottom.reverse (panelToBottom.foldl next {}) :=
    .of_script (m := machine.restrict Between) (s := {}) rfl panelToBottom (by decide)
  exact ⟨by decide, mapped_in_order run⟩

def panelToTop : List Event :=
  windowOverPanel ++ [.setLayer 1 2#32]

/-- A panel that moves to the top while it is mapped stays below the windows. -/
theorem not_mapped_in_order :
    ¬∀ (trace : List Event) (st : WindowStack), machine.Run trace st → st.Stacked := by
  intro stacked
  have run : machine.Run panelToTop.reverse (panelToTop.foldl next {}) :=
    .of_script (m := machine) (s := {}) rfl panelToTop (by decide)
  have ordered := (stacked _ _ run).ordered
  have listed : (panelToTop.foldl next {}).mapped = [1, 0] := by decide
  rw [listed] at ordered
  have above := (List.pairwise_cons.mp ordered).1 0 (by simp)
  exact absurd above (by decide)

end WindowStack

end Xios
