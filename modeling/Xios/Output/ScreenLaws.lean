import Xios.Output.SceneLaws

/-! Which commits bring their contents to the texture and to the screen. -/

namespace Xios

namespace TextureScene

variable {α β : Type*} {c : SceneLayout α}

variable {st : TextureScene α β}

theorem due_spec (well : st.damage.WellFormed) (age : Nat) :
    (st.due c age).WellFormed ∧
      ∀ x y, st.damage.Covers x y → (st.due c age).Covers x y := by
  unfold due DamageHistory.apply
  split
  · exact ⟨well.addPx _ _ _, fun x y covered => OutputDamage.addPx_mono well _ _ _ covered⟩
  · obtain ⟨after, covers⟩ := st.history.applyFrom_spec c.width c.height (age - 1) 1 well
    exact ⟨after, fun x y covered => covers x y (.inl covered)⟩

variable {x y : Int}

theorem painted_covers (well : st.damage.WellFormed) (age : Nat) (damaged : st.damage.Covers x y) :
    Rect.Covers (st.painted c age) x y := by
  obtain ⟨after, covers⟩ := st.due_spec (c := c) well age
  obtain ⟨valid, covered⟩ := covers x y damaged
  rw [painted, if_pos valid, outputDamageConsume_rects after valid]
  exact covered

variable {r : Rect}

theorem hideBehind_apart {original : Rect} {cuts : List Rect}
    (apart : ∀ cut ∈ cuts, r.intersects cut = false) : hideBehind original [r] cuts = [r] := by
  induction cuts with
  | nil => rfl
  | cons cut cuts ih =>
    have rest : [r].flatMap (·.subtract cut) = [r] := by
      simp [Rect.subtract_of_apart (apart cut List.mem_cons_self)]
    simp only [hideBehind, rest]
    simpa [maxVisibleRects] using
      ih fun other member => apart other (List.mem_cons_of_mem cut member)

theorem compositeSurfaceAt_shows (x : TextureSurface β) :
    x.compositeSurfaceAt.currentBuffer = x.currentBuffer ∧ x.compositeSurfaceAt.dx = x.dx ∧
      x.compositeSurfaceAt.dy = x.dy := by
  unfold TextureSurface.compositeSurfaceAt
  split
  · exact ⟨rfl, rfl, rfl⟩
  · split
    · exact ⟨rfl, rfl, rfl⟩
    · exact ⟨rfl, rfl, rfl⟩

/-- Surfaces are drawn. -/
structure Drawn (c : SceneLayout α) (st st' : TextureScene α β) : Prop where
  mapped : st'.mapped = st.mapped
  placed : ∀ o, st'.surfaceRect c o = st.surfaceRect c o
  -- What is in order stays so, and what is up to date, too.
  sound : (∀ o, (st.surface o).Sound) → ∀ o, (st'.surface o).Sound
  textured : (∀ o, (st.surface o).Sound) → ∀ o, st.Textured o → st'.Textured o

theorem Drawn.refl (st : TextureScene α β) : st.Drawn c st where
  mapped := rfl
  placed _ := rfl
  sound := id
  textured _ _ := id

variable {st' : TextureScene α β}

theorem Drawn.trans {st'' : TextureScene α β} (first : st.Drawn c st') (second : st'.Drawn c st'') :
    st.Drawn c st'' where
  mapped := second.mapped.trans first.mapped
  placed o := (second.placed o).trans (first.placed o)
  sound sound := second.sound (first.sound sound)
  textured sound o textured :=
    second.textured (first.sound sound) o (first.textured sound o textured)

theorem texels_one {size pixel : Int} (inside : 0 ≤ pixel ∧ pixel < size) :
    texels 1 size pixel = [pixel] := by
  have place : 2 * pixel + 1 - 1 = 2 * pixel := by omega
  have whole : 2 * pixel % (2 * 1) = 0 := by omega
  have half : 2 * pixel / (2 * 1) = pixel := by omega
  simp only [texels, place, whole, half, ↓reduceIte]
  rw [min_eq_left (by omega), max_eq_right inside.1]

variable {s : α}

theorem Textured.pixels (textured : st.Textured s) :
    ∀ b ∈ (st.surface s).currentBuffer, ∃ t ∈ (st.surface s).texture,
      ∀ p ∈ b.pixels, t.content p.1 p.2 = b.content p.1 p.2 := by
  intro b shown
  obtain ⟨t, cached, same⟩ := textured b shown
  exact ⟨t, cached, fun p listed => same.2 p.1 p.2 (ShmBuffer.mem_pixels.mp listed)⟩

variable [DecidableEq α]

theorem textured_composite (sound : (st.surface s).Sound) :
    (st.modify s TextureSurface.compositeSurfaceAt).Textured s := by
  intro b shown
  rw [surface_modify_self] at shown ⊢
  rw [(compositeSurfaceAt_shows _).1] at shown
  exact sound.compositeSurfaceAt_same shown

theorem drawn_composite (st : TextureScene α β) (s : α) :
    st.Drawn c (st.modify s TextureSurface.compositeSurfaceAt) where
  mapped := rfl
  placed o := by
    by_cases here : o = s
    · subst here
      obtain ⟨buffer, dx, dy⟩ := compositeSurfaceAt_shows (st.surface o)
      exact surfaceRect_congr (by rw [surface_modify_self, buffer])
        (by rw [surface_modify_self, dx]) (by rw [surface_modify_self, dy])
    · have others := st.surface_modify_of_ne TextureSurface.compositeSurfaceAt here
      exact surfaceRect_congr (by rw [others]) (by rw [others]) (by rw [others])
  sound sound := sound_modify sound (sound s).compositeSurfaceAt
  textured sound o textured := by
    by_cases here : o = s
    · subst here
      exact textured_composite (sound o)
    · intro b shown
      rw [surface_modify_of_ne _ _ here] at shown ⊢
      exact textured b shown

theorem drawn_compositeVisible (st : TextureScene α β) (solid : α → Bool) (d : Rect) (s : α)
    (above : List α) : st.Drawn c (compositeVisible c solid d st s above) :=
  List.foldlRecOn _ _ (.refl st) fun st' sofar _ _ => sofar.trans (st'.drawn_composite s)

theorem drawn_compositeAll (solid : α → Bool) (d : Rect) (st : TextureScene α β) (l : List α) :
    st.Drawn c (compositeAll c solid d st l) := by
  induction l generalizing st with
  | nil => exact .refl st
  | cons s above ih => exact (st.drawn_compositeVisible solid d s above).trans (ih _)

theorem drawn_foldl (solid : α → Bool) (st : TextureScene α β) (rects : List Rect) :
    st.Drawn c (rects.foldl (fun st d => compositeAll c solid d st st.mapped) st) :=
  List.foldlRecOn rects _ (.refl st) fun st' sofar d _ =>
    sofar.trans (drawn_compositeAll solid d st' st'.mapped)

variable {o : α}

theorem Drawn.fullyVisible (drawn : st.Drawn c st') :
    st'.FullyVisible c o ↔ st.FullyVisible c o := by
  constructor
  · intro visible
    have clear := visible.clear
    simp only [drawn.placed, drawn.mapped] at clear
    exact ⟨drawn.mapped ▸ visible.mapped, clear⟩
  · intro visible
    have clear := visible.clear
    simp only [← drawn.placed, ← drawn.mapped] at clear
    exact ⟨drawn.mapped ▸ visible.mapped, clear⟩

theorem textured_compositeVisible (sound : (st.surface s).Sound) {d : Rect}
    (placed : st.surfaceRect c s = some r) {above : List α}
    (clear : ∀ o ∈ above, ∀ r' ∈ st.surfaceRect c o, r.intersects r' = false)
    (inside : r.Contains x y) (damaged : d.Contains x y) (solid : α → Bool) :
    (compositeVisible c solid d st s above).Textured s := by
  obtain ⟨v, common, within⟩ := Rect.intersection_of_contains inside damaged
  have whole : st.visibleDamageRects c solid s above d = [v] := by
    simp only [visibleDamageRects, placed, Option.bind_some, common]
    refine hideBehind_apart fun cut listed => ?_
    obtain ⟨o, member, there⟩ := List.mem_filterMap.mp listed
    split at there
    · by_contra overlap
      rw [Bool.not_eq_false] at overlap
      exact Bool.noConfusion ((within.intersects overlap).symm.trans (clear o member cut there))
    · exact absurd there (by simp)
  rw [compositeVisible, whole]
  exact textured_composite sound

theorem textured_compositeAll (sound : ∀ o, (st.surface o).Sound) {l : List α} (member : s ∈ l)
    {d : Rect} (placed : st.surfaceRect c s = some r)
    (clear : ∀ o ∈ after s l, ∀ r' ∈ st.surfaceRect c o, r.intersects r' = false)
    (inside : r.Contains x y) (damaged : d.Contains x y) (solid : α → Bool) :
    (compositeAll c solid d st l).Textured s := by
  induction l generalizing st with
  | nil => exact absurd member (by simp)
  | cons o above ih =>
    have drawn := st.drawn_compositeVisible (c := c) solid d o above
    unfold after at clear
    by_cases here : o = s
    · rw [if_pos here] at clear
      have textured :=
        textured_compositeVisible (sound o) (here ▸ placed) clear inside damaged solid
      exact here ▸ (drawn_compositeAll solid d _ above).textured (drawn.sound sound) o textured
    · rw [if_neg here] at clear
      refine ih (drawn.sound sound) ((List.mem_cons.mp member).resolve_left (Ne.symm here))
        (drawn.placed s ▸ placed) fun q later r' there => clear q later r' ?_
      exact drawn.placed q ▸ there

theorem textured_foldl (sound : ∀ o, (st.surface o).Sound) (visible : st.FullyVisible c s)
    (placed : st.surfaceRect c s = some r) (inside : r.Contains x y) {rects : List Rect}
    (damaged : Rect.Covers rects x y) (solid : α → Bool) :
    (rects.foldl (fun st d => compositeAll c solid d st st.mapped) st).Textured s := by
  obtain ⟨d, listed, contains⟩ := damaged
  obtain ⟨before, later, rfl⟩ := List.append_of_mem listed
  rw [List.foldl_append, List.foldl_cons]
  -- It is drawn in this rectangle, and stays up to date in those after it.
  have sofar := st.drawn_foldl (c := c) solid before
  have now := sofar.fullyVisible.mpr visible
  have sound := sofar.sound sound
  rw [← sofar.placed] at placed
  generalize before.foldl (fun st d => compositeAll c solid d st st.mapped) st = st' at *
  obtain ⟨r', placed', -, clear⟩ := now.clear
  obtain rfl : r = r' := Option.some.inj (placed.symm.trans placed')
  have textured := textured_compositeAll sound now.mapped placed clear inside contains solid
  have drawn := drawn_compositeAll (c := c) solid d st' st'.mapped
  exact (drawn_foldl solid _ later).textured (drawn.sound sound) s textured

theorem Fresh.textured_recompositeNow (fresh : st.Fresh c) (age : Nat) (solid : α → Bool)
    (visible : (st.recompositeNow c age solid).FullyVisible c s) :
    (st.recompositeNow c age solid).Textured s := by
  obtain ⟨after, covers⟩ := st.due_spec (c := c) fresh.wellFormed age
  unfold recompositeNow at visible ⊢
  split at visible
  · rename_i valid
    rw [if_pos valid]
    have drawn := st.drawn_foldl (c := c) solid
      (outputDamageConsume c.width c.height (st.due c age)).1
    have before := drawn.fullyVisible.mp ⟨visible.mapped, visible.clear⟩
    rcases fresh.shown s before with textured | ⟨r, placed, x, y, inside, damaged⟩
    · exact drawn.textured fresh.sound s textured
    · obtain ⟨_, covered⟩ := covers x y damaged
      rw [← outputDamageConsume_rects after valid c.width c.height] at covered
      exact textured_foldl fresh.sound before placed inside covered solid
  · rename_i invalid
    rw [if_neg invalid]
    rcases fresh.shown s ⟨visible.mapped, visible.clear⟩ with textured | ⟨r, _, x, y, _, damaged⟩
    · exact textured
    · exact absurd (covers x y damaged).1 invalid

theorem Fresh.recompositeNow (fresh : st.Fresh c) (age : Nat) (solid : α → Bool) :
    (st.recompositeNow c age solid).Fresh c := by
  refine ⟨?_, ?_, fun s visible => .inl (fresh.textured_recompositeNow age solid visible)⟩
  · unfold TextureScene.recompositeNow
    split
    · exact (st.drawn_foldl (c := c) solid _).sound fresh.sound
    · exact fresh.sound
  · unfold TextureScene.recompositeNow
    split
    · exact outputDamageConsume_wellFormed c.width c.height _
    · exact (st.due_spec (c := c) fresh.wellFormed age).1

variable {event : Event α β}

/-- Every step keeps what holds between steps. -/
theorem Fresh.next (fresh : st.Fresh c) (allowed : st.Allowed event) (met : st.Condition c event) :
    (st.next c event).Fresh c := by
  cases event with
  | attach s buffer =>
    exact fresh.modify s (·.attach buffer) (fun _ => ⟨rfl, rfl, rfl, rfl⟩)
      ((fresh.sound s).attach allowed)
  | damage s r => exact fresh.surfaceDamage s r
  | damageBuffer s r => exact fresh.surfaceDamageBuffer s r
  | note s =>
    exact fresh.modify s TextureSurface.note (fun _ => ⟨rfl, rfl, rfl, rfl⟩)
      ((fresh.sound s).note allowed)
  | cache s pending =>
    exact fresh.modify s ({ · with cachePending := pending }) (fun _ => ⟨rfl, rfl, rfl, rfl⟩)
      { fresh.sound s with }
  | apply s input => exact fresh.applyOwn met
  | setSync s sync =>
    exact fresh.modify s ({ · with sync := sync }) (fun _ => ⟨rfl, rfl, rfl, rfl⟩)
      { fresh.sound s with }
  | recomposite age solid => exact fresh.recompositeNow age solid

theorem fresh_of_run {trace : List (Event α β)}
    (run : ((machine c).restrict (Condition c)).Run trace st) : st.Fresh c := by
  refine run.invariant (fun _ st => st.Fresh c) ?_ ?_
  · rintro _ rfl
    exact {
      sound := fun _ => TextureSurface.sound_empty
      wellFormed := ⟨by simp, by simp, by simp, by simp⟩
      shown := fun o visible => absurd visible.mapped (by simp) }
  · exact fun _ st event fresh allowed => fresh.next allowed.1 allowed.2

/-- No damage is lost. -/
def Damaged (st st' : TextureScene α β) : Prop :=
  st'.damage.WellFormed ∧ ∀ x y, st.damage.Covers x y → st'.damage.Covers x y

theorem damaged_applyOwn (well : st.damage.WellFormed) (s : α) (input : MapInput) :
    st.Damaged (st.applyOwn c s input) := by
  have applied := st.applied_applyOwn (c := c) s input
  generalize st.applyOwn c s input = st' at applied ⊢
  cases applied with
  | still attached => exact ⟨well, fun _ _ => id⟩
  | @shows b shown attached pending shows =>
    have grows := grows_shown (c := c) shown s (s ∈ st.mapped ∧ (st.surface s).Preserves (some b))
    rw [← shows.damage] at well
    refine ⟨grows.wellFormed well, fun x y damaged => grows.covers well x y ?_⟩
    exact shows.damage ▸ damaged
  | hides attached pending hides =>
    have grows := st.grows_leaving (c := c) s
    rw [Damaged, hides.damage]
    exact ⟨grows.wellFormed well, grows.covers well⟩

theorem grows_next (st : TextureScene α β) (quiet : event.repaints = false)
    (waits : ∀ s input, event ≠ .apply s input) : st.Grows (st.next c event) := by
  cases event with
  | attach s buffer => exact st.grows_modify s (·.attach buffer) fun _ => ⟨rfl, rfl, rfl, rfl⟩
  | damage s r => exact st.grows_surfaceDamage s r
  | damageBuffer s r => exact st.grows_surfaceDamageBuffer s r
  | note s => exact st.grows_modify s TextureSurface.note fun _ => ⟨rfl, rfl, rfl, rfl⟩
  | cache s pending =>
    exact st.grows_modify s ({ · with cachePending := pending }) fun _ => ⟨rfl, rfl, rfl, rfl⟩
  | apply s input => exact absurd rfl (waits s input)
  | setSync s sync =>
    exact st.grows_modify s ({ · with sync := sync }) fun _ => ⟨rfl, rfl, rfl, rfl⟩
  | recomposite age solid => exact absurd quiet (by simp [Event.repaints])

theorem damaged_next (well : st.damage.WellFormed) (quiet : event.repaints = false) :
    st.Damaged (st.next c event) := by
  by_cases applies : ∃ s input, event = .apply s input
  · obtain ⟨s, input, rfl⟩ := applies
    exact damaged_applyOwn well s input
  · have grows := st.grows_next (c := c) quiet fun s input same => applies ⟨s, input, same⟩
    exact ⟨grows.wellFormed well, grows.covers well⟩

theorem damaged_foldl (well : st.damage.WellFormed) {later : List (Event α β)}
    (quiet : ∀ event ∈ later, event.repaints = false) : st.Damaged (later.foldl (next c) st) := by
  induction later generalizing st with
  | nil => exact ⟨well, fun _ _ => id⟩
  | cons event later ih =>
    obtain ⟨after, covers⟩ := damaged_next (c := c) well (quiet event List.mem_cons_self)
    obtain ⟨last, more⟩ := ih after fun event member => quiet event (List.mem_cons_of_mem _ member)
    exact ⟨last, fun x y damaged => more x y (covers x y damaged)⟩

theorem sample_none (hidden : (st.surface s).currentBuffer = none) (x y : Int) :
    st.sample c s x y = none := by
  simp only [sample, hidden]

theorem covers_of_sample (shown : (st.sample c s x y).isSome = true) :
    s ∈ st.mapped ∧ ∃ r, st.surfaceRect c s = some r ∧ r.Contains x y := by
  unfold sample at shown
  split at shown
  · rename_i r _ placed
    split at shown
    · rename_i covered
      exact ⟨covered.1, r, placed, covered.2⟩
    · exact absurd shown (by simp)
  · exact absurd shown (by simp)

theorem Grows.sample (grows : st.Grows st') (s : α) (x y : Int) :
    st'.sample c s x y = st.sample c s x y := by
  simp only [TextureScene.sample, grows.buffer, grows.surfaceRect, grows.mapped]

theorem sample_one (unit : c.scale = 1) {b : ShmBuffer β} (here : s ∈ st.mapped)
    (current : (st.surface s).currentBuffer = some b)
    (inside : b.Contains (x - (st.surface s).dx) (y - (st.surface s).dy)) :
    st.sample c s x y = some [b.content (x - (st.surface s).dx) (y - (st.surface s).dy)] := by
  obtain ⟨left, right, top, bottom⟩ := inside
  simp only [sample, current, surfaceRect_eq current ⟨by omega, by omega⟩]
  rw [unit, if_pos ⟨here, by simp only [Rect.Contains]; omega⟩]
  simp only [Int.mul_one, texels_one ⟨left, right⟩, texels_one ⟨top, bottom⟩, List.map_cons,
    List.map_nil, List.flatMap_cons, List.flatMap_nil, List.append_nil]

/-- Every pixel that looks different lies in a rectangle the client has reported. -/
theorem changes_listed {shown : TextureScene α β} (fresh : st.Fresh c) {input : MapInput}
    (met : st.Condition c (.apply s input)) (attached : (st.surface s).bufferAttached = true)
    {b : ShmBuffer β} (pending : (st.surface s).pendingBuffer = some b)
    (kept : s ∈ st.mapped ∧ (st.surface s).Preserves (some b)) (shows : st.Shows s b shown)
    (visible : (shown.sample c s x y).isSome = true)
    (differs : shown.sample c s x y ≠ st.sample c s x y) :
    ∃ r ∈ (shown.surface s).glDirtyRects,
      (⟨((shown.surface s).dx + r.x) * c.scale, ((shown.surface s).dy + r.y) * c.scale,
        r.w * c.scale, r.h * c.scale⟩ : DamageReport).Contains x y := by
  obtain ⟨here, preserves⟩ := kept
  have ready := ready_of_condition met
  have unit := ((met.2 attached b pending).2 preserves).1 here
  have coming := (fresh.sound s).honest ready.committed
  simp only [TextureSurface.coming, attached, ↓reduceIte, pending] at coming
  obtain ⟨stays, own⟩ := shows.stays here
  have current := shows.currentBuffer
  obtain ⟨-, dx, dy⟩ := setBuffer_take (st.surface s) b
  rw [← own] at dx dy
  have rects : (shown.surface s).glDirtyRects = (st.surface s).glDirtyRects := by
    have same : (st.surface s).take.Preserves (some b) := preserves
    rw [own, TextureSurface.setBuffer, if_pos same]
    rfl
  have parts := preserves
  obtain ⟨b', new, a, old, same, -⟩ := parts
  obtain rfl : b = b' := Option.some.inj new
  obtain ⟨_, r, placed, covered⟩ := covers_of_sample visible
  obtain ⟨b', now, -, -, rfl⟩ := exists_of_surfaceRect placed
  obtain rfl : b = b' := Option.some.inj (current.symm.trans now)
  rw [unit, dx, dy] at covered
  simp only [Rect.Contains, Int.mul_one] at covered
  have inside : b.Contains (x - (st.surface s).dx) (y - (st.surface s).dy) := by
    simp only [ShmBuffer.Contains]
    omega
  have before := sample_one unit here old (same.contains.mpr inside)
  have after := sample_one unit (stays ▸ here) current (dx.symm ▸ dy.symm ▸ inside)
  rw [before, after, dx, dy] at differs
  -- What was committed differs from what is shown there, so damage was requested.
  have changed : ShmBuffer.Differs (st.surface s).currentBuffer (st.surface s).committed
      (x - (st.surface s).dx) (y - (st.surface s).dy) := by
    refine ⟨b, coming ▸ rfl, inside, fun a' there _ equal => ?_⟩
    obtain rfl : a = a' := Option.some.inj (old.symm.trans there)
    exact differs (by rw [equal])
  have requested := (fresh.sound s).asked _ _ changed
  obtain ⟨r, listed, within⟩ := ready.kept attached b pending preserves _ _ inside requested
  refine ⟨r, rects ▸ listed, ?_⟩
  simp only [DamageReport.Contains] at within ⊢
  rw [unit, dx, dy]
  omega

theorem applyOwn_damages (fresh : st.Fresh c) {input : MapInput}
    (met : st.Condition c (.apply s input))
    (inside : (⟨0, 0, c.width, c.height⟩ : Rect).Contains x y)
    (shown : ((st.applyOwn c s input).sample c s x y).isSome = true)
    (differs : (st.applyOwn c s input).sample c s x y ≠ st.sample c s x y) :
    (st.applyOwn c s input).damage.Covers x y := by
  have applied := st.applied_applyOwn (c := c) s input
  generalize st.applyOwn c s input = st' at applied shown differs ⊢
  cases applied with
  | still attached =>
    have taken : st.Grows (st.modify s TextureSurface.take) :=
      st.grows_modify s _ fun _ => ⟨rfl, rfl, rfl, rfl⟩
    exact absurd (taken.sample s x y) differs
  | @shows b scene attached pending shows =>
    have well : scene.damage.WellFormed := shows.damage ▸ fresh.wellFormed
    have sound := shows.sound fresh.sound (ready_of_condition met) attached pending s
    have grows := grows_shown (c := c) scene s (s ∈ st.mapped ∧ (st.surface s).Preserves (some b))
    rw [grows.sample] at shown differs
    split
    · rename_i kept
      obtain ⟨r, listed, within⟩ :=
        changes_listed fresh met attached pending kept shows shown differs
      have here : s ∈ scene.mapped := (shows.stays kept.1).1 ▸ kept.1
      exact dirty_covers well sound here shows.currentBuffer listed inside within
    · obtain ⟨-, r, placed, covered⟩ := covers_of_sample shown
      exact outputDamageAddSurface_covers well placed inside covered
  | hides attached pending hides =>
    have hidden : (st'.surface s).currentBuffer = none := by
      rw [hides.own]
      simp [TextureSurface.setBuffer, TextureSurface.Preserves, TextureSurface.glDirtyFull]
    rw [sample_none hidden] at shown
    exact absurd shown (by simp)

theorem sample_congr (same : st'.surface o = st.surface o)
    (mapped : o ∈ st'.mapped ↔ o ∈ st.mapped) (x y : Int) :
    st'.sample c o x y = st.sample c o x y := by
  have place : st'.surfaceRect c o = st.surfaceRect c o :=
    surfaceRect_congr (by rw [same]) (by rw [same]) (by rw [same])
  simp only [sample, same, place, mapped]

theorem sample_applyOwn_of_ne (st : TextureScene α β) (away : o ≠ s) (input : MapInput)
    (x y : Int) : (st.applyOwn c s input).sample c o x y = st.sample c o x y := by
  have applied := st.applied_applyOwn (c := c) s input
  generalize st.applyOwn c s input = st' at applied ⊢
  cases applied with
  | still attached => exact sample_congr (st.surface_modify_of_ne _ away) Iff.rfl x y
  | @shows b shown attached pending shows =>
    have grows := grows_shown (c := c) shown s (s ∈ st.mapped ∧ (st.surface s).Preserves (some b))
    rw [grows.sample]
    refine sample_congr (shows.others o away) ?_ x y
    by_cases here : s ∈ st.mapped
    · rw [(shows.stays here).1]
    · obtain same | ⟨below, rest, before, now⟩ := shows.joins here
      · rw [same]
      · simp [before, now, away]
  | hides attached pending hides =>
    refine sample_congr (hides.others o away) ?_ x y
    rw [hides.mapped]
    exact List.mem_erase_of_ne away

theorem next_damages (fresh : st.Fresh c) (met : st.Condition c event)
    (quiet : event.repaints = false) (inside : (⟨0, 0, c.width, c.height⟩ : Rect).Contains x y)
    (shown : ((st.next c event).sample c s x y).isSome = true)
    (differs : (st.next c event).sample c s x y ≠ st.sample c s x y) :
    (st.next c event).damage.Covers x y := by
  by_cases applies : ∃ o input, event = .apply o input
  · obtain ⟨o, input, rfl⟩ := applies
    by_cases here : s = o
    · subst here
      exact applyOwn_damages fresh met inside shown differs
    · exact absurd (st.sample_applyOwn_of_ne here input x y) differs
  · have grows := st.grows_next (c := c) quiet fun o input same => applies ⟨o, input, same⟩
    exact absurd (grows.sample s x y) differs

theorem foldl_damages (fresh : st.Fresh c) {events : List (Event α β)}
    (admitted : ((machine c).restrict (Condition c)).Admits st events)
    (quiet : ∀ event ∈ events, event.repaints = false)
    (inside : (⟨0, 0, c.width, c.height⟩ : Rect).Contains x y)
    (shown : ((events.foldl (next c) st).sample c s x y).isSome = true)
    (differs : (events.foldl (next c) st).sample c s x y ≠ st.sample c s x y) :
    (events.foldl (next c) st).damage.Covers x y := by
  induction events generalizing st with
  | nil => exact absurd rfl differs
  | cons event events ih =>
    obtain ⟨⟨allowed, met⟩, admitted⟩ := admitted
    have fresh' := fresh.next allowed met
    have quiet' := quiet event List.mem_cons_self
    have rest := fun event member => quiet event (List.mem_cons_of_mem _ member)
    simp only [List.foldl_cons] at shown differs ⊢
    by_cases later : (events.foldl (next c) (st.next c event)).sample c s x y =
        (st.next c event).sample c s x y
    · -- The pixel has its value from the first step on.
      rw [later] at shown differs
      exact (damaged_foldl fresh'.wellFormed rest).2 x y
        (next_damages fresh met quiet' inside shown differs)
    · exact ih fresh' admitted rest shown later

/-- The steps listed so far lead to the state, and none of them is a repaint. -/
def Listed (c : SceneLayout α) (st : TextureScene α β)
    (p : TextureScene α β × List (Event α β)) : Prop :=
  p.2.foldl (next c) st = p.1 ∧ ∀ event ∈ p.2, event.repaints = false

theorem Listed.concat {p : TextureScene α β × List (Event α β)} (listed : st.Listed c p)
    (event : Event α β) (quiet : event.repaints = false) :
    st.Listed c (p.1.next c event, p.2 ++ [event]) := by
  refine ⟨by simp [listed.1], fun other member => ?_⟩
  rcases List.mem_append.mp member with old | new
  · exact listed.2 other old
  · exact List.mem_singleton.mp new ▸ quiet

theorem listed_applySteps (st : TextureScene α β) (s : α) (input : α → MapInput) :
    st.Listed c (st.surfaceCommitApply c input s, st.applySteps c input s) := by
  let visit : Forest.Visit α (TextureScene α β × List (Event α β)) := {
    own := fun p s => (p.1.applyOwn c s (input s), p.2 ++ [.apply s (input s)])
    ready := fun p s => (p.1.surface s).sync && (p.1.surface s).cachePending
    enter := fun p s => (p.1.cache s false, p.2 ++ [.cache s false]) }
  have state : st.surfaceCommitApply c input s = (c.forest.cascade visit (st, []) s).1 :=
    c.forest.cascade_hom (v := visit) Prod.fst (fun _ _ => rfl) (fun _ _ => rfl) (fun _ _ => rfl)
      (st, []) s
  have both := c.forest.cascade_relates visit
    (fun _ p p' => st.Listed c p → st.Listed c p')
    (fun p s listed => listed.concat (.apply s (input s)) rfl)
    (fun _ p' _ d _ _ _ before after listed =>
      after ((before listed).concat (.cache d false) rfl))
    (st, []) s ⟨rfl, nofun⟩
  exact ⟨both.1.trans state.symm, both.2⟩

theorem foldl_steps (st : TextureScene α β) (event : Request α β) :
    (st.steps c event).foldl (next c) st = st.request c event := by
  cases event with
  | commit s input =>
    simp only [steps, request, surfaceCommit, List.foldl_cons]
    split
    · rfl
    · exact (listed_applySteps _ s input).1
  | setDesync s input =>
    simp only [steps, request, subsurfaceSetDesync, List.foldl_cons]
    split
    · exact (listed_applySteps _ s input).1
    · rfl
  | attach s buffer => rfl
  | damage s r => rfl
  | damageBuffer s r => rfl
  | setSync s => rfl
  | recomposite age solid => rfl

theorem steps_quiet (st : TextureScene α β) {event : Request α β} (quiet : event.repaints = false) :
    ∀ step ∈ st.steps c event, step.repaints = false := by
  intro step member
  cases event with
  | commit s input =>
    simp only [steps, List.mem_cons] at member
    rcases member with rfl | member
    · rfl
    split at member
    · rw [List.mem_singleton.mp member]
      rfl
    · exact (listed_applySteps _ s input).2 step member
  | setDesync s input =>
    simp only [steps, List.mem_cons] at member
    rcases member with rfl | member
    · rfl
    split at member
    · rcases List.mem_cons.mp member with rfl | member
      · rfl
      · exact (listed_applySteps _ s input).2 step member
    · exact absurd member List.not_mem_nil
  | attach s buffer => exact List.mem_singleton.mp member ▸ rfl
  | damage s r => exact List.mem_singleton.mp member ▸ rfl
  | damageBuffer s r => exact List.mem_singleton.mp member ▸ rfl
  | setSync s => exact List.mem_singleton.mp member ▸ rfl
  | recomposite age solid => exact absurd quiet (by simp [Request.repaints])

theorem run_of_requests {trace : List (Request α β)}
    (run : ((requests c).restrict (Meets c)).Run trace st) :
    ∃ events, ((machine c).restrict (Condition c)).Run events st := by
  induction run with
  | start begun => exact ⟨[], .start begun⟩
  | step event _ allowed ih =>
    obtain ⟨events, run⟩ := ih
    have further := run.script _ allowed.2
    rw [show ((machine c).restrict (Condition c)).next = next c from rfl, foldl_steps] at further
    exact ⟨_, further⟩

theorem damaged_requests (well : st.damage.WellFormed) {later : List (Request α β)}
    (quiet : ∀ event ∈ later, event.repaints = false) :
    st.Damaged (later.foldl (request c) st) := by
  induction later generalizing st with
  | nil => exact ⟨well, fun _ _ => id⟩
  | cons event later ih =>
    have quiet' := st.steps_quiet (c := c) (quiet event List.mem_cons_self)
    have first := damaged_foldl (c := c) well quiet'
    rw [foldl_steps] at first
    obtain ⟨last, more⟩ :=
      ih first.1 fun event member => quiet event (List.mem_cons_of_mem _ member)
    exact ⟨last, fun x y damaged => more x y (first.2 x y damaged)⟩

/--
Where all steps meet the condition, committed damage reaches the texture and the screen.

After a repaint the texture of every visible surface has the contents of its buffer.
What a request changes of a surface on the output is painted by the next repaint.
-/
theorem damage_reaches_screen (c : SceneLayout α) {trace : List (Request α β)}
    {st : TextureScene α β} (run : ((requests c).restrict (Meets c)).Run trace st) :
    (∀ age solid s, (st.recompositeNow c age solid).FullyVisible c s →
      (st.recompositeNow c age solid).Textured s) ∧
    ∀ event, st.Meets c event → event.repaints = false →
      ∀ s x y, st.Changes c event s x y →
        ∀ later : List (Request α β), (∀ other ∈ later, other.repaints = false) →
          ∀ age,
            Rect.Covers ((later.foldl (request c) (st.request c event)).painted c age) x y := by
  obtain ⟨_, steps⟩ := run_of_requests run
  have fresh := fresh_of_run steps
  refine ⟨fun age solid s visible => fresh.textured_recompositeNow age solid visible, ?_⟩
  intro event meets quiet s x y changes later waits age
  obtain ⟨inside, shown, differs⟩ := changes
  have quiet := st.steps_quiet (c := c) quiet
  have damaged := damaged_foldl (c := c) fresh.wellFormed quiet
  have covered := foldl_damages fresh meets quiet inside
    (by rw [foldl_steps]; exact shown) (by rw [foldl_steps]; exact differs)
  rw [foldl_steps] at damaged covered
  obtain ⟨well, more⟩ := damaged_requests (c := c) damaged.1 waits
  exact painted_covers well age (more x y covered)

theorem covered_iff (old new : Option (ShmBuffer β)) (rects : List DamageReport) :
    (∀ x y, ShmBuffer.Differs old new x y → DamageReport.Covered rects x y) ↔
      ∀ b ∈ new, ∀ p ∈ b.pixels, (∀ a ∈ old, a.Contains p.1 p.2 →
        a.content p.1 p.2 ≠ b.content p.1 p.2) → DamageReport.Covered rects p.1 p.2 := by
  constructor
  · intro covered b shown p listed differs
    exact covered p.1 p.2 ⟨b, shown, ShmBuffer.mem_pixels.mp listed, differs⟩
  · rintro covered x y ⟨b, shown, inside, differs⟩
    exact covered b shown (x, y) (ShmBuffer.mem_pixels.mpr inside) differs

instance [DecidableEq β] (st : TextureScene α β) (event : Request α β) :
    Decidable ((requests c).enabled st event) :=
  match event with
  | .attach _ buffer => inferInstanceAs (Decidable (∀ b ∈ buffer, 0 < b.width ∧ 0 < b.height))
  | .commit .. => decidable_of_iff _ (covered_iff ..).symm
  | .damage .. | .damageBuffer .. | .setSync .. | .setDesync .. | .recomposite .. => .isTrue trivial

instance [DecidableEq β] (st : TextureScene α β) (event : Event α β) :
    Decidable ((machine c).enabled st event) :=
  match event with
  | .attach _ buffer => inferInstanceAs (Decidable (∀ b ∈ buffer, 0 < b.width ∧ 0 < b.height))
  | .note _ => decidable_of_iff _ (covered_iff ..).symm
  | .damage .. | .damageBuffer .. | .cache .. | .apply .. | .setSync .. | .recomposite .. =>
    .isTrue trivial

theorem kept_iff (b : ShmBuffer β) (waiting rects : List DamageReport) :
    (∀ i j, b.Contains i j → DamageReport.Covered waiting i j → DamageReport.Covered rects i j) ↔
      ∀ p ∈ b.pixels, DamageReport.Covered waiting p.1 p.2 →
        DamageReport.Covered rects p.1 p.2 := by
  constructor
  · exact fun kept p listed => kept p.1 p.2 (ShmBuffer.mem_pixels.mp listed)
  · exact fun kept i j inside => kept (i, j) (ShmBuffer.mem_pixels.mpr inside)

instance (b : ShmBuffer β) (waiting rects : List DamageReport) :
    Decidable (∀ i j, b.Contains i j → DamageReport.Covered waiting i j →
      DamageReport.Covered rects i j) :=
  decidable_of_iff _ (kept_iff b waiting rects).symm

instance (st : TextureScene α β) (event : Event α β) : Decidable (Condition c st event) :=
  match event with
  | .apply s _ =>
    inferInstanceAs (Decidable ((st.surface s).ahead = false ∧
      ((st.surface s).bufferAttached = true → ∀ b ∈ (st.surface s).pendingBuffer,
        (s ∈ st.mapped → ∀ a ∈ (st.surface s).currentBuffer,
          a.width ≤ b.width ∧ a.height ≤ b.height) ∧
        ((st.surface s).Preserves (some b) → (s ∈ st.mapped → c.scale = 1) ∧
          ∀ i j, b.Contains i j → DamageReport.Covered (st.surface s).waiting i j →
            DamageReport.Covered (st.surface s).glDirtyRects i j))))
  | .damageBuffer _ r =>
    inferInstanceAs (Decidable (r.x + r.w < 2 ^ 31 ∧ r.y + r.h < 2 ^ 31))
  | .attach .. | .damage .. | .note .. | .cache .. | .setSync .. | .recomposite .. =>
    .isTrue trivial

instance [DecidableEq β] (st : TextureScene α β) (event : Request α β) :
    Decidable (Meets c st event) :=
  have (st : TextureScene α β) (event : Event α β) :
      Decidable (((machine c).restrict (Condition c)).enabled st event) :=
    inferInstanceAs (Decidable (_ ∧ _))
  inferInstanceAs (Decidable (Machine.Admits _ _ _))

def twoPixels : SceneLayout (Fin 2) where
  forest := {
    nodes := [1, 0]
    parent := fun s => if s = 1 then some 0 else none
    depth := fun s => s.val
    deeper := by decide
    levels := 2
    within := fun s => s.isLt
    listed := by decide }
  band _ := 0
  width := 2
  height := 1
  scale := 1
  positive := by decide

def plain (width : Int) (value : Nat) : ShmBuffer Nat where
  width := width
  height := 1
  content _ _ := value

def inStep : List (Request (Fin 2) Nat) :=
  [.attach 0 (some (plain 2 0)), .damageBuffer 0 ⟨0, 0, 2, 1⟩, .commit 0 fun _ => {},
    .attach 1 (some (plain 1 5)), .damageBuffer 1 ⟨0, 0, 1, 1⟩, .commit 1 fun _ => {},
    .commit 0 fun _ => { dx := 1 }, .recomposite 0 fun _ => false,
    .attach 1 (some (plain 1 6)), .damageBuffer 1 ⟨0, 0, 1, 1⟩, .commit 1 fun _ => {},
    .attach 0 (some (plain 2 1)), .damageBuffer 0 ⟨0, 0, 2, 1⟩]

def overtaken : List (Request (Fin 2) Nat) :=
  [.attach 0 (some (plain 2 0)), .damageBuffer 0 ⟨0, 0, 2, 1⟩, .commit 0 fun _ => {},
    .recomposite 0 fun _ => false,
    .attach 0 (some (plain 2 1)), .damageBuffer 0 ⟨0, 0, 1, 1⟩, .recomposite 1 fun _ => false,
    .damageBuffer 0 ⟨1, 0, 1, 1⟩]

theorem damage_reaches_screen_in_step :
    let st := inStep.foldl (request twoPixels) {}
    (∀ age solid s, (st.recompositeNow twoPixels age solid).FullyVisible twoPixels s →
      (st.recompositeNow twoPixels age solid).Textured s) ∧
    Rect.Covers ((st.request twoPixels (.commit 0 fun _ => {})).painted twoPixels 1) 0 0 := by
  intro st
  have run : ((requests twoPixels).restrict (Meets twoPixels)).Run inStep.reverse st :=
    .of_script rfl inStep (by decide +kernel)
  obtain ⟨textured, painted⟩ := damage_reaches_screen twoPixels run
  have changes : st.Changes twoPixels (.commit 0 fun _ => {}) 0 0 0 :=
    ⟨by decide, by decide +kernel, by decide +kernel⟩
  have painted := painted (.commit 0 fun _ => {}) (by decide +kernel) rfl 0 0 0 changes [] nofun 1
  rw [List.foldl_nil] at painted
  exact ⟨textured, painted⟩

/--
Committed damage does not always reach the texture and the screen.

A repaint takes the damage requested so far, and the commit keeps only what is requested after it.
-/
theorem not_damage_reaches_screen :
    (¬ ∀ (c : SceneLayout (Fin 2)) (trace : List (Request (Fin 2) Nat))
      (st : TextureScene (Fin 2) Nat), (requests c).Run trace st →
        ∀ age solid s, (st.recompositeNow c age solid).FullyVisible c s →
          (st.recompositeNow c age solid).Textured s) ∧
    ¬ ∀ (c : SceneLayout (Fin 2)) (trace : List (Request (Fin 2) Nat))
      (st : TextureScene (Fin 2) Nat), (requests c).Run trace st →
        ∀ event, (requests c).enabled st event → event.repaints = false →
          ∀ s x y, st.Changes c event s x y →
            ∀ later : List (Request (Fin 2) Nat), (∀ other ∈ later, other.repaints = false) →
              ∀ age, Rect.Covers ((later.foldl (request c) (st.request c event)).painted c age)
                x y := by
  constructor
  · intro always
    have run : (requests twoPixels).Run _ _ :=
      .of_script rfl (overtaken ++ [.commit 0 fun _ => {}]) (by decide +kernel)
    have textured := always twoPixels _ _ run 1 (fun _ => false) 0
      ⟨by decide +kernel, ⟨0, 0, 2, 1⟩, by decide +kernel,
        ⟨by decide, by decide, by decide, by decide⟩, by decide +kernel⟩
    exact absurd textured.pixels (by decide +kernel)
  · intro always
    have run : (requests twoPixels).Run _ _ := .of_script rfl overtaken (by decide +kernel)
    have painted := always twoPixels _ _ run (.commit 0 fun _ => {}) (by decide +kernel) rfl 0 0 0
      ⟨by decide, by decide +kernel, by decide +kernel⟩ [] nofun 1
    exact absurd painted (by decide +kernel)

end TextureScene

end Xios
