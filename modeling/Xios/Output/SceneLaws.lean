import Xios.Output.TextureLaws

/-! Visible surfaces are up to date, or damaged so that the next repaint draws them. -/

namespace Xios

namespace TextureScene

variable {α β : Type*} {c : SceneLayout α}
variable {st : TextureScene α β} {s : α}

variable {st' : TextureScene α β}

theorem surfaceRect_congr {o : α}
    (buffer : (st'.surface o).currentBuffer = (st.surface o).currentBuffer)
    (dx : (st'.surface o).dx = (st.surface o).dx) (dy : (st'.surface o).dy = (st.surface o).dy) :
    st'.surfaceRect c o = st.surfaceRect c o := by
  simp only [surfaceRect, buffer, dx, dy]

variable {b : ShmBuffer β}

theorem surfaceRect_eq (shown : (st.surface s).currentBuffer = some b)
    (sized : 0 < b.width ∧ 0 < b.height) :
    st.surfaceRect c s = some ⟨(st.surface s).dx * c.scale, (st.surface s).dy * c.scale,
      ((st.surface s).dx + b.width) * c.scale, ((st.surface s).dy + b.height) * c.scale⟩ := by
  simp only [surfaceRect, shown]
  rw [if_neg (by omega)]

variable {r : Rect}

theorem exists_of_surfaceRect (placed : st.surfaceRect c s = some r) :
    ∃ b, (st.surface s).currentBuffer = some b ∧
      0 < b.width ∧ 0 < b.height ∧ r = ⟨(st.surface s).dx * c.scale, (st.surface s).dy * c.scale,
        ((st.surface s).dx + b.width) * c.scale, ((st.surface s).dy + b.height) * c.scale⟩ := by
  unfold surfaceRect at placed
  dsimp only at placed
  split at placed
  · exact absurd placed (by simp)
  rename_i b shown
  split at placed
  · exact absurd placed (by simp)
  · exact ⟨b, shown, by omega, by omega, (Option.some.inj placed).symm⟩

theorem surfaceRect_pos (placed : st.surfaceRect c s = some r) :
    r.x0 < r.x1 ∧ r.y0 < r.y1 := by
  obtain ⟨b, -, wide, high, rfl⟩ := exists_of_surfaceRect placed
  have positive := c.positive
  constructor
  · exact Int.mul_lt_mul_of_pos_right (by omega) positive
  · exact Int.mul_lt_mul_of_pos_right (by omega) positive

/-- Damage is only added to, and what the output shows stays the same. -/
structure Grows (st st' : TextureScene α β) : Prop where
  mapped : st'.mapped = st.mapped
  -- Surfaces show the same, in the same place.
  buffer : ∀ o, (st'.surface o).currentBuffer = (st.surface o).currentBuffer
  texture : ∀ o, (st'.surface o).texture = (st.surface o).texture
  dx : ∀ o, (st'.surface o).dx = (st.surface o).dx
  dy : ∀ o, (st'.surface o).dy = (st.surface o).dy
  wellFormed : st.damage.WellFormed → st'.damage.WellFormed
  covers : st.damage.WellFormed → ∀ x y, st.damage.Covers x y → st'.damage.Covers x y

theorem Grows.refl (st : TextureScene α β) : st.Grows st where
  mapped := rfl
  buffer _ := rfl
  texture _ := rfl
  dx _ := rfl
  dy _ := rfl
  wellFormed := id
  covers _ _ _ := id

theorem Grows.trans {st st'' : TextureScene α β} (first : st.Grows st') (second : st'.Grows st'') :
    st.Grows st'' where
  mapped := second.mapped.trans first.mapped
  buffer o := (second.buffer o).trans (first.buffer o)
  texture o := (second.texture o).trans (first.texture o)
  dx o := (second.dx o).trans (first.dx o)
  dy o := (second.dy o).trans (first.dy o)
  wellFormed well := second.wellFormed (first.wellFormed well)
  covers well x y covered :=
    second.covers (first.wellFormed well) x y (first.covers well x y covered)

theorem grows_addPx (st : TextureScene α β) (report : DamageReport) :
    st.Grows (st.addPx c report) where
  mapped := rfl
  buffer _ := rfl
  texture _ := rfl
  dx _ := rfl
  dy _ := rfl
  wellFormed well := well.addPx c.width c.height report
  covers well _ _ covered := OutputDamage.addPx_mono well c.width c.height report covered

theorem grows_outputDamageAddSurface (st : TextureScene α β) (s : α) :
    st.Grows (st.outputDamageAddSurface c s) := by
  unfold outputDamageAddSurface
  split
  · exact .refl st
  · exact st.grows_addPx _

theorem Grows.surfaceRect (grows : st.Grows st') (o : α) :
    st'.surfaceRect c o = st.surfaceRect c o :=
  surfaceRect_congr (grows.buffer o) (grows.dx o) (grows.dy o)

theorem Grows.textured (grows : st.Grows st') {o : α} (textured : st.Textured o) :
    st'.Textured o := by
  intro b shown
  rw [grows.buffer] at shown
  rw [grows.texture]
  exact textured b shown

/-- Some pixel of the surface is damaged. -/
def Due (c : SceneLayout α) (st : TextureScene α β) (s : α) : Prop :=
  ∃ r ∈ st.surfaceRect c s, ∃ x y, r.Contains x y ∧ st.damage.Covers x y

theorem Grows.due (grows : st.Grows st') (well : st.damage.WellFormed) {o : α} (due : st.Due c o) :
    st'.Due c o := by
  obtain ⟨r, placed, x, y, inside, damaged⟩ := due
  exact ⟨r, grows.surfaceRect o ▸ placed, x, y, inside, grows.covers well x y damaged⟩

theorem surface_outputDamageAddSurface (st : TextureScene α β) (s : α) :
    (st.outputDamageAddSurface c s).surface = st.surface := by
  unfold outputDamageAddSurface
  split
  · rfl
  · rfl

variable {x y : Int}

theorem outputDamageAddSurface_covers (well : st.damage.WellFormed)
    (placed : st.surfaceRect c s = some r)
    (inside : (⟨0, 0, c.width, c.height⟩ : Rect).Contains x y) (within : r.Contains x y) :
    (st.outputDamageAddSurface c s).damage.Covers x y := by
  simp only [outputDamageAddSurface, placed]
  refine OutputDamage.addPx_covers well inside ?_
  simp only [Rect.Contains] at within
  simp only [DamageReport.Contains]
  omega

/-- A surface shows another buffer, before the damage of that is added. -/
structure Shows (st : TextureScene α β) (s : α) (b : ShmBuffer β) (shown : TextureScene α β) :
    Prop where
  own : ∃ dx dy, shown.surface s = { (st.surface s).take.setBuffer (some b) with dx, dy }
  others : ∀ o, o ≠ s → shown.surface o = st.surface o
  -- A surface that was shown stays where it is, and another one may join those that are.
  stays : s ∈ st.mapped → shown.mapped = st.mapped ∧
    shown.surface s = (st.surface s).take.setBuffer (some b)
  joins : s ∉ st.mapped → shown.mapped = st.mapped ∨
    ∃ below rest, st.mapped = below ++ rest ∧ shown.mapped = below ++ s :: rest
  damage : shown.damage = st.damage

theorem setBuffer_take (x : TextureSurface β) (b : ShmBuffer β) :
    (x.take.setBuffer (some b)).currentBuffer = some b ∧
      (x.take.setBuffer (some b)).dx = x.dx ∧ (x.take.setBuffer (some b)).dy = x.dy := by
  unfold TextureSurface.setBuffer
  split
  · exact ⟨rfl, rfl, rfl⟩
  · exact ⟨rfl, rfl, rfl⟩

variable {shown : TextureScene α β}

theorem Shows.currentBuffer (shows : st.Shows s b shown) :
    (shown.surface s).currentBuffer = some b := by
  obtain ⟨dx, dy, own⟩ := shows.own
  rw [own]
  exact (setBuffer_take (st.surface s) b).1

theorem ready_of_condition {input : MapInput} (met : st.Condition c (.apply s input)) :
    (st.surface s).Ready where
  committed := met.1
  kept attached b pending preserves := ((met.2 attached b pending).2 preserves).2

variable [DecidableEq α]

theorem mem_of_mem_after {s o : α} {l : List α} (above : o ∈ after s l) : o ∈ l := by
  induction l with
  | nil => exact above
  | cons q rest ih =>
    unfold after at above
    split at above
    · exact List.mem_cons_of_mem q above
    · exact List.mem_cons_of_mem q (ih above)

variable {q : α}

theorem after_insert {s o : α} {below rest : List α} (apart : s ≠ o)
    (above : q ∈ after o (below ++ rest)) : q ∈ after o (below ++ s :: rest) := by
  induction below with
  | nil => simpa [after, apart] using above
  | cons e below ih =>
    simp only [List.cons_append, after] at above ⊢
    split
    · rename_i here
      rw [if_pos here] at above
      rcases List.mem_append.mp above with lower | higher
      · exact List.mem_append_left _ lower
      · exact List.mem_append_right _ (List.mem_cons_of_mem s higher)
    · rename_i away
      rw [if_neg away] at above
      exact ih above

theorem after_erase {s o : α} {l : List α} (apart : s ≠ o) (other : q ≠ s) (above : q ∈ after o l) :
    q ∈ after o (l.erase s) := by
  induction l with
  | nil => exact above
  | cons e rest ih =>
    unfold after at above
    by_cases gone : e = s
    · rw [if_neg (gone ▸ apart)] at above
      simpa [gone] using above
    · rw [List.erase_cons_tail (by simpa using gone)]
      unfold after
      split
      · rename_i here
        rw [if_pos here] at above
        exact (List.mem_erase_of_ne other).mpr above
      · rename_i away
        rw [if_neg away] at above
        exact ih above

theorem surface_modify_of_ne (st : TextureScene α β) {s o : α}
    (change : TextureSurface β → TextureSurface β) (away : o ≠ s) :
    (st.modify s change).surface o = st.surface o :=
  Function.update_of_ne away _ _

theorem surface_modify_self (st : TextureScene α β) (s : α)
    (change : TextureSurface β → TextureSurface β) :
    (st.modify s change).surface s = change (st.surface s) :=
  Function.update_self ..

theorem grows_modify (st : TextureScene α β) (s : α) (change : TextureSurface β → TextureSurface β)
    (same : ∀ x, (change x).currentBuffer = x.currentBuffer ∧ (change x).texture = x.texture ∧
      (change x).dx = x.dx ∧ (change x).dy = x.dy) : st.Grows (st.modify s change) := by
  have surface (o : α) : (st.modify s change).surface o = st.surface o ∨
      (st.modify s change).surface o = change (st.surface o) := by
    by_cases here : o = s
    · subst here
      exact .inr (st.surface_modify_self o change)
    · exact .inl (st.surface_modify_of_ne change here)
  exact {
    mapped := rfl
    buffer := fun o => by
      rcases surface o with away | here
      · rw [away]
      · rw [here, (same _).1]
    texture := fun o => by
      rcases surface o with away | here
      · rw [away]
      · rw [here, (same _).2.1]
    dx := fun o => by
      rcases surface o with away | here
      · rw [away]
      · rw [here, (same _).2.2.1]
    dy := fun o => by
      rcases surface o with away | here
      · rw [away]
      · rw [here, (same _).2.2.2]
    wellFormed := id
    covers := fun _ _ _ => id }

theorem grows_outputDamageAddSurfaceRect (s : α) (st : TextureScene α β) (r : DamageReport) :
    st.Grows (st.outputDamageAddSurfaceRect c s r) := by
  unfold outputDamageAddSurfaceRect
  split
  · exact .refl st
  · exact st.grows_addPx _

theorem grows_foldl (s : α) (st : TextureScene α β) (rects : List DamageReport) :
    st.Grows (rects.foldl (outputDamageAddSurfaceRect c s) st) :=
  List.foldlRecOn rects _ (.refl st) fun st' sofar r _ =>
    sofar.trans (grows_outputDamageAddSurfaceRect s st' r)

theorem Grows.fullyVisible (grows : st.Grows st') {o : α} :
    st'.FullyVisible c o ↔ st.FullyVisible c o := by
  constructor
  · intro visible
    have clear := visible.clear
    simp only [grows.surfaceRect, grows.mapped] at clear
    exact ⟨grows.mapped ▸ visible.mapped, clear⟩
  · intro visible
    have clear := visible.clear
    simp only [← grows.surfaceRect, ← grows.mapped] at clear
    exact ⟨grows.mapped ▸ visible.mapped, clear⟩

/-- What holds between steps. -/
structure Fresh (c : SceneLayout α) (st : TextureScene α β) : Prop where
  sound : ∀ o, (st.surface o).Sound
  wellFormed : st.damage.WellFormed
  -- The texture of a visible surface is up to date, or will be drawn by the next repaint.
  shown : ∀ o, st.FullyVisible c o → st.Textured o ∨ st.Due c o

theorem Fresh.grow (fresh : st.Fresh c) (grows : st.Grows st') (sound : ∀ o, (st'.surface o).Sound) :
    st'.Fresh c where
  sound := sound
  wellFormed := grows.wellFormed fresh.wellFormed
  shown o visible := by
    rcases fresh.shown o (grows.fullyVisible.mp visible) with textured | due
    · exact .inl (grows.textured textured)
    · exact .inr (grows.due fresh.wellFormed due)

theorem surface_outputDamageAddSurfaceRect (s : α) (st : TextureScene α β) (r : DamageReport) :
    (st.outputDamageAddSurfaceRect c s r).surface = st.surface := by
  unfold outputDamageAddSurfaceRect
  split
  · rfl
  · rfl

theorem surface_foldl (s : α) (st : TextureScene α β) (rects : List DamageReport) :
    (rects.foldl (outputDamageAddSurfaceRect c s) st).surface = st.surface :=
  List.foldlRecOn (motive := fun st' => st'.surface = st.surface) rects _ rfl
    fun st' same r _ => (surface_outputDamageAddSurfaceRect s st' r).trans same

theorem sound_modify (sound : ∀ o, (st.surface o).Sound)
    {change : TextureSurface β → TextureSurface β} (own : (change (st.surface s)).Sound) (o : α) :
    ((st.modify s change).surface o).Sound := by
  by_cases here : o = s
  · subst here
    rw [surface_modify_self]
    exact own
  · rw [surface_modify_of_ne st change here]
    exact sound o

theorem glDirtyBufferRect_shows (x : TextureSurface β) (r : DamageReport) :
    (x.glDirtyBufferRect r).currentBuffer = x.currentBuffer ∧
      (x.glDirtyBufferRect r).texture = x.texture ∧ (x.glDirtyBufferRect r).dx = x.dx ∧
      (x.glDirtyBufferRect r).dy = x.dy := by
  rcases x.glDirtyBufferRect_cases r with same | full | ⟨-, -, -, added⟩
  · rw [same]
    exact ⟨rfl, rfl, rfl, rfl⟩
  · rw [full]
    exact ⟨rfl, rfl, rfl, rfl⟩
  · rw [added]
    exact ⟨rfl, rfl, rfl, rfl⟩

theorem grows_surfaceDamage (st : TextureScene α β) (s : α) (r : DamageReport) :
    st.Grows (st.surfaceDamage c s r) := by
  have recorded : st.Grows (st.modify s (·.glDirtyFull.ask r)) :=
    st.grows_modify s _ fun _ => ⟨rfl, rfl, rfl, rfl⟩
  exact recorded.trans (grows_outputDamageAddSurfaceRect s _ r)

theorem grows_surfaceDamageBuffer (st : TextureScene α β) (s : α) (r : DamageReport) :
    st.Grows (st.surfaceDamageBuffer c s r) := by
  have recorded : st.Grows (st.modify s fun x => (x.glDirtyBufferRect r).ask r) :=
    st.grows_modify s _ fun x => glDirtyBufferRect_shows x r
  exact recorded.trans (grows_outputDamageAddSurfaceRect s _ r)

theorem Fresh.surfaceDamage (fresh : st.Fresh c) (s : α) (r : DamageReport) :
    (st.surfaceDamage c s r).Fresh c := by
  refine fresh.grow (st.grows_surfaceDamage s r) fun o => ?_
  rw [TextureScene.surfaceDamage, surface_outputDamageAddSurfaceRect]
  exact sound_modify fresh.sound ((fresh.sound s).glDirtyFull.ask r) o

theorem Fresh.surfaceDamageBuffer (fresh : st.Fresh c) (s : α) (r : DamageReport) :
    (st.surfaceDamageBuffer c s r).Fresh c := by
  refine fresh.grow (st.grows_surfaceDamageBuffer s r) fun o => ?_
  rw [TextureScene.surfaceDamageBuffer, surface_outputDamageAddSurfaceRect]
  exact sound_modify fresh.sound (((fresh.sound s).glDirtyBufferRect r).ask r) o

theorem Shows.surfaceMap (shows : st.Shows s b shown) (gone : s ∉ st.mapped)
    (still : shown.mapped = st.mapped) (input : MapInput) :
    st.Shows s b (shown.surfaceMap c s input) := by
  unfold TextureScene.surfaceMap
  split
  · exact shows
  · obtain ⟨dx, dy, own⟩ := shows.own
    exact {
      own := ⟨input.dx, input.dy, by
        change Function.update shown.surface s _ s = _
        rw [Function.update_self, own]⟩
      others := fun o away => by
        change Function.update shown.surface s _ o = _
        rw [Function.update_of_ne away, shows.others o away]
      stays := fun here => absurd here gone
      joins := fun _ => .inr ⟨_, _, still ▸ (List.takeWhile_append_dropWhile).symm, rfl⟩
      damage := shows.damage }

theorem setBuffer_rects (x : TextureSurface β) (b : ShmBuffer β) :
    ((x.take.setBuffer (some b)).glDirty = false ∨
        (x.take.setBuffer (some b)).glDirtyRects = []) ↔ ¬x.Preserves (some b) := by
  have same : x.take.Preserves (some b) ↔ x.Preserves (some b) := Iff.rfl
  rw [← same]
  unfold TextureSurface.setBuffer
  split
  · rename_i kept
    have ⟨_, _, _, _, _, dirty, listed⟩ := kept
    simp [kept, dirty, listed]
  · rename_i lost
    simp [lost, TextureSurface.glDirtyFull]

theorem showBuffer_of_mapped (st : TextureScene α β) (b : ShmBuffer β) (input : MapInput)
    (here : s ∈ st.mapped) :
    st.showBuffer c s b input =
      match (st.modify s (·.setBuffer (some b))).outputDamageAddSurfaceDirtyRects c s with
      | some damaged => damaged
      | none => (st.modify s (·.setBuffer (some b))).outputDamageAddSurface c s := by
  unfold showBuffer
  grind

theorem showBuffer_of_not_mapped (st : TextureScene α β) (b : ShmBuffer β) (input : MapInput)
    (gone : s ∉ st.mapped) :
    st.showBuffer c s b input =
      (if input.mappable = true then (st.modify s (·.setBuffer (some b))).surfaceMap c s input
        else st.modify s (·.setBuffer (some b))).outputDamageAddSurface c s := by
  simp only [showBuffer, gone, not_false_eq_true, true_and, ↓reduceIte]

theorem applyOwn_shows (st : TextureScene α β) (input : MapInput)
    (attached : (st.surface s).bufferAttached = true)
    (pending : (st.surface s).pendingBuffer = some b) :
    ∃ shown, st.Shows s b shown ∧ st.applyOwn c s input =
      if s ∈ st.mapped ∧ (st.surface s).Preserves (some b) then
        (shown.surface s).glDirtyRects.foldl (outputDamageAddSurfaceRect c s) shown
      else shown.outputDamageAddSurface c s := by
  let taken := st.modify s TextureSurface.take
  let placed := taken.modify s (·.setBuffer (some b))
  have own : placed.surface s = (st.surface s).take.setBuffer (some b) := by
    simp only [placed, taken, surface_modify_self]
  have others (o : α) (away : o ≠ s) : placed.surface o = st.surface o := by
    simp only [placed, taken, surface_modify_of_ne _ _ away]
  have applied : st.applyOwn c s input = taken.showBuffer c s b input := by
    simp only [applyOwn, attached, ↓reduceIte, pending, taken]
  rw [applied]
  by_cases here : s ∈ st.mapped
  · have stays : st.Shows s b placed :=
      ⟨⟨_, _, own⟩, others, fun _ => ⟨rfl, own⟩, fun gone => absurd here gone, rfl⟩
    refine ⟨placed, stays, ?_⟩
    -- The rectangles are what remains of the damage, if anything does.
    have kept := setBuffer_rects (st.surface s) b
    rw [← own] at kept
    have mapped : s ∈ placed.mapped := here
    rw [taken.showBuffer_of_mapped b input here]
    by_cases preserves : (st.surface s).Preserves (some b)
    · rw [if_pos ⟨here, preserves⟩, outputDamageAddSurfaceDirtyRects,
        if_neg fun lost => lost.elim (absurd mapped) fun lost => kept.mp lost preserves]
    · rw [if_neg fun both => preserves both.2, outputDamageAddSurfaceDirtyRects,
        if_pos (.inr (kept.mpr preserves))]
  · have unmoved : st.Shows s b placed :=
      ⟨⟨_, _, own⟩, others, fun there => absurd there here, fun _ => .inl rfl, rfl⟩
    rw [taken.showBuffer_of_not_mapped b input here]
    simp only [here, false_and, ↓reduceIte]
    split
    · exact ⟨_, unmoved.surfaceMap here rfl input, rfl⟩
    · exact ⟨placed, unmoved, rfl⟩

theorem Shows.after {s o : α} (shows : st.Shows s b shown) (apart : s ≠ o)
    (above : q ∈ TextureScene.after o st.mapped) : q ∈ TextureScene.after o shown.mapped := by
  by_cases here : s ∈ st.mapped
  · exact (shows.stays here).1 ▸ above
  · obtain same | ⟨below, rest, before, now⟩ := shows.joins here
    · exact same ▸ above
    · rw [now]
      exact after_insert apart (before ▸ above)

theorem Shows.fullyVisible {s o : α}
    (shows : st.Shows s b shown) (sized : 0 < b.width ∧ 0 < b.height)
    (wider : s ∈ st.mapped → ∀ a ∈ (st.surface s).currentBuffer,
      a.width ≤ b.width ∧ a.height ≤ b.height)
    (apart : s ≠ o) (visible : shown.FullyVisible c o) : st.FullyVisible c o := by
  have others := shows.others o apart.symm
  have place : shown.surfaceRect c o = st.surfaceRect c o :=
    surfaceRect_congr (by rw [others]) (by rw [others]) (by rw [others])
  obtain ⟨r, placed, within, clear⟩ := visible.clear
  refine ⟨?_, r, place ▸ placed, within, fun q above r' there => ?_⟩
  · by_cases here : s ∈ st.mapped
    · exact (shows.stays here).1 ▸ visible.mapped
    · obtain same | ⟨below, rest, before, now⟩ := shows.joins here
      · exact same ▸ visible.mapped
      · have joined := visible.mapped
        rw [now, List.mem_append, List.mem_cons] at joined
        rw [before, List.mem_append]
        exact joined.imp_right fun later => later.resolve_left apart.symm
  by_cases own : q = s
  · -- It was in the way with its old buffer, so it is with the new one.
    subst own
    have here := mem_of_mem_after above
    obtain ⟨a, old, wide, high, rfl⟩ := exists_of_surfaceRect there
    obtain ⟨wider, higher⟩ := wider here a old
    obtain ⟨current, dx, dy⟩ := setBuffer_take (st.surface q) b
    rw [← (shows.stays here).2] at current dx dy
    have now := clear q (shows.after apart above) _ (surfaceRect_eq current sized)
    by_contra before
    rw [Bool.not_eq_false] at before
    rw [dx, dy] at now
    simp only [Rect.intersects, decide_eq_true_eq] at before
    simp only [Rect.intersects, decide_eq_false_iff_not] at now
    have positive := c.positive
    have right :
        ((st.surface q).dx + a.width) * c.scale ≤ ((st.surface q).dx + b.width) * c.scale :=
      Int.mul_le_mul_of_nonneg_right (by omega) (by omega)
    have bottom :
        ((st.surface q).dy + a.height) * c.scale ≤ ((st.surface q).dy + b.height) * c.scale :=
      Int.mul_le_mul_of_nonneg_right (by omega) (by omega)
    exact now ⟨by omega, by omega, by omega, by omega⟩
  · have others := shows.others q own
    have same : shown.surfaceRect c q = st.surfaceRect c q :=
      surfaceRect_congr (by rw [others]) (by rw [others]) (by rw [others])
    exact clear q (shows.after apart above) r' (same ▸ there)

theorem outputDamageAddSurfaceRect_covers (well : st.damage.WellFormed)
    (here : s ∈ st.mapped) {r : DamageReport} (sized : 0 < r.w ∧ 0 < r.h)
    (inside : (⟨0, 0, c.width, c.height⟩ : Rect).Contains x y)
    (within : (⟨((st.surface s).dx + r.x) * c.scale, ((st.surface s).dy + r.y) * c.scale,
      r.w * c.scale, r.h * c.scale⟩ : DamageReport).Contains x y) :
    (st.outputDamageAddSurfaceRect c s r).damage.Covers x y := by
  rw [outputDamageAddSurfaceRect, if_neg (by simp [here, sized])]
  exact OutputDamage.addPx_covers well inside within

theorem foldl_covers (well : st.damage.WellFormed)
    (here : s ∈ st.mapped) {rects : List DamageReport} {r : DamageReport} (member : r ∈ rects)
    (sized : 0 < r.w ∧ 0 < r.h)
    (inside : (⟨0, 0, c.width, c.height⟩ : Rect).Contains x y)
    (within : (⟨((st.surface s).dx + r.x) * c.scale, ((st.surface s).dy + r.y) * c.scale,
      r.w * c.scale, r.h * c.scale⟩ : DamageReport).Contains x y) :
    (rects.foldl (outputDamageAddSurfaceRect c s) st).damage.Covers x y := by
  obtain ⟨before, later, rfl⟩ := List.append_of_mem member
  rw [List.foldl_append, List.foldl_cons]
  -- The rectangle is added after some others, and more are added after it.
  have sofar := grows_foldl (c := c) s st before
  have rest := grows_foldl (c := c) s
    ((before.foldl (outputDamageAddSurfaceRect c s) st).outputDamageAddSurfaceRect c s r) later
  have added := grows_outputDamageAddSurfaceRect (c := c) s
    (before.foldl (outputDamageAddSurfaceRect c s) st) r
  refine rest.covers (added.wellFormed (sofar.wellFormed well)) x y ?_
  rw [← sofar.dx, ← sofar.dy] at within
  exact outputDamageAddSurfaceRect_covers (sofar.wellFormed well) (sofar.mapped ▸ here) sized inside
    within

theorem Shows.sound (shows : st.Shows s b shown) (sound : ∀ o, (st.surface o).Sound)
    (ready : (st.surface s).Ready) (attached : (st.surface s).bufferAttached = true)
    (pending : (st.surface s).pendingBuffer = some b) (o : α) : (shown.surface o).Sound := by
  by_cases here : o = s
  · subst here
    obtain ⟨dx, dy, own⟩ := shows.own
    have set := (sound o).take_setBuffer ready attached
    rw [pending] at set
    rw [own]
    exact { set with }
  · rw [shows.others o here]
    exact sound o

theorem dirty_covers (well : st.damage.WellFormed)
    (sound : (st.surface s).Sound) (here : s ∈ st.mapped)
    (current : (st.surface s).currentBuffer = some b) {r : DamageReport}
    (listed : r ∈ (st.surface s).glDirtyRects)
    (inside : (⟨0, 0, c.width, c.height⟩ : Rect).Contains x y)
    (within : (⟨((st.surface s).dx + r.x) * c.scale, ((st.surface s).dy + r.y) * c.scale,
      r.w * c.scale, r.h * c.scale⟩ : DamageReport).Contains x y) :
    ((st.surface s).glDirtyRects.foldl (outputDamageAddSurfaceRect c s) st).damage.Covers x y := by
  obtain ⟨-, wide, -, -, high, -⟩ := sound.clipped b current r listed
  exact foldl_covers well here listed ⟨wide, high⟩ inside within

theorem dirty_due (well : st.damage.WellFormed) (sound : (st.surface s).Sound)
    (visible : st.FullyVisible c s) (listed : (st.surface s).glDirtyRects ≠ []) :
    ((st.surface s).glDirtyRects.foldl (outputDamageAddSurfaceRect c s) st).Due c s := by
  obtain ⟨r, member⟩ := List.exists_mem_of_ne_nil _ listed
  obtain ⟨place, placed, within, -⟩ := visible.clear
  obtain ⟨b, current, -, -, rfl⟩ := exists_of_surfaceRect placed
  obtain ⟨left, wide, right, top, high, bottom⟩ := sound.clipped b current r member
  have positive := c.positive
  have grows := grows_foldl (c := c) s st (st.surface s).glDirtyRects
  -- Its first pixel is one of the surface.
  have x0 : (st.surface s).dx * c.scale ≤ ((st.surface s).dx + r.x) * c.scale :=
    Int.mul_le_mul_of_nonneg_right (by omega) (by omega)
  have x1 : ((st.surface s).dx + r.x) * c.scale < ((st.surface s).dx + b.width) * c.scale :=
    Int.mul_lt_mul_of_pos_right (by omega) positive
  have y0 : (st.surface s).dy * c.scale ≤ ((st.surface s).dy + r.y) * c.scale :=
    Int.mul_le_mul_of_nonneg_right (by omega) (by omega)
  have y1 : ((st.surface s).dy + r.y) * c.scale < ((st.surface s).dy + b.height) * c.scale :=
    Int.mul_lt_mul_of_pos_right (by omega) positive
  have wider : 0 < r.w * c.scale := Int.mul_pos wide positive
  have higher : 0 < r.h * c.scale := Int.mul_pos high positive
  have first : (⟨(st.surface s).dx * c.scale, (st.surface s).dy * c.scale,
      ((st.surface s).dx + b.width) * c.scale, ((st.surface s).dy + b.height) * c.scale⟩ :
      Rect).Contains (((st.surface s).dx + r.x) * c.scale)
        (((st.surface s).dy + r.y) * c.scale) := ⟨x0, x1, y0, y1⟩
  refine ⟨_, grows.surfaceRect s ▸ placed, _, _, first, ?_⟩
  refine dirty_covers well sound visible.mapped current member (within.contains first) ?_
  exact ⟨le_rfl, Int.lt_add_of_pos_right _ wider, le_rfl, Int.lt_add_of_pos_right _ higher⟩

theorem whole_due (well : st.damage.WellFormed) (visible : st.FullyVisible c s) :
    (st.outputDamageAddSurface c s).Due c s := by
  obtain ⟨r, placed, within, -⟩ := visible.clear
  obtain ⟨wide, high⟩ := surfaceRect_pos placed
  have first : r.Contains r.x0 r.y0 := ⟨le_rfl, wide, le_rfl, high⟩
  have grows := st.grows_outputDamageAddSurface (c := c) s
  exact ⟨r, grows.surfaceRect s ▸ placed, _, _, first,
    outputDamageAddSurface_covers well placed (within.contains first) first⟩

/-- The damage of a surface that no longer shows anything. -/
def leaving (c : SceneLayout α) (st : TextureScene α β) (s : α) : TextureScene α β :=
  if s ∈ st.mapped then (st.modify s TextureSurface.take).outputDamageAddSurface c s
  else st.modify s TextureSurface.take

theorem grows_leaving (st : TextureScene α β) (s : α) : st.Grows (st.leaving c s) := by
  have taken : st.Grows (st.modify s TextureSurface.take) :=
    st.grows_modify s _ fun _ => ⟨rfl, rfl, rfl, rfl⟩
  unfold leaving
  split
  · exact taken.trans ((st.modify s TextureSurface.take).grows_outputDamageAddSurface s)
  · exact taken

theorem surface_leaving (st : TextureScene α β) (s : α) :
    (st.leaving c s).surface = (st.modify s TextureSurface.take).surface := by
  unfold leaving
  split
  · exact surface_outputDamageAddSurface _ s
  · rfl

/-- A surface shows nothing any more. -/
structure Hides (c : SceneLayout α) (st : TextureScene α β) (s : α) (gone : TextureScene α β) :
    Prop where
  own : gone.surface s = (st.surface s).take.setBuffer none
  others : ∀ o, o ≠ s → gone.surface o = st.surface o
  mapped : gone.mapped = st.mapped.erase s
  damage : gone.damage = (st.leaving c s).damage

theorem applyOwn_hides (st : TextureScene α β) (input : MapInput)
    (attached : (st.surface s).bufferAttached = true)
    (pending : (st.surface s).pendingBuffer = none) : st.Hides c s (st.applyOwn c s input) := by
  let left := (st.leaving c s).modify s (·.setBuffer none)
  have applied : st.applyOwn c s input = left.surfaceUnmap c s := by
    simp only [applyOwn, attached, ↓reduceIte, pending]
    rfl
  have mapped : left.mapped = st.mapped := (st.grows_leaving (c := c) s).mapped
  have own : left.surface s = (st.surface s).take.setBuffer none := by
    simp only [left, surface_modify_self, surface_leaving]
  have others (o : α) (away : o ≠ s) : left.surface o = st.surface o := by
    simp only [left, surface_modify_of_ne _ _ away, surface_leaving]
  rw [applied, surfaceUnmap, mapped]
  split
  · rename_i absent
    exact ⟨own, others, by rw [List.erase_of_not_mem absent, mapped], rfl⟩
  · -- The surface has no place any more, so that no further damage is added.
    have nowhere : left.surfaceRect c s = none := by
      simp [surfaceRect, own, TextureSurface.setBuffer, TextureSurface.Preserves,
        TextureSurface.glDirtyFull]
    rw [outputDamageAddSurface, nowhere]
    exact ⟨own, others, rfl, rfl⟩

namespace Hides

variable {gone : TextureScene α β} {o : α} (hides : st.Hides c s gone)

include hides

theorem surfaceRect (away : o ≠ s) : gone.surfaceRect c o = st.surfaceRect c o := by
  have others := hides.others o away
  exact surfaceRect_congr (by rw [others]) (by rw [others]) (by rw [others])

theorem apart (visible : gone.FullyVisible c o) : o ≠ s := by
  rintro rfl
  obtain ⟨r, placed, -⟩ := visible.clear
  obtain ⟨b, shown, -⟩ := exists_of_surfaceRect placed
  rw [hides.own] at shown
  simp [TextureSurface.setBuffer, TextureSurface.Preserves, TextureSurface.glDirtyFull] at shown

theorem fullyVisible (visible : gone.FullyVisible c o) : st.FullyVisible c o ∨
    ∃ r ∈ st.surfaceRect c o, ∃ r' ∈ st.surfaceRect c s,
      r.Within ⟨0, 0, c.width, c.height⟩ ∧ s ∈ st.mapped ∧ r.intersects r' = true := by
  have away := hides.apart visible
  obtain ⟨r, placed, within, clear⟩ := visible.clear
  rw [hides.surfaceRect away] at placed
  have mapped : o ∈ st.mapped := List.mem_of_mem_erase (hides.mapped ▸ visible.mapped)
  by_cases free : ∃ q ∈ TextureScene.after o st.mapped, ∃ r' ∈ st.surfaceRect c q,
      r.intersects r' = true
  · obtain ⟨q, above, r', there, overlap⟩ := free
    have leaves : q = s := by
      by_contra other
      have above' := after_erase away.symm other above
      rw [← hides.mapped] at above'
      have free := clear q above' r' (hides.surfaceRect other ▸ there)
      exact Bool.noConfusion (overlap.symm.trans free)
    subst leaves
    exact .inr ⟨r, placed, r', there, within, mem_of_mem_after above, overlap⟩
  · refine .inl ⟨mapped, r, placed, within, fun q above r' there => ?_⟩
    by_contra overlap
    exact free ⟨q, above, r', there, Bool.not_eq_false _ ▸ overlap⟩

end Hides

theorem grows_shown (shown : TextureScene α β) (s : α) (kept : Prop) [Decidable kept] :
    shown.Grows (if kept then
      (shown.surface s).glDirtyRects.foldl (outputDamageAddSurfaceRect c s) shown
      else shown.outputDamageAddSurface c s) := by
  split
  · exact grows_foldl s shown _
  · exact shown.grows_outputDamageAddSurface s

/-- What applying a surface comes to. -/
inductive Applied (c : SceneLayout α) (st : TextureScene α β) (s : α) :
    TextureScene α β → Prop where
  | still (attached : (st.surface s).bufferAttached = false) :
    Applied c st s (st.modify s TextureSurface.take)
  -- A buffer is shown, and rectangles of the surface or all of it are damaged.
  | shows {b : ShmBuffer β} {shown : TextureScene α β}
    (attached : (st.surface s).bufferAttached = true)
    (pending : (st.surface s).pendingBuffer = some b) (shows : st.Shows s b shown) :
    Applied c st s
      (if s ∈ st.mapped ∧ (st.surface s).Preserves (some b) then
        (shown.surface s).glDirtyRects.foldl (outputDamageAddSurfaceRect c s) shown
      else shown.outputDamageAddSurface c s)
  -- No buffer is shown any more.
  | hides {gone : TextureScene α β} (attached : (st.surface s).bufferAttached = true)
    (pending : (st.surface s).pendingBuffer = none) (hides : st.Hides c s gone) :
    Applied c st s gone

theorem applied_applyOwn (st : TextureScene α β) (s : α) (input : MapInput) :
    st.Applied c s (st.applyOwn c s input) := by
  cases attached : (st.surface s).bufferAttached with
  | true =>
    cases pending : (st.surface s).pendingBuffer with
    | some b =>
      obtain ⟨shown, shows, applied⟩ := st.applyOwn_shows (c := c) input attached pending
      rw [applied]
      exact .shows attached pending shows
    | none => exact .hides attached pending (st.applyOwn_hides input attached pending)
  | false =>
    have still : st.applyOwn c s input = st.modify s TextureSurface.take := by
      simp [TextureScene.applyOwn, attached]
    rw [still]
    exact .still attached

theorem leaving_covers (well : st.damage.WellFormed) (here : s ∈ st.mapped) {r : Rect}
    (placed : st.surfaceRect c s = some r) {x y : Int}
    (inside : (⟨0, 0, c.width, c.height⟩ : Rect).Contains x y) (within : r.Contains x y) :
    (st.leaving c s).damage.Covers x y := by
  have taken : st.Grows (st.modify s TextureSurface.take) :=
    st.grows_modify s _ fun _ => ⟨rfl, rfl, rfl, rfl⟩
  rw [leaving, if_pos here]
  exact outputDamageAddSurface_covers (taken.wellFormed well) (taken.surfaceRect s ▸ placed) inside
    within

/-- A buffer is shown, and what may have changed by it is damaged. -/
theorem Fresh.shows {st shown : TextureScene α β} (fresh : st.Fresh c) {input : MapInput}
    (met : st.Condition c (.apply s input)) (attached : (st.surface s).bufferAttached = true)
    {b : ShmBuffer β} (pending : (st.surface s).pendingBuffer = some b)
    (shows : st.Shows s b shown) :
    (if s ∈ st.mapped ∧ (st.surface s).Preserves (some b) then
      (shown.surface s).glDirtyRects.foldl (outputDamageAddSurfaceRect c s) shown
      else shown.outputDamageAddSurface c s).Fresh c := by
  have ready := ready_of_condition met
  have sized := (fresh.sound s).pendingSized b pending
  have sound := shows.sound fresh.sound ready attached pending
  have well : shown.damage.WellFormed := shows.damage ▸ fresh.wellFormed
  -- However the damage of the surface itself is added, that of others stays.
  have rest (st' : TextureScene α β) (grows : shown.Grows st')
      (same : st'.surface = shown.surface) (own : shown.FullyVisible c s → st'.Due c s) :
      st'.Fresh c := by
    refine ⟨fun o => same ▸ sound o, grows.wellFormed well, fun o visible => ?_⟩
    have visible := grows.fullyVisible.mp visible
    by_cases here : s = o
    · exact .inr (here ▸ own (here ▸ visible))
    · have wider := (met.2 attached b pending).1
      have before := shows.fullyVisible sized wider here visible
      have others := shows.others o (Ne.symm here)
      rcases fresh.shown o before with textured | ⟨r, placed, x, y, inside, damaged⟩
      · refine .inl (grows.textured fun b' current => ?_)
        rw [others] at current ⊢
        exact textured b' current
      · have place : shown.surfaceRect c o = st.surfaceRect c o :=
          surfaceRect_congr (by rw [others]) (by rw [others]) (by rw [others])
        exact .inr (grows.due well ⟨r, place ▸ placed, x, y, inside, shows.damage ▸ damaged⟩)
  split
  · rename_i both
    have listed : (shown.surface s).glDirtyRects ≠ [] := by
      rw [(shows.stays both.1).2]
      exact fun empty => (setBuffer_rects (st.surface s) b).mp (.inr empty) both.2
    exact rest _ (grows_foldl s shown _) (surface_foldl s shown _)
      fun visible => dirty_due well (sound s) visible listed
  · exact rest _ (shown.grows_outputDamageAddSurface s) (shown.surface_outputDamageAddSurface s)
      fun visible => whole_due well visible

theorem Fresh.hides {st gone : TextureScene α β} (fresh : st.Fresh c) {input : MapInput}
    (met : st.Condition c (.apply s input)) (attached : (st.surface s).bufferAttached = true)
    (pending : (st.surface s).pendingBuffer = none) (hides : st.Hides c s gone) : gone.Fresh c := by
  have grows := st.grows_leaving (c := c) s
  have own := (fresh.sound s).take_setBuffer (ready_of_condition met) attached
  rw [pending] at own
  refine ⟨fun o => ?_, hides.damage ▸ grows.wellFormed fresh.wellFormed, fun o visible => ?_⟩
  · by_cases here : o = s
    · rw [here, hides.own]
      exact own
    · rw [hides.others o here]
      exact fresh.sound o
  have away := hides.apart visible
  have others := hides.others o away
  rcases hides.fullyVisible visible with before | ⟨r, placed, r', there, within, here, overlap⟩
  · rcases fresh.shown o before with textured | ⟨r, placed, x, y, inside, damaged⟩
    · refine .inl fun b shown => ?_
      rw [others] at shown ⊢
      exact textured b shown
    · have damaged := grows.covers fresh.wellFormed x y damaged
      exact .inr ⟨r, hides.surfaceRect away ▸ placed, x, y, inside, hides.damage ▸ damaged⟩
  · -- The first common pixel of both is damaged.
    have sized := surfaceRect_pos placed
    have sized' := surfaceRect_pos there
    simp only [Rect.intersects, decide_eq_true_eq] at overlap
    have first : r.Contains (max r.x0 r'.x0) (max r.y0 r'.y0) := by
      simp only [Rect.Contains]
      omega
    have second : r'.Contains (max r.x0 r'.x0) (max r.y0 r'.y0) := by
      simp only [Rect.Contains]
      omega
    refine .inr ⟨r, hides.surfaceRect away ▸ placed, _, _, first, hides.damage ▸ ?_⟩
    exact leaving_covers fresh.wellFormed here there (within.contains first) second

theorem Fresh.applyOwn (fresh : st.Fresh c) {input : MapInput}
    (met : st.Condition c (.apply s input)) : (st.applyOwn c s input).Fresh c := by
  have applied := st.applied_applyOwn (c := c) s input
  generalize st.applyOwn c s input = st' at applied ⊢
  cases applied with
  | still attached =>
    refine fresh.grow (st.grows_modify s _ fun _ => ⟨rfl, rfl, rfl, rfl⟩) fun o => ?_
    exact sound_modify fresh.sound ((fresh.sound s).take (ready_of_condition met) attached) o
  | shows attached pending shows => exact fresh.shows met attached pending shows
  | hides attached pending hides => exact fresh.hides met attached pending hides

theorem Fresh.modify (fresh : st.Fresh c) (s : α)
    (change : TextureSurface β → TextureSurface β)
    (same : ∀ x, (change x).currentBuffer = x.currentBuffer ∧ (change x).texture = x.texture ∧
      (change x).dx = x.dx ∧ (change x).dy = x.dy) (own : (change (st.surface s)).Sound) :
    (st.modify s change).Fresh c :=
  fresh.grow (st.grows_modify s change same) (sound_modify fresh.sound own)

end TextureScene

end Xios
