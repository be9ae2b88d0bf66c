import Xios.Output.Texture

/-! Where the texture of a surface is not up to date, that is recorded. -/

namespace Xios

/-- The rectangle has pixels, and all of them are the buffer's. -/
def ShmBuffer.Holds {β : Type*} (b : ShmBuffer β) (r : DamageReport) : Prop :=
  0 ≤ r.x ∧ 0 < r.w ∧ r.x + r.w ≤ b.width ∧ 0 ≤ r.y ∧ 0 < r.h ∧ r.y + r.h ≤ b.height

namespace ShmBuffer

variable {β : Type*}

theorem mem_pixels {b : ShmBuffer β} {x y : Int} : (x, y) ∈ b.pixels ↔ b.Contains x y := by
  simp only [pixels, List.mem_flatMap, List.mem_range, List.mem_map, Prod.mk.injEq, Contains]
  constructor
  · rintro ⟨i, left, j, right, rfl, rfl⟩
    simp only [Int.ofNat_eq_natCast]
    omega
  · rintro ⟨x0, x1, y0, y1⟩
    exact ⟨x.toNat, by omega, y.toNat, by omega, Int.toNat_of_nonneg x0, Int.toNat_of_nonneg y0⟩

theorem SameSize.contains {a b : ShmBuffer β} (same : a.SameSize b) {x y : Int} :
    a.Contains x y ↔ b.Contains x y := by
  simp only [Contains, same.1, same.2]

theorem not_differs_self (buffer : Option (ShmBuffer β)) (x y : Int) :
    ¬Differs buffer buffer x y := by
  rintro ⟨b, shown, inside, differs⟩
  exact differs b shown inside rfl

theorem Differs.split {a b d : Option (ShmBuffer β)} {x y : Int} (differs : Differs a d x y) :
    Differs a b x y ∨ Differs b d x y := by
  obtain ⟨last, shown, inside, other⟩ := differs
  by_cases between : ∃ m ∈ b, m.Contains x y ∧ m.content x y = last.content x y
  · obtain ⟨m, middle, within, equal⟩ := between
    exact .inl ⟨m, middle, within, fun first old there => equal ▸ other first old there⟩
  · exact .inr ⟨last, shown, inside, fun m middle within equal =>
      between ⟨m, middle, within, equal⟩⟩

theorem drawShm_sameSize (texture : Option (ShmBuffer β)) (dirty : Bool)
    (rects : List DamageReport) (b : ShmBuffer β) :
    (b.drawShm texture dirty rects).SameSize b := by
  unfold drawShm
  split
  · exact ⟨rfl, rfl⟩
  split
  · exact ⟨rfl, rfl⟩
  rename_i same
  rw [not_not] at same
  split
  · split
    · exact same
    · exact ⟨rfl, rfl⟩
  · exact same

theorem drawShm_same {texture : Option (ShmBuffer β)} {dirty : Bool} {rects : List DamageReport}
    {b : ShmBuffer β} (recorded : ∀ t ∈ texture, t.SameSize b → ∀ x y, b.Contains x y →
      t.content x y ≠ b.content x y →
        dirty = true ∧ (rects = [] ∨ DamageReport.Covered rects x y)) :
    (b.drawShm texture dirty rects).Same b := by
  refine ⟨drawShm_sameSize texture dirty rects b, fun x y inside => ?_⟩
  unfold drawShm
  split
  · rfl
  rename_i t
  split
  · rfl
  rename_i same
  have known := recorded t rfl (not_not.mp same) x y inside
  by_cases equal : t.content x y = b.content x y
  · -- Neither an upload nor its absence changes such a pixel.
    split
    · split
      · simp only [uploadRects]
        split
        · rfl
        · exact equal
      · rfl
    · exact equal
  · obtain ⟨dirty, rects⟩ := known equal
    rw [if_pos dirty]
    split
    · rename_i listed
      simp only [uploadRects]
      rw [if_pos ⟨inside, rects.resolve_left listed⟩]
    · rfl

end ShmBuffer

namespace TextureSurface

variable {β : Type*}

/-- The pixel is known to be out of date in the texture. -/
def Records (x : TextureSurface β) (i j : Int) : Prop :=
  x.glDirty = true ∧ (x.glDirtyRects = [] ∨ DamageReport.Covered x.glDirtyRects i j)

/-- What holds for a surface between steps. -/
structure Sound (x : TextureSurface β) : Prop where
  sized : ∀ b ∈ x.currentBuffer, 0 < b.width ∧ 0 < b.height
  pendingSized : ∀ b ∈ x.pendingBuffer, 0 < b.width ∧ 0 < b.height
  -- Rectangles are listed only for a dirty texture, and within the buffer.
  clean : x.glDirty = false → x.glDirtyRects = []
  clipped : ∀ b ∈ x.currentBuffer, ∀ r ∈ x.glDirtyRects, b.Holds r
  -- Where the texture is not up to date, that is recorded.
  recorded : ∀ b ∈ x.currentBuffer, ∀ t ∈ x.texture, t.SameSize b → ∀ i j, b.Contains i j →
    t.content i j ≠ b.content i j → x.Records i j
  -- Unless a buffer was attached since, what comes is what was committed.
  honest : x.ahead = false → x.coming = x.committed
  -- What was committed differs from what is shown only where damage was requested for it.
  asked : ∀ i j, ShmBuffer.Differs x.currentBuffer x.committed i j →
    DamageReport.Covered x.waiting i j

theorem sound_empty : Sound ({} : TextureSurface β) where
  sized := nofun
  pendingSized := nofun
  clean _ := rfl
  clipped := nofun
  recorded := nofun
  honest _ := rfl
  asked i j differs := absurd differs (ShmBuffer.not_differs_self none i j)

theorem records_glDirtyFull (x : TextureSurface β) (i j : Int) : x.glDirtyFull.Records i j :=
  ⟨rfl, .inl rfl⟩

theorem holds_clip {x : TextureSurface β} {b : ShmBuffer β} (shown : b ∈ x.currentBuffer)
    (sized : 0 < b.width ∧ 0 < b.height) {r : DamageReport} (wide : 0 < (x.clip r).w)
    (high : 0 < (x.clip r).h) : b.Holds (x.clip r) := by
  have width : x.sw = b.width := by simp [sw, Option.mem_def.mp shown]
  have height : x.sh = b.height := by simp [sh, Option.mem_def.mp shown]
  unfold ShmBuffer.Holds
  unfold clip at wide high ⊢
  rw [width, height] at wide high ⊢
  grind

theorem glDirtyBufferRect_cases (x : TextureSurface β) (r : DamageReport) :
    x.glDirtyBufferRect r = x ∨ x.glDirtyBufferRect r = x.glDirtyFull ∨
      0 < (x.clip r).w ∧ 0 < (x.clip r).h ∧ (x.glDirty = true → x.glDirtyRects ≠ []) ∧
        x.glDirtyBufferRect r =
          { x with glDirty := true, glDirtyRects := x.glDirtyRects ++ [x.clip r] } := by
  unfold glDirtyBufferRect
  split
  · exact .inl rfl
  dsimp only
  split
  · exact .inl rfl
  split
  · exact .inl rfl
  rename_i listed
  split
  · exact .inr (.inl rfl)
  · refine .inr (.inr ⟨by omega, by omega, fun dirty empty => listed ⟨dirty, empty⟩, rfl⟩)

namespace Sound

variable {x : TextureSurface β} (sound : x.Sound)

include sound

theorem record {dirty : Bool} {rects : List DamageReport} (clean : dirty = false → rects = [])
    (clipped : ∀ b ∈ x.currentBuffer, ∀ r ∈ rects, b.Holds r)
    (more : ∀ i j, x.Records i j → dirty = true ∧ (rects = [] ∨ DamageReport.Covered rects i j)) :
    Sound { x with glDirty := dirty, glDirtyRects := rects } where
  sized := sound.sized
  pendingSized := sound.pendingSized
  clean := clean
  clipped := clipped
  recorded b shown t cached same i j inside stale :=
    more i j (sound.recorded b shown t cached same i j inside stale)
  honest := sound.honest
  asked := sound.asked

theorem glDirtyFull : x.glDirtyFull.Sound :=
  sound.record nofun (fun _ _ _ listed => nomatch listed) fun _ _ _ => ⟨rfl, .inl rfl⟩

theorem glDirtyBufferRect (r : DamageReport) : (x.glDirtyBufferRect r).Sound := by
  rcases x.glDirtyBufferRect_cases r with same | full | ⟨wide, high, listed, added⟩
  · rw [same]
    exact sound
  · rw [full]
    exact sound.glDirtyFull
  · rw [added]
    refine sound.record nofun (fun b shown r' member => ?_) fun i j known => ⟨rfl, .inr ?_⟩
    · rcases List.mem_append.mp member with old | new
      · exact sound.clipped b shown r' old
      · rw [List.mem_singleton.mp new]
        exact holds_clip shown (sound.sized b shown) wide high
    · obtain ⟨r', old, inside⟩ := known.2.resolve_left (listed known.1)
      exact ⟨r', List.mem_append_left _ old, inside⟩

theorem ask (r : DamageReport) : (x.ask r).Sound :=
  { sound with }

theorem attach {buffer : Option (ShmBuffer β)}
    (sized : ∀ b ∈ buffer, 0 < b.width ∧ 0 < b.height) : (x.attach buffer).Sound :=
  { sound with
    pendingSized := sized
    honest := nofun }

theorem note (asked : ∀ i j, ShmBuffer.Differs x.committed x.coming i j →
    DamageReport.Covered x.asked i j) : x.note.Sound :=
  { sound with
    honest := fun _ => rfl
    asked := fun i j differs => by
      -- It differs from what is shown where it differs from what was committed, or that did.
      rcases ShmBuffer.Differs.split differs with before | now
      · obtain ⟨r, listed, inside⟩ := sound.asked i j before
        exact ⟨r, List.mem_append_left _ listed, inside⟩
      · obtain ⟨r, listed, inside⟩ := asked i j now
        exact ⟨r, List.mem_append_right _ listed, inside⟩ }

end Sound

/-- What is applied is recorded as far as it matters, and nothing else is. -/
structure Ready (x : TextureSurface β) : Prop where
  -- Nothing has been attached since the last commit.
  committed : x.ahead = false
  -- Damage that kept rectangles have to contain, they do.
  kept : x.bufferAttached = true → ∀ b ∈ x.pendingBuffer, x.Preserves (some b) →
    ∀ i j, b.Contains i j → DamageReport.Covered x.waiting i j →
      DamageReport.Covered x.glDirtyRects i j

namespace Sound

variable {x : TextureSurface β} (sound : x.Sound)

include sound

theorem take (ready : x.Ready) (still : x.bufferAttached = false) : x.take.Sound :=
  { sound with
    pendingSized := nofun
    honest := fun _ => by
      have coming := sound.honest ready.committed
      simp only [TextureSurface.coming, still, Bool.false_eq_true, ↓reduceIte] at coming
      exact coming
    asked := fun i j differs => by
      -- What was committed is shown.
      have coming := sound.honest ready.committed
      simp only [TextureSurface.coming, still, Bool.false_eq_true, ↓reduceIte] at coming
      simp only [TextureSurface.take, ← coming] at differs
      exact absurd differs (ShmBuffer.not_differs_self _ i j) }

theorem take_setBuffer (ready : x.Ready) (attached : x.bufferAttached = true) :
    (x.take.setBuffer x.pendingBuffer).Sound := by
  have coming := sound.honest ready.committed
  simp only [TextureSurface.coming, attached, ↓reduceIte] at coming
  have settled (i j : Int) : ¬ShmBuffer.Differs x.pendingBuffer x.committed i j := by
    rw [← coming]
    exact ShmBuffer.not_differs_self x.pendingBuffer i j
  unfold setBuffer
  split
  · rename_i preserves
    obtain ⟨b, pending, a, shown, same, dirty, listed⟩ := preserves
    rw [Option.mem_def] at pending
    exact {
      sized := sound.pendingSized
      pendingSized := nofun
      clean := sound.clean
      clipped := fun b' new r member => by
        have old := sound.clipped a shown r member
        obtain rfl : b = b' := Option.some.inj (pending.symm.trans new)
        simpa only [ShmBuffer.Holds, same.1, same.2] using old
      recorded := fun b' new t cached size i j inside stale => by
        obtain rfl : b = b' := Option.some.inj (pending.symm.trans new)
        have within := same.contains.mpr inside
        by_cases before : t.content i j = a.content i j
        · -- The old buffer was otherwise there, for which damage was requested.
          have differs : ShmBuffer.Differs x.currentBuffer x.committed i j := by
            refine ⟨b, coming ▸ pending, inside, fun a' old _ => ?_⟩
            obtain rfl : a = a' := Option.some.inj (shown.symm.trans old)
            exact before ▸ stale
          have preserves : x.Preserves (some b) := ⟨b, rfl, a, shown, same, dirty, listed⟩
          exact ⟨dirty, .inr (ready.kept attached b pending preserves i j inside
            (sound.asked i j differs))⟩
        · have size' : t.SameSize a :=
            ⟨size.1.trans same.1.symm, size.2.trans same.2.symm⟩
          exact sound.recorded a shown t cached size' i j within before
      honest := fun _ => coming
      asked := fun i j differs => absurd differs (settled i j) }
  · exact {
      sized := sound.pendingSized
      pendingSized := nofun
      clean := nofun
      clipped := fun _ _ _ member => nomatch member
      recorded := fun _ _ _ _ _ i j _ _ => records_glDirtyFull _ i j
      honest := fun _ => coming
      asked := fun i j differs => absurd differs (settled i j) }

theorem compositeSurfaceAt_eq {b : ShmBuffer β} (shown : b ∈ x.currentBuffer) :
    x.compositeSurfaceAt =
      { x with
        texture := some (b.drawShm x.texture x.glDirty x.glDirtyRects)
        glDirty := false
        glDirtyRects := [] } := by
  have sized := sound.sized b shown
  simp only [TextureSurface.compositeSurfaceAt, Option.mem_def.mp shown]
  rw [if_neg (by omega)]

theorem compositeSurfaceAt_same {b : ShmBuffer β} (shown : b ∈ x.currentBuffer) :
    ∃ t ∈ x.compositeSurfaceAt.texture, t.Same b := by
  rw [sound.compositeSurfaceAt_eq shown]
  exact ⟨_, rfl, ShmBuffer.drawShm_same (sound.recorded b shown)⟩

theorem compositeSurfaceAt : x.compositeSurfaceAt.Sound := by
  cases current : x.currentBuffer with
  | none =>
    simp only [TextureSurface.compositeSurfaceAt, current]
    exact sound
  | some b =>
    have same := sound.compositeSurfaceAt_same current
    rw [sound.compositeSurfaceAt_eq current] at same ⊢
    exact { sound with
      clean := fun _ => rfl
      clipped := fun _ _ _ member => nomatch member
      recorded := fun b' shown t cached _ i j inside stale => by
        obtain rfl : b = b' := Option.some.inj (current.symm.trans shown)
        obtain ⟨t', cached', equal⟩ := same
        obtain rfl : t = t' := Option.some.inj (cached.symm.trans cached')
        exact absurd (equal.2 i j inside) stale }

end Sound

end TextureSurface

end Xios
