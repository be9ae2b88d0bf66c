import Xios.Lib.Rect

/-! Layers painted one over the other, and clips that leave out what later layers cover. -/

/-- Something that is painted on a canvas. -/
structure Layer (β : Type*) where
  rect : Option Rect
  -- What it makes of a pixel.
  paint : Int → Int → β → β
  -- Nothing shows through.
  solid : Bool
  overwrites : solid = true → ∀ x y a b, paint x y a = paint x y b

namespace Layer

variable {α β : Type*}

/-- A layer draws a pixel. -/
def Covers (l : Layer β) (x y : Int) : Prop :=
  ∃ r ∈ l.rect, r.Contains x y
  deriving Decidable

def draw (l : Layer β) (canvas : Int → Int → β) (clip : Rect) : Int → Int → β :=
  fun x y =>
    if clip.Contains x y ∧ l.Covers x y then l.paint x y (canvas x y) else canvas x y

/-- Paint the layers of a list from the first to the last, each once for each of its clips. -/
def paintAll (layer : α → Layer β) (clips : α → List α → List Rect) :
    List α → (Int → Int → β) → Int → Int → β
  | [], canvas => canvas
  | a :: above, canvas =>
    paintAll layer clips above ((clips a above).foldl (layer a).draw canvas)

/-- A layer that nothing shows through is at the pixel. -/
def Hidden (layer : α → Layer β) (above : List α) (x y : Int) : Prop :=
  ∃ a ∈ above, (layer a).solid = true ∧ (layer a).Covers x y

/-- The clips of each layer divide what is seen of it within a rectangle, and may show more. -/
structure Culls (layer : α → Layer β) (bound : Rect) (clips : α → List α → List Rect) : Prop where
  -- Nothing outside of the rectangle is painted.
  inside : ∀ a above x y, Rect.Covers (clips a above) x y → bound.Contains x y
  -- What no later layer hides is painted.
  enough : ∀ a above x y, bound.Contains x y → (layer a).Covers x y → ¬Hidden layer above x y →
    Rect.Covers (clips a above) x y
  -- Nothing is painted twice.
  apart : ∀ a above, (clips a above).Pairwise Rect.Apart

theorem foldl_draw (l : Layer β) {clips : List Rect} (apart : clips.Pairwise Rect.Apart)
    (canvas : Int → Int → β) (x y : Int) :
    clips.foldl l.draw canvas x y =
      if Rect.Covers clips x y ∧ l.Covers x y then l.paint x y (canvas x y) else canvas x y := by
  -- The induction is on the clips, of which no later one has a pixel of the first one.
  induction clips generalizing canvas with
  | nil => simp
  | cons clip rest ih =>
    obtain ⟨first, later⟩ := List.pairwise_cons.mp apart
    rw [List.foldl_cons, ih later]
    by_cases here : clip.Contains x y
    · have elsewhere : ¬Rect.Covers rest x y := fun ⟨r, listed, inside⟩ =>
        first r listed x y here inside
      simp [draw, here, elsewhere]
    · simp [draw, here]

/-- What is hidden by later layers need not be painted. -/
theorem paintAll_culled {layer : α → Layer β} {bound : Rect} {clips : α → List α → List Rect}
    (culls : Culls layer bound clips) (layers : List α) (canvas : Int → Int → β) :
    paintAll layer clips layers canvas = paintAll layer (fun _ _ => [bound]) layers canvas := by
  -- Two canvases may differ where a layer still to come hides them.
  have general : ∀ x y (c d : Int → Int → β),
      c x y = d x y ∨ bound.Contains x y ∧ Hidden layer layers x y →
        paintAll layer clips layers c x y = paintAll layer (fun _ _ => [bound]) layers d x y := by
    intro x y
    induction layers with
    | nil =>
      rintro c d (same | ⟨-, a, member, -⟩)
      · exact same
      · simp at member
    | cons a above ih =>
      intro c d related
      simp only [paintAll]
      apply ih
      by_cases damaged : bound.Contains x y
      swap
      · -- Outside of the rectangle neither of the two paints.
        left
        have same : c x y = d x y := related.resolve_right fun both => damaged both.1
        have undrawn : ¬Rect.Covers (clips a above) x y := fun covered =>
          damaged (culls.inside a above x y covered)
        rw [foldl_draw _ (culls.apart a above), foldl_draw _ (List.pairwise_singleton _ _)]
        simp [undrawn, damaged, same]
      · by_cases hidden : Hidden layer above x y
        · exact Or.inr ⟨damaged, hidden⟩
        -- Nothing hides the layer here, so that both paint it if it is here at all.
        left
        rw [foldl_draw _ (culls.apart a above), foldl_draw _ (List.pairwise_singleton _ _)]
        by_cases covered : (layer a).Covers x y
        · have drawn := culls.enough a above x y damaged covered hidden
          simp only [drawn, covered, damaged, Rect.covers_cons, Rect.covers_nil, or_false,
            and_self, ↓reduceIte]
          rcases related with same | ⟨-, b, member, solid, there⟩
          · rw [same]
          · rcases List.mem_cons.mp member with rfl | later
            · exact (layer b).overwrites solid x y _ _
            · exact absurd ⟨b, later, solid, there⟩ hidden
        · simp only [covered, and_false, ↓reduceIte]
          apply related.resolve_right
          rintro ⟨-, b, member, solid, there⟩
          rcases List.mem_cons.mp member with rfl | later
          · exact covered there
          · exact hidden ⟨b, later, solid, there⟩
  funext x y
  exact general x y canvas canvas (Or.inl rfl)

end Layer
