import Mathlib.Data.List.Basic
import Mathlib.Order.Nat

/-! Forests given by parent pointers, values passed down their branches, and cascades over them. -/

/-- Nodes with parents, of which no chain is longer than the number of levels. -/
structure Forest (α : Type*) where
  nodes : List α
  parent : α → Option α
  -- How far a node is from its root, at least.
  depth : α → Nat
  -- Children are below their parents.
  deeper : ∀ {c p : α}, parent c = some p → depth p < depth c
  -- Every node is within the levels, and every child is listed.
  levels : Nat
  within : ∀ c, depth c < levels
  listed : ∀ {c p : α}, parent c = some p → c ∈ nodes

namespace Forest

variable {α β σ : Type*}

/-- Pass a value down the branch of a node. -/
def climbFrom (f : Forest α) (root : α → β) (step : α → α → β → β) : Nat → α → β
  | 0, c => root c
  | fuel + 1, c =>
    match f.parent c with
    | none => root c
    | some p => step c p (f.climbFrom root step fuel p)

/-- Pass a value down the branch of a node. -/
def climb (f : Forest α) (root : α → β) (step : α → α → β → β) (c : α) : β :=
  f.climbFrom root step (f.depth c) c

variable {c : α}
variable (f : Forest α)

theorem climbFrom_eq (root : α → β) (step : α → α → β → β) {fuel : Nat} (enough : f.depth c ≤ fuel) :
    f.climbFrom root step fuel c = f.climb root step c := by
  -- Two amounts of fuel go down together, and the parent is less deep than the child.
  have both : ∀ (fuel fuel' : Nat) (c : α), f.depth c ≤ fuel → f.depth c ≤ fuel' →
      f.climbFrom root step fuel c = f.climbFrom root step fuel' c := by
    intro fuel
    induction fuel with
    | zero =>
      intro fuel' c first _
      cases fuel' with
      | zero => rfl
      | succ fuel' =>
        cases up : f.parent c with
        | none => simp [climbFrom, up]
        | some p =>
          have lower := f.deeper up
          omega
    | succ fuel ih =>
      intro fuel' c first second
      cases up : f.parent c with
      | none => cases fuel' <;> simp [climbFrom, up]
      | some p =>
        have lower := f.deeper up
        obtain ⟨fuel', rfl⟩ : ∃ k, fuel' = k + 1 := ⟨fuel' - 1, by omega⟩
        simp only [climbFrom, up]
        rw [ih fuel' p (by omega) (by omega)]
  exact both fuel (f.depth c) c enough le_rfl

theorem climb_eq (root : α → β) (step : α → α → β → β) (c : α) :
    f.climb root step c =
      match f.parent c with
      | none => root c
      | some p => step c p (f.climb root step p) := by
  cases up : f.parent c with
  | none =>
    unfold climb
    cases f.depth c <;> simp [climbFrom, up]
  | some p =>
    have lower := f.deeper up
    obtain ⟨k, deep⟩ : ∃ k, f.depth c = k + 1 := ⟨f.depth c - 1, by omega⟩
    have unfolded : f.climb root step c = step c p (f.climbFrom root step k p) := by
      unfold climb
      rw [deep]
      simp only [climbFrom, up]
    rw [unfolded, f.climbFrom_eq root step (by omega)]

theorem descend {holds : α → Prop} (inherited : ∀ c, (∀ p, f.parent c = some p → holds p) → holds c)
    (c : α) : holds c := by
  -- The induction is on the distance from the root.
  induction deep : f.depth c using Nat.strongRecOn generalizing c with
  | ind n ih =>
    refine inherited c fun p up => ?_
    have lower := f.deeper up
    exact ih _ (by omega) p rfl

/-- What is done to a node, and when and how its children are entered. -/
structure Visit (α σ : Type*) where
  -- What is done to the node itself.
  own : σ → α → σ
  -- A child is visited, too.
  ready : σ → α → Bool
  -- What is done before it is.
  enter : σ → α → σ

variable [DecidableEq α]

def visitChildren (f : Forest α) (v : Visit α σ) (visit : σ → α → σ) (s : α) : σ → List α → σ :=
  List.foldl fun st c =>
    if f.parent c = some s ∧ v.ready st c = true then visit (v.enter st c) c else st

/-- Visit a node and then its children, down to some number of levels. -/
def cascadeFrom (f : Forest α) (v : Visit α σ) : Nat → σ → α → σ
  | 0, st, s => v.own st s
  | fuel + 1, st, s => f.visitChildren v (f.cascadeFrom v fuel) s (v.own st s) f.nodes

def cascade (f : Forest α) (v : Visit α σ) (st : σ) (s : α) : σ :=
  f.cascadeFrom v (f.levels - f.depth s) st s

variable {s : α}

theorem visitChildren_congr (v : Visit α σ) {visit visit' : σ → α → σ}
    (same : ∀ c, f.parent c = some s → ∀ st, visit st c = visit' st c) (st : σ) (cs : List α) :
    f.visitChildren v visit s st cs = f.visitChildren v visit' s st cs := by
  induction cs generalizing st with
  | nil => rfl
  | cons c cs ih =>
    simp only [visitChildren, List.foldl_cons] at ih ⊢
    by_cases child : f.parent c = some s ∧ v.ready st c = true
    · simp only [if_pos child, same c child.1]
      exact ih _
    · simp only [if_neg child]
      exact ih _

theorem cascadeFrom_eq (v : Visit α σ) {fuel : Nat}
    (enough : f.levels - f.depth s ≤ fuel) (st : σ) :
    f.cascadeFrom v fuel st s = f.cascade v st s := by
  have both : ∀ (fuel fuel' : Nat) (s : α), f.levels - f.depth s ≤ fuel →
      f.levels - f.depth s ≤ fuel' →
        ∀ st, f.cascadeFrom v fuel st s = f.cascadeFrom v fuel' st s := by
    intro fuel
    induction fuel with
    | zero =>
      intro fuel' s first _ st
      have inside := f.within s
      omega
    | succ fuel ih =>
      intro fuel' s first second st
      have inside := f.within s
      obtain ⟨fuel', rfl⟩ : ∃ k, fuel' = k + 1 := ⟨fuel' - 1, by omega⟩
      refine f.visitChildren_congr v (fun c up st => ?_) _ _
      have lower := f.deeper up
      exact ih fuel' c (by omega) (by omega) st
  exact both fuel _ s enough le_rfl st

theorem cascade_eq (v : Visit α σ) (st : σ) (s : α) :
    f.cascade v st s = f.visitChildren v (f.cascade v) s (v.own st s) f.nodes := by
  have more : f.cascade v st s = f.cascadeFrom v (f.levels - f.depth s + 1) st s :=
    (f.cascadeFrom_eq v (Nat.le_succ _) st).symm
  rw [more]
  refine f.visitChildren_congr v (fun c up st => ?_) _ _
  have lower := f.deeper up
  exact f.cascadeFrom_eq v (by omega) st

theorem cascade_hom {τ : Type*} (look : σ → τ) {v : Visit α σ} {v' : Visit α τ}
    (own : ∀ st s, v'.own (look st) s = look (v.own st s))
    (ready : ∀ st s, v'.ready (look st) s = v.ready st s)
    (enter : ∀ st s, v'.enter (look st) s = look (v.enter st s)) (st : σ) (s : α) :
    f.cascade v' (look st) s = look (f.cascade v st s) := by
  -- The induction is on the levels, and the fold over the children keeps what is looked at.
  have every : ∀ (fuel : Nat) (st : σ) (s : α),
      f.cascadeFrom v' fuel (look st) s = look (f.cascadeFrom v fuel st s) := by
    intro fuel
    induction fuel with
    | zero => exact own
    | succ fuel ih =>
      intro st s
      simp only [cascadeFrom, own]
      refine List.foldl_hom look fun st c => ?_
      by_cases next : f.parent c = some s ∧ v.ready st c = true
      · rw [if_pos next, if_pos (ready st c ▸ next), enter, ih]
      · rw [if_neg next, if_neg (ready st c ▸ next)]
  exact every _ st s

theorem cascade_relates (v : Visit α σ) (relates : α → σ → σ → Prop)
    (own : ∀ st s, relates s st (v.own st s))
    (child : ∀ st st' st'' c s, f.parent c = some s → v.ready st' c = true →
      relates s st st' → relates c (v.enter st' c) st'' → relates s st st'')
    (st : σ) (s : α) : relates s st (f.cascade v st s) := by
  -- The induction is on the levels below the node, and inside it on the list of its children.
  induction below : f.levels - f.depth s using Nat.strongRecOn generalizing st s with
  | ind n ih =>
    rw [cascade_eq]
    have rest : ∀ (cs : List α) (st' : σ), relates s st st' →
        relates s st (f.visitChildren v (f.cascade v) s st' cs) := by
      intro cs
      induction cs with
      | nil => exact fun _ reached => reached
      | cons c cs later =>
        intro st' reached
        refine later _ ?_
        by_cases next : f.parent c = some s ∧ v.ready st' c = true
        · have lower := f.deeper next.1
          have inside := f.within c
          simp only [if_pos next]
          exact child st st' _ c s next.1 next.2 reached (ih _ (by omega) (v.enter st' c) c rfl)
        · simp only [if_neg next]
          exact reached
    exact rest f.nodes _ (own st s)

/-- A node below another one, with nothing but ready nodes from there down to it. -/
def reached (f : Forest α) (ready : α → Bool) (s c : α) : Bool :=
  f.climb (fun _ => false) (fun c p above => ready c && (decide (p = s) || above)) c

variable {ready : α → Bool}

theorem reached_iff :
    f.reached ready s c = true ↔
      ∃ p, f.parent c = some p ∧ ready c = true ∧ (p = s ∨ f.reached ready s p = true) := by
  unfold reached
  rw [climb_eq]
  cases up : f.parent c with
  | none => simp
  | some p => simp

theorem reached_child (up : f.parent c = some s) (next : ready c = true) :
    f.reached ready s c = true :=
  f.reached_iff.mpr ⟨s, up, next, .inl rfl⟩

theorem ready_of_reached (below : f.reached ready s c = true) : ready c = true := by
  obtain ⟨_, _, next, _⟩ := f.reached_iff.mp below
  exact next

theorem depth_lt_of_reached (c : α) (below : f.reached ready s c = true) :
    f.depth s < f.depth c := by
  induction c using f.descend with
  | _ c ih =>
    obtain ⟨p, up, _, here | higher⟩ := f.reached_iff.mp below
    · exact here ▸ f.deeper up
    · exact (ih p up higher).trans (f.deeper up)

theorem reached_mono {ready' : α → Bool}
    (more : ∀ d, f.depth s < f.depth d → ready d = true → ready' d = true) (c : α)
    (below : f.reached ready s c = true) : f.reached ready' s c = true := by
  induction c using f.descend with
  | _ c ih =>
    have deeper := f.depth_lt_of_reached c below
    obtain ⟨p, up, next, higher⟩ := f.reached_iff.mp below
    exact f.reached_iff.mpr ⟨p, up, more c deeper next, higher.imp_right (ih p up)⟩

theorem reached_congr {ready' : α → Bool} (same : ∀ d, f.depth s < f.depth d → ready d = ready' d)
    (c : α) :
    f.reached ready s c = f.reached ready' s c := by
  rw [Bool.eq_iff_iff]
  exact ⟨f.reached_mono (fun d deeper ready => same d deeper ▸ ready) c,
    f.reached_mono (fun d deeper ready => (same d deeper).symm ▸ ready) c⟩

theorem reached_of_child (up : f.parent c = some s) (next : ready c = true) (d : α)
    (below : f.reached ready c d = true) : f.reached ready s d = true := by
  induction d using f.descend with
  | _ d ih =>
    obtain ⟨p, above, ready, here | higher⟩ := f.reached_iff.mp below
    · exact f.reached_iff.mpr ⟨p, above, ready, .inr (here ▸ f.reached_child up next)⟩
    · exact f.reached_iff.mpr ⟨p, above, ready, .inr (ih p above higher)⟩

/-- What is done to a node's own record, and when and how the record of a child is entered. -/
structure Action (γ : Type*) where
  -- What is done to the record of a visited node.
  own : γ → γ
  -- A child with such a record is visited, too.
  ready : γ → Bool
  -- What is done to its record before it is.
  enter : γ → γ
  -- Visiting a node does not make it ready again, and entering it ends that it is.
  own_ready : ∀ x, ready (own x) = ready x
  enter_ready : ∀ x, ready (enter x) = false

def Action.visit {γ : Type*} (a : Action γ) : Visit α (α → γ) where
  own st s := Function.update st s (a.own (st s))
  ready st c := a.ready (st c)
  enter st c := Function.update st c (a.enter (st c))

variable {γ : Type*}

theorem ready_of_cascade (a : Action γ) (st : α → γ) (s : α) :
    ∀ d, a.ready (f.cascade a.visit st s d) = true → a.ready (st d) = true := by
  refine f.cascade_relates a.visit (fun _ st st' => ∀ d, a.ready (st' d) = true →
    a.ready (st d) = true) ?_ ?_ st s
  · intro st s d after
    by_cases here : d = s
    · subst here
      simpa [Action.visit, a.own_ready] using after
    · simpa [Action.visit, here] using after
  · intro st st' st'' c s up next first second d after
    refine first d ?_
    have entered := second d after
    by_cases here : d = c
    · subst here
      simp [Action.visit, a.enter_ready] at entered
    · simpa [Action.visit, here] using entered

/-- A cascade reaches every node at most once, and only by ready ancestors. -/
theorem cascade_once (a : Action γ) (st : α → γ) (s : α) :
    f.cascade a.visit st s s = a.own (st s) ∧
      ∀ d, d ≠ s → f.cascade a.visit st s d = st d ∨
        f.reached (fun c => a.ready (st c)) s d = true ∧
          f.cascade a.visit st s d = a.own (a.enter (st d)) := by
  refine f.cascade_relates a.visit (fun s st st' => st' s = a.own (st s) ∧
    ∀ d, d ≠ s → st' d = st d ∨ f.reached (fun c => a.ready (st c)) s d = true ∧
      st' d = a.own (a.enter (st d))) ?_ ?_ st s
  · intro st s
    exact ⟨by simp [Action.visit], fun d away => .inl (by simp [Action.visit, away])⟩
  · intro st st' st'' c s up next first second
    have lower := f.deeper up
    -- A node that is still ready has not been visited so far.
    have fresh : ∀ d, d ≠ s → a.ready (st' d) = true → st' d = st d := by
      intro d away still
      obtain same | ⟨_, visited⟩ := first.2 d away
      · exact same
      · rw [visited, a.own_ready, a.enter_ready] at still
        exact absurd still Bool.false_ne_true
    have apart : c ≠ s := by
      rintro rfl
      omega
    have before : a.ready (st c) = true := by
      rw [← fresh c apart next]
      exact next
    refine ⟨?_, fun d away => ?_⟩
    · -- The walk below the child does not come back up.
      obtain same | ⟨above, _⟩ := second.2 s apart.symm
      · rw [same, ← first.1]
        simp [Action.visit, apart.symm]
      · have deeper := f.depth_lt_of_reached s above
        omega
    · by_cases here : d = c
      · subst here
        refine .inr ⟨f.reached_child up before, ?_⟩
        rw [second.1]
        simp [Action.visit, fresh d away next]
      · obtain same | ⟨below, visited⟩ := second.2 d here
        · rw [same]
          simpa [Action.visit, here] using first.2 d away
        · -- The nodes on the way were ready before anything was visited.
          have still : ∀ e, a.ready ((a.visit.enter st' c : α → γ) e) = true →
              a.ready (st' e) = true := by
            intro e ready
            by_cases at_child : e = c
            · rw [at_child]
              exact next
            · simpa [Action.visit, at_child] using ready
          have earlier : ∀ e, a.ready (st' e) = true → a.ready (st e) = true := by
            intro e ready
            by_cases at_start : e = s
            · subst at_start
              rw [first.1, a.own_ready] at ready
              exact ready
            · exact fresh e at_start ready ▸ ready
          have chain := f.reached_mono (fun e _ ready => earlier e (still e ready)) d below
          refine .inr ⟨f.reached_of_child up before d chain, ?_⟩
          rw [visited]
          simp [Action.visit, here,
            fresh d away (still d (f.ready_of_reached below))]

theorem ready_of_enter (a : Action γ) (st : α → γ) {d e : α}
    (ready : a.ready ((a.visit.enter st e : α → γ) d) = true) :
    a.ready (st d) = true ∧ d ≠ e := by
  by_cases here : d = e
  · subst here
    simp [Action.visit, a.enter_ready] at ready
  · exact ⟨by simpa [Action.visit, here] using ready, here⟩

/-- Visiting the children of a node leaves no child of a visited node ready, if each cascade from
one of them does not. -/
theorem visitChildren_thorough (a : Action γ)
    (thorough : ∀ (st : α → γ) (e : α), f.parent e = some s → ∀ p c, f.parent c = some p →
      (p = e ∨ a.ready (st p) = true ∧ a.ready (f.cascade a.visit st e p) = false) →
      a.ready (f.cascade a.visit st e c) = false) (cs : List α) (st : α → γ) :
    (∀ d, a.ready (f.visitChildren a.visit (f.cascade a.visit) s st cs d) = true →
      a.ready (st d) = true) ∧
    (∀ c ∈ cs, f.parent c = some s →
      a.ready (f.visitChildren a.visit (f.cascade a.visit) s st cs c) = false) ∧
    ∀ p c, f.parent c = some p → a.ready (st p) = true →
      a.ready (f.visitChildren a.visit (f.cascade a.visit) s st cs p) = false →
      a.ready (f.visitChildren a.visit (f.cascade a.visit) s st cs c) = false := by
  induction cs generalizing st with
  | nil =>
    refine ⟨fun d after => after, fun c within => absurd within (by simp), ?_⟩
    intro p c _ before after
    exact absurd (before.symm.trans after) (by simp)
  | cons e cs later =>
    by_cases next : f.parent e = some s ∧ a.visit.ready st e = true
    · -- The child is entered, and its own cascade does for its subtree what is claimed.
      let entered : α → γ := a.visit.enter st e
      have enters : ∀ d, a.ready (entered d) = true → a.ready (st d) = true ∧ d ≠ e :=
        fun d ready => ready_of_enter a st ready
      have mono := f.ready_of_cascade a entered e
      have inner : ∀ p c, f.parent c = some p → a.ready (st p) = true →
          a.ready (f.cascade a.visit entered e p) = false →
          a.ready (f.cascade a.visit entered e c) = false := by
        intro p c up before after
        apply thorough entered e next.1 p c up
        by_cases here : p = e
        · exact .inl here
        · exact .inr ⟨by simpa [entered, Action.visit, here] using before, after⟩
      have step : f.visitChildren a.visit (f.cascade a.visit) s st (e :: cs) =
          f.visitChildren a.visit (f.cascade a.visit) s (f.cascade a.visit entered e) cs := by
        simp only [visitChildren, List.foldl_cons, if_pos next]
        rfl
      obtain ⟨fewer, listed, through⟩ := later (f.cascade a.visit entered e)
      rw [step]
      refine ⟨fun d after => (enters d (mono d (fewer d after))).1, ?_, ?_⟩
      · intro c within up
        obtain rfl | within := List.mem_cons.mp within
        · by_contra still
          rw [Bool.not_eq_false] at still
          exact (enters c (mono c (fewer c still))).2 rfl
        · exact listed c within up
      · -- A node is visited by the cascade from the child, or by those from the others.
        intro p c up before after
        by_cases between : a.ready (f.cascade a.visit entered e p) = true
        · exact through p c up between after
        · have clear := inner p c up before (Bool.not_eq_true _ ▸ between)
          by_contra still
          rw [Bool.not_eq_false] at still
          rw [fewer c still] at clear
          exact Bool.noConfusion clear
    · have step : f.visitChildren a.visit (f.cascade a.visit) s st (e :: cs) =
          f.visitChildren a.visit (f.cascade a.visit) s st cs := by
        simp only [visitChildren, List.foldl_cons, if_neg next]
      obtain ⟨fewer, listed, through⟩ := later st
      rw [step]
      refine ⟨fewer, ?_, through⟩
      intro c within up
      obtain rfl | within := List.mem_cons.mp within
      · by_contra still
        rw [Bool.not_eq_false] at still
        exact next ⟨up, fewer c still⟩
      · exact listed c within up

theorem cascade_thorough (a : Action γ) (st : α → γ) (s : α) {p : α} (up : f.parent c = some p)
    (visited : p = s ∨ a.ready (st p) = true ∧ a.ready (f.cascade a.visit st s p) = false) :
    a.ready (f.cascade a.visit st s c) = false := by
  -- The induction is on the levels below the node, and inside it on the list of its children.
  induction below : f.levels - f.depth s using Nat.strongRecOn generalizing st s p c with
  | ind n ih =>
    have thorough : ∀ (st : α → γ) (e : α), f.parent e = some s → ∀ p c, f.parent c = some p →
        (p = e ∨ a.ready (st p) = true ∧ a.ready (f.cascade a.visit st e p) = false) →
        a.ready (f.cascade a.visit st e c) = false := by
      intro st' e child p c up visited
      have lower := f.deeper child
      have inside := f.within e
      exact ih _ (by omega) st' e up visited rfl
    obtain ⟨_, listed, through⟩ :=
      f.visitChildren_thorough a thorough f.nodes (a.visit.own st s)
    rw [cascade_eq] at visited ⊢
    obtain rfl | ⟨before, after⟩ := visited
    · exact listed c (f.listed up) up
    · by_cases here : p = s
      · subst here
        exact listed c (f.listed up) up
      · exact through p c up (by simpa [Action.visit, here] using before) after

theorem cascade_local (a : Action γ) (st : α → γ) (s d : α) :
    f.cascade a.visit st s d =
      if d = s then a.own (st d)
      else if f.reached (fun c => a.ready (st c)) s d = true then a.own (a.enter (st d))
      else st d := by
  obtain ⟨start, once⟩ := f.cascade_once a st s
  by_cases here : d = s
  · rw [if_pos here, here, start]
  · rw [if_neg here]
    by_cases below : f.reached (fun c => a.ready (st c)) s d = true
    · rw [if_pos below]
      -- The parent of a reached node is visited, so that none of its children stays ready.
      have passed : ∀ e, f.reached (fun c => a.ready (st c)) s e = true →
          a.ready (f.cascade a.visit st s e) = false := by
        intro e
        induction e using f.descend with
        | _ e ih =>
          intro below
          obtain ⟨p, up, _, start | higher⟩ := f.reached_iff.mp below
          · exact f.cascade_thorough a st s up (.inl start)
          · exact f.cascade_thorough a st s up
              (.inr ⟨f.ready_of_reached higher, ih p up higher⟩)
      obtain same | ⟨_, visited⟩ := once d here
      · have ready := f.ready_of_reached below
        rw [← same, passed d below] at ready
        exact absurd ready Bool.false_ne_true
      · exact visited
    · rw [if_neg below]
      obtain same | ⟨reached, _⟩ := once d here
      · exact same
      · exact absurd reached below

end Forest
