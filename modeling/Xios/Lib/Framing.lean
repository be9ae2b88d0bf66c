import Mathlib.Data.List.Basic

/-! Readers that collect a known number of items before each decision, on streams in one piece. -/

/-- What a reader does with a completed frame. -/
inductive Verdict (σ ω : Type*) where
  -- Deliver some results and go on in another phase.
  | more (phase : σ) (out : List ω)
  -- Deliver some results and read nothing further.
  | stop (out : List ω)

/-- A reader that waits for a full frame in every phase and then decides what follows. -/
structure Reader (σ β ω : Type*) where
  -- Size of the frame expected in a phase.
  want : σ → Nat
  -- Every frame has at least one item.
  positive : ∀ phase, 0 < want phase
  -- Decision on a full frame.
  finish : σ → List β → Verdict σ ω

namespace Reader

variable {σ β ω : Type*}

/-- Where a reader ends up on a given input. -/
structure Outcome (σ β ω : Type*) where
  -- Everything delivered, in order.
  out : List ω
  -- The phase in which more input is needed and the partial frame, unless reading stopped.
  waiting : Option (σ × List β)
  -- Input behind the frame at which reading stopped.
  unread : List β

def Outcome.prepend (out : List ω) (outcome : Outcome σ β ω) : Outcome σ β ω :=
  { outcome with out := out ++ outcome.out }

@[simp] theorem Outcome.out_prepend (out : List ω) (outcome : Outcome σ β ω) :
    (outcome.prepend out).out = out ++ outcome.out :=
  rfl

@[simp] theorem Outcome.waiting_prepend (out : List ω) (outcome : Outcome σ β ω) :
    (outcome.prepend out).waiting = outcome.waiting :=
  rfl

@[simp] theorem Outcome.prepend_nil (outcome : Outcome σ β ω) : outcome.prepend [] = outcome :=
  rfl

def parseFrom (r : Reader σ β ω) : Nat → σ → List β → Outcome σ β ω
  | 0, phase, input => ⟨[], some (phase, input), []⟩
  | fuel + 1, phase, input =>
    if input.length < r.want phase then ⟨[], some (phase, input), []⟩
    else
      match r.finish phase (input.take (r.want phase)) with
      | .stop out => ⟨out, none, input.drop (r.want phase)⟩
      | .more phase' out => (r.parseFrom fuel phase' (input.drop (r.want phase))).prepend out

def parse (r : Reader σ β ω) (phase : σ) (input : List β) : Outcome σ β ω :=
  r.parseFrom input.length phase input

variable {phase : σ} {input : List β}
variable (r : Reader σ β ω)

theorem parseFrom_enough {fuel : Nat} (enough : input.length ≤ fuel) :
    r.parseFrom fuel phase input = r.parse phase input := by
  -- Both fuels count down together, since every full frame shortens the input.
  have both : ∀ (n : Nat) (phase : σ) (input : List β) (first second : Nat),
      input.length ≤ n → input.length ≤ first → input.length ≤ second →
        r.parseFrom first phase input = r.parseFrom second phase input := by
    intro n
    induction n with
    | zero =>
      intro phase input first second short _ _
      have empty : input = [] := List.length_eq_zero_iff.mp (by omega)
      subst empty
      have wanted := r.positive phase
      cases first <;> cases second <;> simp [parseFrom, wanted]
    | succ n ih =>
      intro phase input first second short enough enough'
      have wanted := r.positive phase
      by_cases full : input.length < r.want phase
      · cases first <;> cases second <;> simp [parseFrom, full]
      · obtain ⟨first, rfl⟩ : ∃ k, first = k + 1 := ⟨first - 1, by omega⟩
        obtain ⟨second, rfl⟩ : ∃ k, second = k + 1 := ⟨second - 1, by omega⟩
        simp only [parseFrom, full, ↓reduceIte]
        cases r.finish phase (input.take (r.want phase)) with
        | stop out => rfl
        | more phase' out =>
          have shorter : (input.drop (r.want phase)).length = input.length - r.want phase :=
            List.length_drop
          simp only
          rw [ih phase' _ first second (by omega) (by omega) (by omega)]
  exact both input.length phase input fuel input.length (Nat.le_refl _) enough (Nat.le_refl _)

theorem parse_short (short : input.length < r.want phase) :
    r.parse phase input = ⟨[], some (phase, input), []⟩ := by
  unfold parse
  cases input.length <;> simp [parseFrom, short]

theorem parse_nil (phase : σ) : r.parse phase [] = ⟨[], some (phase, []), []⟩ :=
  r.parse_short (r.positive phase)

variable {out : List ω}

theorem parse_stop {frame : List β} (full : frame.length = r.want phase)
    (stopped : r.finish phase frame = .stop out) (rest : List β) :
    r.parse phase (frame ++ rest) = ⟨out, none, rest⟩ := by
  have wanted := r.positive phase
  obtain ⟨n, size⟩ : ∃ n, (frame ++ rest).length = n + 1 :=
    ⟨(frame ++ rest).length - 1, by simp only [List.length_append]; omega⟩
  rw [parse, size, parseFrom, if_neg (by simp only [List.length_append]; omega),
    List.take_append_of_le_length (by omega), List.drop_append_of_le_length (by omega),
    ← full, List.take_length, List.drop_length, stopped]
  rfl

theorem parse_more {phase' : σ} {frame : List β} (full : frame.length = r.want phase)
    (went : r.finish phase frame = .more phase' out) (rest : List β) :
    r.parse phase (frame ++ rest) = (r.parse phase' rest).prepend out := by
  have wanted := r.positive phase
  obtain ⟨n, size⟩ : ∃ n, (frame ++ rest).length = n + 1 :=
    ⟨(frame ++ rest).length - 1, by simp only [List.length_append]; omega⟩
  have fuel : rest.length ≤ n := by
    simp only [List.length_append] at size
    omega
  rw [parse, size, parseFrom, if_neg (by simp only [List.length_append]; omega),
    List.take_append_of_le_length (by omega), List.drop_append_of_le_length (by omega),
    ← full, List.take_length, List.drop_length, went]
  simp only [List.nil_append]
  rw [r.parseFrom_enough fuel]

def settle (r : Reader σ β ω) (rest : List β) : Verdict σ ω → Outcome σ β ω
  | .stop out => ⟨out, none, rest⟩
  | .more phase out => (r.parse phase rest).prepend out

@[simp] theorem settle_stop (rest : List β) (out : List ω) :
    r.settle rest (.stop out) = ⟨out, none, rest⟩ :=
  rfl

@[simp] theorem settle_more (rest : List β) (phase : σ) (out : List ω) :
    r.settle rest (.more phase out) = (r.parse phase rest).prepend out :=
  rfl

theorem parse_eq (phase : σ) (input : List β) :
    r.parse phase input =
      if input.length < r.want phase then ⟨[], some (phase, input), []⟩
      else r.settle (input.drop (r.want phase)) (r.finish phase (input.take (r.want phase))) := by
  by_cases short : input.length < r.want phase
  · rw [if_pos short, r.parse_short short]
  · have full : (input.take (r.want phase)).length = r.want phase := by
      rw [List.length_take]
      omega
    rw [if_neg short]
    cases decided : r.finish phase (input.take (r.want phase)) with
    | stop out => simpa [settle] using r.parse_stop full decided (input.drop (r.want phase))
    | more phase' out =>
      simpa [settle] using r.parse_more full decided (input.drop (r.want phase))

def Outcome.resume (r : Reader σ β ω) (outcome : Outcome σ β ω) (rest : List β) : Outcome σ β ω :=
  match outcome.waiting with
  | none => { outcome with unread := outcome.unread ++ rest }
  | some (phase, got) => (r.parse phase (got ++ rest)).prepend outcome.out

theorem Outcome.resume_stopped {outcome : Outcome σ β ω} (rest : List β)
    (stopped : outcome.waiting = none) :
    (outcome.resume r rest).waiting = none ∧ (outcome.resume r rest).out = outcome.out := by
  rw [resume, stopped]
  exact ⟨rfl, rfl⟩

theorem Outcome.prepend_resume (out : List ω) (outcome : Outcome σ β ω) (rest : List β) :
    (outcome.prepend out).resume r rest = (outcome.resume r rest).prepend out := by
  obtain ⟨delivered, waiting, unread⟩ := outcome
  cases waiting with
  | none => rfl
  | some pending => simp [resume, prepend]

theorem parse_append (phase : σ) (left right : List β) :
    r.parse phase (left ++ right) = (r.parse phase left).resume r right := by
  -- The induction is on the first part, frame by frame.
  induction size : left.length using Nat.strongRecOn generalizing phase left with
  | ind n ih =>
    by_cases short : left.length < r.want phase
    · rw [r.parse_short short]
      simp [Outcome.resume, Outcome.prepend]
    · have full : (left.take (r.want phase)).length = r.want phase := by
        rw [List.length_take]
        omega
      have split : left.take (r.want phase) ++ left.drop (r.want phase) = left :=
        List.take_append_drop _ _
      have wanted := r.positive phase
      cases decided : r.finish phase (left.take (r.want phase)) with
      | stop out =>
        rw [← split, List.append_assoc, r.parse_stop full decided, r.parse_stop full decided]
        rfl
      | more phase' out =>
        have shorter : (left.drop (r.want phase)).length < n := by
          rw [List.length_drop]
          omega
        rw [← split, List.append_assoc, r.parse_more full decided, r.parse_more full decided,
          ih _ shorter phase' _ rfl, Outcome.prepend_resume]

variable {start : σ}

theorem parse_append_of_waiting {got : List β}
    (waiting : r.parse start input = ⟨out, some (phase, got), []⟩) (rest : List β) :
    r.parse start (input ++ rest) = (r.parse phase (got ++ rest)).prepend out := by
  rw [r.parse_append, waiting]
  rfl

theorem parse_append_of_stopped {unread : List β}
    (stopped : r.parse start input = ⟨out, none, unread⟩) (rest : List β) :
    r.parse start (input ++ rest) = ⟨out, none, unread ++ rest⟩ := by
  rw [r.parse_append, stopped]
  rfl

variable {left : List β}

theorem parse_out_prefix (phase : σ) (part : left <+: input) :
    (r.parse phase left).out <+: (r.parse phase input).out := by
  obtain ⟨right, rfl⟩ := part
  rw [r.parse_append, Outcome.resume]
  cases (r.parse phase left).waiting with
  | none => exact List.prefix_rfl
  | some pending => exact List.prefix_append _ _

theorem parse_of_stopped_part (phase : σ) (part : left <+: input)
    (stopped : (r.parse phase left).waiting = none) :
    (r.parse phase input).waiting = none ∧
      (r.parse phase input).out = (r.parse phase left).out := by
  obtain ⟨right, rfl⟩ := part
  rw [r.parse_append]
  exact Outcome.resume_stopped r right stopped

theorem length_frame (long : r.want phase ≤ input.length) :
    (input.take (r.want phase)).length = r.want phase ∧
      (input.drop (r.want phase)).length < input.length := by
  have wanted := r.positive phase
  rw [List.length_take, List.length_drop]
  omega

theorem unread_of_waiting {pending : σ × List β}
    (waiting : (r.parse phase input).waiting = some pending) :
    (r.parse phase input).unread = [] := by
  -- The induction is on the input, frame by frame.
  induction size : input.length using Nat.strongRecOn generalizing phase input with
  | ind n ih =>
    by_cases short : input.length < r.want phase
    · rw [r.parse_short short]
    · obtain ⟨full, shorter⟩ := r.length_frame (Nat.not_lt.mp short)
      rw [size] at shorter
      rw [← List.take_append_drop (r.want phase) input] at waiting ⊢
      cases decided : r.finish phase (input.take (r.want phase)) with
      | stop out =>
        rw [r.parse_stop full decided] at waiting
        cases waiting
      | more phase' out =>
        rw [r.parse_more full decided] at waiting ⊢
        exact ih _ shorter waiting rfl

theorem parse_of_prefix {got : List β}
    (waiting : r.parse start input = ⟨out, some (phase, got), []⟩) (part : left <+: input) :
    ∃ out' phase' got', r.parse start left = ⟨out', some (phase', got'), []⟩ ∧ out' <+: out := by
  obtain ⟨right, split⟩ := part
  subst split
  rw [r.parse_append] at waiting
  cases pending : (r.parse start left).waiting with
  | none =>
    have stopped := congrArg Outcome.waiting waiting
    simp [Outcome.resume, pending] at stopped
  | some frame =>
    obtain ⟨phase', got'⟩ := frame
    refine ⟨(r.parse start left).out, phase', got', ?_, ?_⟩
    · rw [← pending, ← r.unread_of_waiting pending]
    · simp only [Outcome.resume, pending, Outcome.prepend, Outcome.mk.injEq] at waiting
      rw [← waiting.1]
      exact List.prefix_append _ _

theorem parse_all (occurs : σ → Prop) {sound : ω → Prop}
    (stops : ∀ phase frame out, occurs phase → frame.length = r.want phase →
      r.finish phase frame = .stop out → ∀ result ∈ out, sound result)
    (goes : ∀ phase frame phase' out, occurs phase → frame.length = r.want phase →
      r.finish phase frame = .more phase' out → occurs phase' ∧ ∀ result ∈ out, sound result)
    (begun : occurs phase) (input : List β) :
    ∀ result ∈ (r.parse phase input).out, sound result := by
  -- The induction is on the input, frame by frame.
  induction size : input.length using Nat.strongRecOn generalizing phase input with
  | ind n ih =>
    by_cases short : input.length < r.want phase
    · rw [r.parse_short short]
      simp
    · obtain ⟨full, shorter⟩ := r.length_frame (Nat.not_lt.mp short)
      rw [size] at shorter
      rw [← List.take_append_drop (r.want phase) input]
      cases decided : r.finish phase (input.take (r.want phase)) with
      | stop out =>
        rw [r.parse_stop full decided]
        exact stops phase _ out begun full decided
      | more phase' out =>
        obtain ⟨later, delivered⟩ := goes phase _ phase' out begun full decided
        rw [r.parse_more full decided]
        intro result member
        rcases List.mem_append.mp member with now | then'
        · exact delivered result now
        · exact ih _ shorter later _ rfl result then'

/-- In reading an input, the reader comes to a phase with some of it left. -/
inductive Visits (r : Reader σ β ω) : σ → List β → σ → List β → Prop where
  | here (phase : σ) (input : List β) : Visits r phase input phase input
  -- Behind a full frame.
  | more {phase phase' later : σ} {frame rest left : List β} {out : List ω}
      (full : frame.length = r.want phase) (went : r.finish phase frame = .more phase' out)
      (then' : Visits r phase' rest later left) : Visits r phase (frame ++ rest) later left

end Reader
