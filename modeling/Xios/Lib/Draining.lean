import Xios.Lib.Framing

/-! Receivers that are woken up to read what has arrived, and keep what they have of a frame. -/

/-- What one read returns. -/
inductive ReadResult where
  -- Some bytes have come, and whatever a full frame needs can be had or not.
  | took (count : Nat) (served : Bool)
  -- A signal interrupted the call.
  | intr
  -- Nothing has arrived.
  | again
  -- The stream has ended or is broken.
  | closed
  deriving DecidableEq

/-- A full frame got what it needs. -/
def ReadResult.Served : ReadResult → Prop
  | took _ served => served = true
  | _ => True

instance : DecidablePred ReadResult.Served
  | .took _ served => inferInstanceAs (Decidable (served = true))
  | .intr | .again | .closed => .isTrue trivial

namespace Reader

variable {σ β ω : Type*}

/-- What a receiver leaves behind. -/
structure Drained (σ β ω : Type*) where
  -- Everything delivered, in order.
  out : List ω
  -- What is waited for and what there is of it, unless the stream was given up.
  waiting : Option (σ × List β)
  -- Input that was not read.
  rest : List β

/-- Results delivered before those of a receiver. -/
def Drained.prepend (out : List ω) (d : Drained σ β ω) : Drained σ β ω :=
  { d with out := out ++ d.out }

/--
Read until nothing more has arrived or, if only one result is wanted, until there is one.

The plan lists the results of the calls, and nothing more arrives when it is used up.
-/
def drain (r : Reader σ β ω) (once : Bool) :
    List ReadResult → σ → List β → List β → Drained σ β ω
  | [], phase, got, input | .again :: _, phase, got, input => ⟨[], some (phase, got), input⟩
  | .intr :: plan, phase, got, input => r.drain once plan phase got input
  | .closed :: _, _, _, input => ⟨[], none, input⟩
  | .took n served :: plan, phase, got, input =>
    -- No call returns more than it was asked for.
    let count := min (n + 1) (r.want phase - got.length)
    let got := got ++ input.take count
    if got.length < r.want phase then r.drain once plan phase got (input.drop count)
    else if served = false then ⟨[], none, input.drop count⟩
    else
      match r.finish phase got with
      | .stop out => ⟨out, none, input.drop count⟩
      | .more phase' out =>
        if once && !out.isEmpty then ⟨out, some (phase', []), input.drop count⟩
        else (r.drain once plan phase' [] (input.drop count)).prepend out

/-- A receiver delivers what reading its input in one piece does. -/
structure Delivers (r : Reader σ β ω) (plan : List ReadResult) (phase : σ) (got input : List β)
    (d : Drained σ β ω) (taken : List β) : Prop where
  whole : taken ++ d.rest = input
  -- A receiver that goes on has read as far as the reader has.
  open_ : ∀ phase' got', d.waiting = some (phase', got') → got'.length < r.want phase' ∧
    r.parse phase (got ++ taken) = ⟨d.out, some (phase', got'), []⟩
  -- Nothing else is delivered, and nothing is missing unless a frame did not get what it needs.
  begins : d.out <+: (r.parse phase (got ++ taken)).out
  equal : (∀ result ∈ plan, result.Served) → d.out = (r.parse phase (got ++ taken)).out
  -- The stream is given up if it ends, or if the reader stops.
  stops : (∀ result ∈ plan, result.Served ∧ result ≠ .closed) → d.waiting = none →
    (r.parse phase (got ++ taken)).waiting = none

variable {r : Reader σ β ω} {plan : List ReadResult} {phase : σ} {got input taken : List β}
  {d : Drained σ β ω}

theorem Delivers.mono {plan' : List ReadResult} (more : plan ⊆ plan')
    (delivers : Delivers r plan phase got input d taken) :
    Delivers r plan' phase got input d taken where
  whole := delivers.whole
  open_ := delivers.open_
  begins := delivers.begins
  equal served := delivers.equal fun result member => served result (more member)
  stops fine := delivers.stops fun result member => fine result (more member)

theorem Delivers.after {phase' : σ} {got' front : List β} {out : List ω}
    (parsed : r.parse phase (got ++ (front ++ taken)) =
      (r.parse phase' (got' ++ taken)).prepend out)
    (delivers : Delivers r plan phase' got' input d taken) :
    Delivers r plan phase got (front ++ input) (d.prepend out) (front ++ taken) := by
  constructor
  · rw [List.append_assoc]
    exact congrArg _ delivers.whole
  · intro later got'' same
    obtain ⟨short, known⟩ := delivers.open_ later got'' same
    rw [parsed, known]
    exact ⟨short, rfl⟩
  · rw [parsed]
    exact (List.prefix_append_right_inj out).mpr delivers.begins
  · intro served
    rw [parsed]
    exact congrArg (out ++ ·) (delivers.equal served)
  · intro fine gone
    rw [parsed]
    exact delivers.stops fine gone

end Reader
