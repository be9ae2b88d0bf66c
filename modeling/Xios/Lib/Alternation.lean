import Mathlib.Tactic.TypeStar

/-! Logs of things that are entered and left again, newest event first. -/

/-- Something is entered or left. -/
inductive Visit (α : Type*) where
  | enter (a : α)
  | leave (a : α)
  deriving DecidableEq

namespace Visit

variable {α : Type*}

def current : List (Visit α) → Option α
  | .enter a :: _ => some a
  | _ => none

/-- Events alternate, beginning with one that enters, and what is left is what was entered. -/
def Alternates : List (Visit α) → Prop
  | [] => True
  | .enter _ :: log => current log = none ∧ Alternates log
  | .leave a :: log => current log = some a ∧ Alternates log

@[simp]
theorem current_enter (a : α) (log : List (Visit α)) : current (.enter a :: log) = some a :=
  rfl

@[simp]
theorem current_leave (a : α) (log : List (Visit α)) : current (.leave a :: log) = none :=
  rfl

theorem Alternates.enter {log : List (Visit α)} (alternates : Alternates log)
    (free : current log = none) (a : α) : Alternates (.enter a :: log) :=
  ⟨free, alternates⟩

theorem Alternates.leave {log : List (Visit α)} (alternates : Alternates log) {a : α}
    (held : current log = some a) : Alternates (.leave a :: log) :=
  ⟨held, alternates⟩

end Visit
