import Mathlib.Data.List.Basic

/-! Writing to a stream that may take only part of what it is given. -/

/-- What one write returns. -/
inductive WriteResult where
  -- The stream took some bytes, though never more than it was given.
  | took (count : Nat)
  -- A signal interrupted the call.
  | intr
  -- The stream takes nothing at the moment.
  | again
  -- The call failed otherwise.
  | error
  deriving DecidableEq, Repr

/-- How a loop of writes ends. -/
inductive WriteEnd where
  -- Everything was written.
  | done
  -- The stream takes nothing more at the moment.
  | blocked
  -- The stream is broken.
  | failed
  deriving DecidableEq, Repr

/-- A write loop that has ended. -/
structure Written (β : Type*) where
  -- Bytes the stream took.
  put : List β
  -- Bytes it did not take.
  rest : List β
  -- Why the loop ended.
  ended : WriteEnd
  -- Results of the calls that come after the loop.
  plan : List WriteResult

variable {β : Type*}

/--
Write until everything is out, the stream blocks or a call fails.

The plan lists the results of the calls, and the stream blocks when it is used up.
-/
def writeLoop : List β → List WriteResult → Written β
  | [], plan => ⟨[], [], .done, plan⟩
  | bytes, [] => ⟨[], bytes, .blocked, []⟩
  | bytes, .intr :: plan => writeLoop bytes plan
  | bytes, .again :: plan => ⟨[], bytes, .blocked, plan⟩
  | bytes, .error :: plan | bytes, .took 0 :: plan => ⟨[], bytes, .failed, plan⟩
  | bytes, .took (n + 1) :: plan =>
    let later := writeLoop (bytes.drop (n + 1)) plan
    { later with put := bytes.take (n + 1) ++ later.put }

theorem writeLoop_put_append_rest (bytes : List β) (plan : List WriteResult) :
    (writeLoop bytes plan).put ++ (writeLoop bytes plan).rest = bytes := by
  -- The cases are those of the loop, and only one call in the plan takes any bytes.
  fun_induction writeLoop bytes plan with
  | case3 bytes plan _ ih => exact ih
  | case7 bytes n plan _ later ih =>
    show bytes.take (n + 1) ++ later.put ++ later.rest = bytes
    rw [List.append_assoc, ih, List.take_append_drop]
  | _ => rfl

theorem writeLoop_rest_eq_nil (bytes : List β) (plan : List WriteResult) :
    (writeLoop bytes plan).rest = [] ↔ (writeLoop bytes plan).ended = .done := by
  fun_induction writeLoop bytes plan with
  | case1 => simp
  | case3 bytes plan _ ih => exact ih
  | case7 bytes n plan _ later ih => exact ih
  | _ => simp_all

theorem writeLoop_put_begins (bytes : List β) (plan : List WriteResult) :
    (writeLoop bytes plan).put <+: bytes :=
  ⟨_, writeLoop_put_append_rest bytes plan⟩

theorem writeLoop_ended_congr (first second : List β) (plan : List WriteResult)
    (same : first.length = second.length) :
    (writeLoop first plan).ended = (writeLoop second plan).ended := by
  induction plan generalizing first second with
  | nil => cases first <;> cases second <;> simp_all [writeLoop]
  | cons result plan ih =>
    cases first with
    | nil =>
      cases second with
      | nil => rfl
      | cons => cases same
    | cons a first =>
      cases second with
      | nil => cases same
      | cons b second =>
        -- Both have something left, so the same call is made on both.
        rcases result with ⟨_ | n⟩ | _ | _ | _
        · rfl
        · exact ih _ _ (by simpa using congrArg (· - n) (Nat.succ.inj same))
        · exact ih _ _ same
        · rfl
        · rfl
