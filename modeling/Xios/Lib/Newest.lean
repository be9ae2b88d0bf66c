import Mathlib.Data.List.Basic

/-! A stream of values of which only the newest that was not handed over yet is kept. -/

namespace Newest

variable {α : Type*}

/--
What has been handed over and what is kept, for the values received so far.

Nothing is handed over out of order or twice, and the last value is either handed over or kept.
-/
structure Kept (received returned : List α) (pending : Option α) : Prop where
  inOrder : (returned ++ pending.toList).Sublist received
  last : (returned ++ pending.toList).getLast? = received.getLast?

theorem kept_nil : Kept ([] : List α) [] none :=
  ⟨List.Sublist.refl _, rfl⟩

variable {received returned : List α} {pending : Option α}

theorem Kept.stash (kept : Kept received returned pending) (v : α) :
    Kept (received ++ [v]) returned (some v) where
  inOrder :=
    ((List.sublist_append_left returned pending.toList).trans kept.inOrder).append (.refl _)
  last := by simp

theorem Kept.handOver (kept : Kept received returned none) (v : α) :
    Kept (received ++ [v]) (returned ++ [v]) none where
  inOrder := by
    have front := kept.inOrder
    rw [Option.toList_none, List.append_nil] at front ⊢
    exact front.append (.refl _)
  last := by simp

theorem Kept.take {v : α} (kept : Kept received returned (some v)) :
    Kept received (returned ++ [v]) none where
  inOrder := by simpa using kept.inOrder
  last := by simpa using kept.last

theorem Kept.sublist (kept : Kept received returned pending) : returned.Sublist received :=
  (List.sublist_append_left returned pending.toList).trans kept.inOrder

theorem Kept.last_returned (kept : Kept received returned none) :
    returned.getLast? = received.getLast? := by
  simpa using kept.last

end Newest
