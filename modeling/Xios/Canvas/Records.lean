import Xios.Canvas.Server

/-! What a host was sent, in order: windows are announced first, and frames follow canvases. -/

namespace Xios

def introduced (id : BitVec 32) : List HostSent → Bool
  | [] => false
  | .record m _ _ :: earlier =>
    if m.windowId = id ∧ m.type = msgWindowNew then true
    else if m.windowId = id ∧ m.type = msgWindowGone then false
    else introduced id earlier
  | .port _ _ :: earlier | .torn _ :: earlier => introduced id earlier

def lastPort (id : BitVec 32) : List HostSent → Option Canvas
  | [] => none
  | .port windowId canvas :: earlier => if windowId = id then some canvas else lastPort id earlier
  | .record _ _ _ :: earlier | .torn _ :: earlier => lastPort id earlier

/-- A record is about a window the host knows, and a frame is of the canvas the host has. -/
def HostSent.Follows (earlier : List HostSent) : HostSent → Prop
  | .record m _ fence =>
    (m.type = msgWindowTitle ∨ m.type = msgWindowGeom ∨ m.type = msgNativeFrame →
      introduced m.windowId earlier = true) ∧
    (m.type = msgNativeFrame →
      ∃ canvas, fence = some canvas ∧ lastPort m.windowId earlier = some canvas)
  | _ => True

theorem HostSent.Follows.of_type {m : XiosMsg} {payload : List UInt8} {fence : Option Canvas}
    {earlier : List HostSent} (type : m.type ∈ [msgHello, msgWindowNew, msgWindowGone]) :
    (HostSent.record m payload fence).Follows earlier := by
  have other : ¬(m.type = msgWindowTitle ∨ m.type = msgWindowGeom ∨ m.type = msgNativeFrame) := by
    simp only [List.mem_cons, List.not_mem_nil, or_false] at type
    rcases type with type | type | type <;> rw [type] <;> decide
  exact ⟨fun about => absurd about other, fun frame => absurd (.inr (.inr frame)) other⟩

/-- Everything a host was sent follows what it was sent before. -/
def HostSent.InOrder (log : List HostSent) : Prop :=
  ∀ item earlier, item :: earlier <:+ log → item.Follows earlier

theorem HostSent.InOrder.cons {log : List HostSent} (ordered : HostSent.InOrder log)
    {item : HostSent} (follows : item.Follows log) : HostSent.InOrder (item :: log) := by
  intro other earlier suffix
  rcases List.suffix_cons_iff.mp suffix with same | before
  · obtain ⟨rfl, rfl⟩ := List.cons.inj same
    exact follows
  · exact ordered other earlier before

/-- What may be added to what a host was sent by writing a record. -/
inductive Written (m : XiosMsg) (payload : List UInt8) (fence : Option Canvas) :
    List HostSent → List HostSent → Prop where
  | nothing (log : List HostSent) : Written m payload fence log log
  | whole (log : List HostSent) : Written m payload fence log (.record m payload fence :: log)
  -- Only its beginning was.
  | part (log : List HostSent) (bytes : List UInt8) :
    Written m payload fence log (.torn bytes :: log)

namespace Written

variable {m : XiosMsg} {payload : List UInt8} {fence : Option Canvas} {log log' : List HostSent}

theorem introduced {id : BitVec 32} (written : Written m payload fence log log')
    (stays : m.windowId = id → m.type ≠ msgWindowGone) (known : introduced id log = true) :
    Xios.introduced id log' = true := by
  cases written with
  | nothing => exact known
  | whole =>
    rw [Xios.introduced]
    split
    · rfl
    · rw [if_neg fun gone => stays gone.1 gone.2]
      exact known
  | part => exact known

theorem lastPort (written : Written m payload fence log log') (id : BitVec 32) :
    lastPort id log' = Xios.lastPort id log := by
  cases written <;> rfl

theorem inOrder (written : Written m payload fence log log') (ordered : HostSent.InOrder log)
    (follows : (HostSent.record m payload fence).Follows log) : HostSent.InOrder log' := by
  cases written with
  | nothing => exact ordered
  | whole => exact ordered.cons follows
  | part => exact ordered.cons trivial

end Written

instance decidableFollows (earlier : List HostSent) :
    ∀ item : HostSent, Decidable (item.Follows earlier)
  | .record m _ fence =>
    decidable_of_iff
      ((m.type = msgWindowTitle ∨ m.type = msgWindowGeom ∨ m.type = msgNativeFrame →
        introduced m.windowId earlier = true) ∧
      (m.type = msgNativeFrame → fence.isSome = true ∧ lastPort m.windowId earlier = fence)) (by
        refine and_congr_right fun _ => imp_congr_right fun _ => ?_
        cases fence <;> simp)
  | .port _ _ | .torn _ => .isTrue trivial

instance HostSent.decidableInOrder : ∀ log : List HostSent, Decidable (HostSent.InOrder log)
  | [] => .isTrue fun _ _ suffix => absurd (List.eq_nil_of_suffix_nil suffix) (List.cons_ne_nil _ _)
  | item :: earlier =>
    have := HostSent.decidableInOrder earlier
    decidable_of_iff (item.Follows earlier ∧ HostSent.InOrder earlier)
      ⟨fun both => both.2.cons both.1, fun ordered =>
        ⟨ordered item earlier List.suffix_rfl, fun other rest before =>
          ordered other rest (before.trans (List.suffix_cons _ _))⟩⟩

end Xios
