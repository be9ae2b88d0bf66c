import Xios.App.ConnectionLaws
import Xios.Surface.Release

/-! What was written to a connection, as its receiver reads it. -/

namespace Xios

def Sent.bytes : Sent → List UInt8
  | .record m payload => m.encode ++ payload
  | .torn bytes => bytes

def wire (log : List Sent) : List UInt8 :=
  log.reverse.flatMap Sent.bytes

theorem wire_cons (x : Sent) (log : List Sent) : wire (x :: log) = wire log ++ x.bytes := by
  simp [wire]

def lastShown : List Sent → BitVec 32
  | [] => primarySurfaceId
  | .record m _ :: earlier => if m.type = msgDirty then m.windowId else lastShown earlier
  | .torn _ :: earlier => lastShown earlier

/-- The receiver of a connection is still waiting for something at its end. -/
def Readable (geometry : Nat → SurfaceGeometry) (outputs : Nat) (log : List Sent)
    (ports : List Nat) : Prop :=
  ∃ introduced pending, (streamReader outputs).parse (.header .opening) (wire log) =
      ⟨introduced, some pending, []⟩ ∧
    AppStream.Paired geometry introduced ports.reverse

/-- The receiver of a connection has been told what the view says, in whole records. -/
def Tells (geometry : Nat → SurfaceGeometry) (outputs : Nat) (log : List Sent)
    (ports : List Nat) (v : StreamView) : Prop :=
  ∃ introduced, (streamReader outputs).parse (.header .opening) (wire log) =
      ⟨introduced, some (.header v, []), []⟩ ∧
    List.Forall₂ (fun m surface => XSurfaceConn.wireGeometry m = geometry surface) introduced
      ports.reverse

section

variable {geometry : Nat → SurfaceGeometry} {outputs : Nat} {log : List Sent} {ports : List Nat}
  {v v' : StreamView} {m : XiosMsg} {payload : List UInt8}

theorem tells_nil (geometry : Nat → SurfaceGeometry) (outputs : Nat) :
    Tells geometry outputs [] [] .opening :=
  ⟨[], Reader.parse_nil _ _, .nil⟩

theorem Tells.readable (tells : Tells geometry outputs log ports v) :
    Readable geometry outputs log ports := by
  obtain ⟨introduced, parsed, fits⟩ := tells
  exact ⟨introduced, _, parsed, ports.reverse, List.prefix_refl _, fits⟩

theorem Readable.port (readable : Readable geometry outputs log ports) (surface : Nat) :
    Readable geometry outputs log (surface :: ports) := by
  obtain ⟨introduced, pending, parsed, used, part, fits⟩ := readable
  refine ⟨introduced, pending, parsed, used, part.trans ?_, fits⟩
  rw [List.reverse_cons]
  exact List.prefix_append _ _

theorem Tells.record (tells : Tells geometry outputs log ports v)
    (accepts : v.Accepts outputs m payload [] v') :
    Tells geometry outputs (.record m payload :: log) ports v' := by
  obtain ⟨introduced, parsed, fits⟩ := tells
  refine ⟨introduced, ?_, fits⟩
  rw [wire_cons, Reader.parse_append_of_waiting _ parsed, List.nil_append]
  have taken : (streamReader outputs).parse (.header v) (Sent.record m payload).bytes = _ := accepts
  rw [taken]
  simp [Reader.Outcome.prepend]

theorem Tells.introduce (tells : Tells geometry outputs log ports v)
    (introduces : v.Introduces outputs m) {surface : Nat}
    (matching : XSurfaceConn.wireGeometry m = geometry surface) :
    Tells geometry outputs (.record m [] :: log) (surface :: ports)
      { v with held := insert m.windowId v.held } := by
  obtain ⟨introduced, parsed, fits⟩ := tells
  refine ⟨introduced ++ [m], ?_, ?_⟩
  · rw [wire_cons, Reader.parse_append_of_waiting _ parsed, List.nil_append]
    have taken : (streamReader outputs).parse (.header v) (Sent.record m []).bytes = _ :=
      introduces.accepts
    rw [taken]
    rfl
  · rw [List.reverse_cons]
    exact List.rel_append fits (.cons matching .nil)

theorem Tells.torn (tells : Tells geometry outputs log ports v)
    (acceptable : payload = [] ∨ ∃ v', v.Accepts outputs m payload [] v') (written : Nat) :
    Readable geometry outputs (.torn ((m.encode ++ payload).dropLast.take written) :: log)
      ports := by
  obtain ⟨introduced, parsed, fits⟩ := tells
  obtain ⟨phase, got, waits⟩ := StreamView.waits_of_torn acceptable written
  refine ⟨introduced, (phase, got), ?_, ports.reverse, List.prefix_refl _, fits⟩
  rw [wire_cons, Reader.parse_append_of_waiting _ parsed, List.nil_append]
  have taken : (streamReader outputs).parse (.header v)
    (Sent.torn ((m.encode ++ payload).dropLast.take written)).bytes = _ := waits
  rw [taken]
  simp [Reader.Outcome.prepend]

end

namespace SurfaceServer

def heldBy (s : SurfaceServer) (i : Fin maxClients) : Finset (BitVec 32) :=
  ((List.finRange maxStreamSurfaces).filterMap fun k =>
    (s.streams k).bind fun e => if Mask.has e.sentClients i then some e.id else none).toFinset

def viewOf (s : SurfaceServer) (i : Fin maxClients) (c : AppClient) : StreamView :=
  { held := s.heldBy i, current := lastShown (s.log c.conn) }

theorem mem_heldBy {s : SurfaceServer} {i : Fin maxClients} {id : BitVec 32} :
    id ∈ s.heldBy i ↔
      ∃ k e, s.streams k = some e ∧ Mask.has e.sentClients i = true ∧ e.id = id := by
  simp only [heldBy, List.mem_toFinset, List.mem_filterMap, List.mem_finRange, true_and,
    Option.bind_eq_some_iff, Option.ite_none_right_eq_some, Option.some.injEq]

theorem heldBy_congr {s s' : SurfaceServer} {i : Fin maxClients}
    (same : ∀ id, (∃ k e, s'.streams k = some e ∧ Mask.has e.sentClients i = true ∧ e.id = id) ↔
      ∃ k e, s.streams k = some e ∧ Mask.has e.sentClients i = true ∧ e.id = id) :
    s'.heldBy i = s.heldBy i := by
  ext id
  rw [mem_heldBy, mem_heldBy, same]

end SurfaceServer

end Xios
