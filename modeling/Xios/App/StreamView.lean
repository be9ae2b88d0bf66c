import Mathlib.Data.Finset.Card
import Xios.App.Connection
import Xios.Lib.Framing

/-! What the records of a presentation stream mean to its receiver. -/

namespace Xios

def isOutput (outputs : Nat) (id : BitVec 32) : Bool :=
  (List.range outputs).any fun i => primarySurfaceId + BitVec.ofNat 32 i = id

/-- What the receiver of a stream has been told. -/
structure StreamView where
  -- Client surfaces that were introduced and not taken back.
  held : Finset (BitVec 32)
  -- The surface on display.
  current : BitVec 32
  deriving DecidableEq

namespace StreamView

/-- A client surface is on display although it was taken back. -/
def Retains (v : StreamView) : Prop :=
  dynamicSurfaceIdBase ≤ v.current ∧ v.current ∉ v.held
  deriving Decidable

def kept (outputs : Nat) (v : StreamView) : Nat :=
  outputs + v.held.card + if v.Retains then 1 else 0

/-- The receiver can tell a further client surface from others, and has room for it. -/
def Room (outputs : Nat) (v : StreamView) (id : BitVec 32) : Prop :=
  id ∉ v.held ∧ id ≠ v.current ∧ v.kept outputs < xsurfaceMaxSurfaces
  deriving Decidable

/-- A record announces a frame of a surface that the receiver knows. -/
def Announces (outputs : Nat) (v : StreamView) (m : XiosMsg) : Prop :=
  m.magic = msgMagic ∧ m.type = msgDirty ∧
    (isOutput outputs m.windowId = true ∨ m.windowId ∈ v.held) ∧
    m.length = BitVec.ofNat 32 gpuFenceTokenSize ∧ (m.d ++ m.c : BitVec 64) ≠ 0#64
  deriving Decidable

/-- A record introduces a client surface that the receiver can take in. -/
def Introduces (outputs : Nat) (v : StreamView) (m : XiosMsg) : Prop :=
  m.magic = msgMagic ∧ m.type = msgSurface ∧ dynamicSurfaceIdBase ≤ m.windowId ∧
    m.length = 0#32 ∧ 0 < m.a.toInt ∧ 0 < m.b.toInt ∧ 0 < m.c.toInt ∧
    m.d &&& ~~~surfaceFlagFlipY = 0#32 ∧ v.Room outputs m.windowId
  deriving Decidable

/-- A record takes back a client surface that the receiver knows. -/
def TakesBack (v : StreamView) (m : XiosMsg) : Prop :=
  m.magic = msgMagic ∧ m.type = msgSurfaceDrop ∧ m.length = 0#32 ∧ m.windowId ∈ v.held
  deriving Decidable

end StreamView

/-- A record is about the pointer and has no payload. -/
def XiosMsg.Points (m : XiosMsg) : Prop :=
  m.magic = msgMagic ∧ (m.type = msgCursor ∨ m.type = msgCursorImage) ∧ m.length = 0#32
  deriving Decidable

/-- A record is followed by the pixels of the pointer. -/
def XiosMsg.Draws (m : XiosMsg) : Prop :=
  m.magic = msgMagic ∧ m.type = msgCursorImage ∧ 0 < m.a.toInt ∧ 0 < m.b.toInt ∧
    m.a.toInt ≤ cursorImageMax ∧ m.b.toInt ≤ cursorImageMax ∧ m.length = m.a * m.b * 4#32 ∧
    0 < m.length.toNat
  deriving Decidable

/-- What the receiver of a stream expects next. -/
inductive StreamPhase where
  | header (v : StreamView)
  | token (v : StreamView) (m : XiosMsg)
  | pixels (v : StreamView) (m : XiosMsg) (valid : m.Draws)

def streamReader (outputs : Nat) : Reader StreamPhase UInt8 XiosMsg where
  want
    | .header _ => msgSize
    | .token _ _ => gpuFenceTokenSize
    | .pixels _ m _ => m.length.toNat
  positive
    | .header _ | .token _ _ => Nat.succ_pos _
    | .pixels _ _ valid => valid.2.2.2.2.2.2.2
  finish
    | .header v, bytes =>
      let m := XiosMsg.decode bytes
      if v.Announces outputs m then .more (.token v m) []
      else if v.Introduces outputs m then
        .more (.header { v with held := insert m.windowId v.held }) [m]
      else if v.TakesBack m then .more (.header { v with held := v.held.erase m.windowId }) []
      else if m.Points then .more (.header v) []
      else if valid : m.Draws then .more (.pixels v m valid) []
      else .stop []
    | .token v m, _ => .more (.header { v with current := m.windowId }) []
    | .pixels v _ _, _ => .more (.header v) []

def StreamView.opening : StreamView :=
  { held := ∅, current := primarySurfaceId }

namespace StreamView

/-- The receiver takes in a whole record, which introduces some surfaces. -/
def Accepts (outputs : Nat) (v : StreamView) (m : XiosMsg) (payload : List UInt8)
    (out : List XiosMsg) (v' : StreamView) : Prop :=
  (streamReader outputs).parse (.header v) (m.encode ++ payload) =
    ⟨out, some (.header v', []), []⟩

variable {outputs : Nat} {v : StreamView} {m : XiosMsg}

theorem Introduces.not_announces (introduces : v.Introduces outputs m) :
    ¬v.Announces outputs m := by
  intro announces
  exact absurd (introduces.2.1.symm.trans announces.2.1) (by decide)

theorem Introduces.accepts (introduces : v.Introduces outputs m) :
    v.Accepts outputs m [] [m] { v with held := insert m.windowId v.held } := by
  have full : m.encode.length = (streamReader outputs).want (.header v) := m.length_encode
  have went : (streamReader outputs).finish (.header v) m.encode =
      .more (.header { v with held := insert m.windowId v.held }) [m] := by
    simp [streamReader, introduces, introduces.not_announces]
  unfold Accepts
  rw [Reader.parse_more _ full went, Reader.parse_nil]
  rfl

theorem TakesBack.accepts (takes : v.TakesBack m) (outputs : Nat) :
    v.Accepts outputs m [] [] { v with held := v.held.erase m.windowId } := by
  have full : m.encode.length = (streamReader outputs).want (.header v) := m.length_encode
  have unannounced : ¬v.Announces outputs m := fun announces =>
    absurd (takes.2.1.symm.trans announces.2.1) (by decide)
  have unintroduced : ¬v.Introduces outputs m := fun introduces =>
    absurd (takes.2.1.symm.trans introduces.2.1) (by decide)
  have went : (streamReader outputs).finish (.header v) m.encode =
      .more (.header { v with held := v.held.erase m.windowId }) [] := by
    simp [streamReader, takes, unannounced, unintroduced]
  unfold Accepts
  rw [Reader.parse_more _ full went, Reader.parse_nil]
  rfl

theorem Announces.accepts (announces : v.Announces outputs m) {token : List UInt8}
    (size : token.length = gpuFenceTokenSize) :
    v.Accepts outputs m token [] { v with current := m.windowId } := by
  have full : m.encode.length = (streamReader outputs).want (.header v) := m.length_encode
  have went : (streamReader outputs).finish (.header v) m.encode = .more (.token v m) [] := by
    simp [streamReader, announces]
  have full' : token.length = (streamReader outputs).want (.token v m) := size
  have went' : (streamReader outputs).finish (.token v m) token =
      .more (.header { v with current := m.windowId }) [] := rfl
  unfold Accepts
  rw [Reader.parse_more _ full went, ← List.append_nil token, Reader.parse_more _ full' went',
    Reader.parse_nil]
  rfl

theorem not_surface_of_pointer (outputs : Nat) (v : StreamView)
    (pointer : m.type = msgCursor ∨ m.type = msgCursorImage) :
    ¬v.Announces outputs m ∧ ¬v.Introduces outputs m ∧ ¬v.TakesBack m := by
  refine ⟨fun announces => ?_, fun introduces => ?_, fun takes => ?_⟩
  · have type := announces.2.1
    rcases pointer with same | same <;> exact absurd (same.symm.trans type) (by decide)
  · have type := introduces.2.1
    rcases pointer with same | same <;> exact absurd (same.symm.trans type) (by decide)
  · have type := takes.2.1
    rcases pointer with same | same <;> exact absurd (same.symm.trans type) (by decide)

theorem accepts_of_points (points : m.Points) (outputs : Nat) (v : StreamView) :
    v.Accepts outputs m [] [] v := by
  have full : m.encode.length = (streamReader outputs).want (.header v) := m.length_encode
  obtain ⟨unannounced, unintroduced, kept⟩ := not_surface_of_pointer outputs v points.2.1
  have went : (streamReader outputs).finish (.header v) m.encode = .more (.header v) [] := by
    simp [streamReader, points, unannounced, unintroduced, kept]
  unfold Accepts
  rw [Reader.parse_more _ full went, Reader.parse_nil]
  rfl

theorem accepts_of_draws (draws : m.Draws) (outputs : Nat) (v : StreamView) {pixels : List UInt8}
    (size : pixels.length = m.length.toNat) : v.Accepts outputs m pixels [] v := by
  have full : m.encode.length = (streamReader outputs).want (.header v) := m.length_encode
  obtain ⟨unannounced, unintroduced, kept⟩ := not_surface_of_pointer outputs v (.inr draws.2.1)
  have still : ¬m.Points := fun points => by
    have positive := draws.2.2.2.2.2.2.2
    rw [points.2.2] at positive
    exact absurd positive (by decide)
  have went : (streamReader outputs).finish (.header v) m.encode = .more (.pixels v m draws) [] := by
    simp [streamReader, unannounced, unintroduced, kept, still, draws]
  have full' : pixels.length = (streamReader outputs).want (.pixels v m draws) := size
  have went' : (streamReader outputs).finish (.pixels v m draws) pixels = .more (.header v) [] :=
    rfl
  unfold Accepts
  rw [Reader.parse_more _ full went, ← List.append_nil pixels, Reader.parse_more _ full' went',
    Reader.parse_nil]
  rfl

theorem waits_of_torn {payload : List UInt8}
    (acceptable : payload = [] ∨ ∃ v', v.Accepts outputs m payload [] v') (written : Nat) :
    ∃ phase got, (streamReader outputs).parse (.header v)
      ((m.encode ++ payload).dropLast.take written) = ⟨[], some (phase, got), []⟩ := by
  rcases acceptable with empty | ⟨v', accepts⟩
  · -- Not even the header is complete.
    subst empty
    refine ⟨.header v, _, Reader.parse_short _ ?_⟩
    have size := m.length_encode
    simp only [List.append_nil, List.length_take, List.length_dropLast, size, streamReader]
    have small : msgSize = 32 := rfl
    omega
  · have part : (m.encode ++ payload).dropLast.take written <+: m.encode ++ payload :=
      (List.take_prefix _ _).trans (List.dropLast_prefix _)
    obtain ⟨out, phase, got, parsed, nothing⟩ := Reader.parse_of_prefix _ accepts part
    rw [List.prefix_nil.mp nothing] at parsed
    exact ⟨phase, got, parsed⟩

end StreamView

end Xios
