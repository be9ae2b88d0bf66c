import Xios.App.ConnectionLaws

/-! The records of a presentation stream, and what an app has of the ones it has received. -/

namespace Xios

/-- A header with its payload. -/
structure StreamRecord where
  -- The record itself.
  msg : XiosMsg
  payload : List UInt8 := []
  deriving DecidableEq

/-- What comes next on a presentation stream, as far as its framing is concerned. -/
inductive RecordPhase where
  -- The fixed part of a record.
  | header
  | payload (m : XiosMsg) (nonempty : 0 < m.length.toNat)

/-- A record may come with a payload. -/
def XiosMsg.Carries (m : XiosMsg) : Prop :=
  m.type = msgDirty ∨ m.type = msgCursorImage
  deriving Decidable

def recordReader : Reader RecordPhase UInt8 StreamRecord where
  want
    | .header => msgSize
    | .payload m _ => m.length.toNat
  positive
    | .header => Nat.succ_pos _
    | .payload _ nonempty => nonempty
  finish
    | .header, bytes =>
      let m := XiosMsg.decode bytes
      if m.magic ≠ msgMagic then .stop []
      else if nonempty : 0 < m.length.toNat then
        if m.Carries then .more (.payload m nonempty) [] else .stop []
      else .more .header [⟨m, []⟩]
    | .payload m _, bytes => .more .header [⟨m, bytes⟩]

/-- A stream consists of records, the last of which need not be complete. -/
def InRecords (wire : List UInt8) : Prop :=
  (recordReader.parse .header wire).waiting ≠ none

/-- A frame with its fence. -/
structure StreamFrame where
  surfaceId : BitVec 32
  -- The frame's sequence number.
  dirtySeq : BitVec 64
  value : BitVec 64
  token : List UInt8
  deriving DecidableEq

def StreamRecord.frame (r : StreamRecord) : Option StreamFrame :=
  if r.msg.type = msgDirty then
    some
      { surfaceId := r.msg.windowId, dirtySeq := r.msg.b ++ r.msg.a, value := r.msg.d ++ r.msg.c
        token := r.payload }
  else none

def framesOf (records : List StreamRecord) : List StreamFrame :=
  records.filterMap StreamRecord.frame

def applyImage (image : CursorImage) (r : StreamRecord) : CursorImage :=
  if r.msg.type ≠ msgCursorImage then image
  -- Without pixels, the image is withdrawn.
  else if r.msg.length = 0#32 then
    { image with width := 0#32, height := 0#32, seq := image.seq + 1#32 }
  else
    { pixels := r.payload, width := r.msg.a, height := r.msg.b, hotX := r.msg.c, hotY := r.msg.d
      seq := image.seq + 1#32 }

def imageOf (records : List StreamRecord) : CursorImage :=
  records.foldl applyImage {}

def fenceOf : Option StreamFrame → Fence
  | none => {}
  | some frame =>
    { token := frame.token, tokenSize := BitVec.ofNat 32 gpuFenceTokenSize
      dirtySeq := frame.dirtySeq, value := frame.value }

def overlay : RecordPhase → List UInt8 → List UInt8 → List UInt8
  | .header, _, token => token
  | .payload m _, got, token => if m.type = msgDirty then got ++ token.drop got.length else token

namespace XSurfaceConn

/-- `xsurface_gpu_fence_token`, which gives the token and the value of the last frame. -/
def gpuFenceToken (c : XSurfaceConn) : Option (List UInt8 × BitVec 64) :=
  if c.fence.tokenSize ≠ BitVec.ofNat 32 gpuFenceTokenSize ∨ c.fence.value = 0#64 ∨
      c.fence.dirtySeq ≠ c.dirtySeq then none
  else some (c.fence.token, c.fence.value)

/-- `xsurface_cursor_image`, which gives the pointer image unless it is withdrawn. -/
def cursorImage (c : XSurfaceConn) : Option CursorImage :=
  if c.image.width.toInt ≤ 0 ∨ c.image.height.toInt ≤ 0 then none else some c.image

/-- The app has part of what comes next. -/
def Receives (c : XSurfaceConn) : RecordPhase → List UInt8 → Prop
  | .header, got => c.rxbuf = got ∧ got.length < msgSize ∧ c.fenceRx = none ∧ c.cursorRx = none
  | .payload m _, got =>
    c.rxbuf = [] ∧ got.length < m.length.toNat ∧
      (m.type = msgDirty ∧ m.length = BitVec.ofNat 32 gpuFenceTokenSize ∧
          (m.d ++ m.c : BitVec 64) ≠ 0#64 ∧ c.cursorRx = none ∧
          c.fenceRx = some
            { expected := m.length, got := got.length, surfaceId := m.windowId
              dirtySeq := m.b ++ m.a, value := m.d ++ m.c } ∨
        m.Draws ∧ c.fenceRx = none ∧
          c.cursorRx = some
            { expected := m.length, pixels := got, width := m.a, height := m.b, hotX := m.c
              hotY := m.d })

/-- The app has made of some records what they say, and has received part of the next one. -/
structure Reflects (c : XSurfaceConn) (records : List StreamRecord) (phase : RecordPhase)
    (got : List UInt8) : Prop where
  image : c.image = imageOf records
  -- So is the last frame, except that its token is being written over.
  fence : c.fence = { fenceOf (framesOf records).getLast? with
    token := overlay phase got (fenceOf (framesOf records).getLast?).token }
  dirtySeq : c.dirtySeq = (fenceOf (framesOf records).getLast?).dirtySeq
  current : c.currentSurfaceId =
    ((framesOf records).getLast?.map StreamFrame.surfaceId).getD primarySurfaceId
  -- Nothing is skipped, and what comes next is known.
  skip : c.skip = 0
  receives : c.Receives phase got

end XSurfaceConn

/-- Every frame has a whole token and something to wait for. -/
def WholeFrames (records : List StreamRecord) : Prop :=
  ∀ frame ∈ framesOf records, frame.token.length = gpuFenceTokenSize ∧ frame.value ≠ 0#64

end Xios
