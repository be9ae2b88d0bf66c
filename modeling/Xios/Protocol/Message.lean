import Mathlib.Algebra.Order.Ring.Nat
import Mathlib.Data.List.Basic

/-! The fixed-size record of `XiosProtocol.h` and its bytes on the wire. -/

namespace Xios

def ofLe32 (b0 b1 b2 b3 : UInt8) : BitVec 32 :=
  b3.toBitVec ++ b2.toBitVec ++ b1.toBitVec ++ b0.toBitVec

def le32 (word : BitVec 32) : List UInt8 :=
  [⟨word.extractLsb' 0 8⟩, ⟨word.extractLsb' 8 8⟩, ⟨word.extractLsb' 16 8⟩,
    ⟨word.extractLsb' 24 8⟩]

theorem ofLe32_le32 (word : BitVec 32) :
    ofLe32 ⟨word.extractLsb' 0 8⟩ ⟨word.extractLsb' 8 8⟩ ⟨word.extractLsb' 16 8⟩
      ⟨word.extractLsb' 24 8⟩ = word := by
  -- Every bit lies in exactly one of the four bytes.
  apply BitVec.eq_of_getLsbD_eq
  intro i inside
  simp only [ofLe32, BitVec.getLsbD_append, BitVec.getLsbD_extractLsb']
  by_cases first : i < 8
  · simp [first]
  by_cases second : i - 8 < 8
  · simp [first, second, show 8 + (i - 8) = i by omega]
  by_cases third : i - 8 - 8 < 8
  · simp [first, second, third, show 16 + (i - 8 - 8) = i by omega]
  · simp [first, second, third, show i - 8 - 8 - 8 < 8 by omega,
      show 24 + (i - 8 - 8 - 8) = i by omega]

/-- The record every private stream is made of. -/
structure XiosMsg where
  -- Marks the start of a record.
  magic : BitVec 32
  -- Kind of the record.
  type : BitVec 32
  -- Window or surface the record is about, or the state of an input record.
  windowId : BitVec 32 := 0#32
  -- Size of the payload that follows.
  length : BitVec 32 := 0#32
  -- First argument, the horizontal coordinate of input records.
  a : BitVec 32 := 0#32
  -- Second argument, the vertical coordinate of input records.
  b : BitVec 32 := 0#32
  -- Third argument, the code of input records.
  c : BitVec 32 := 0#32
  -- Fourth argument, the modifiers of input records.
  d : BitVec 32 := 0#32
  deriving DecidableEq, Repr

def msgSize : Nat := 32

def protocolVersion : BitVec 32 := 1#32

def msgMagic : BitVec 32 := 0x584D5331#32

def gpuFenceTokenSize : Nat := 32

def msgHello : BitVec 32 := 0x01#32
def msgDirty : BitVec 32 := 0x02#32
def msgCursor : BitVec 32 := 0x03#32
def msgPresented : BitVec 32 := 0x05#32
def msgPacing : BitVec 32 := 0x06#32
def msgSurface : BitVec 32 := 0x07#32
def msgSurfaceDrop : BitVec 32 := 0x08#32
def msgReleased : BitVec 32 := 0x09#32
def msgCursorImage : BitVec 32 := 0x0b#32

/-- Kinds of input and system-integration records. -/
def inMotion : BitVec 32 := 0x100#32
def inButton : BitVec 32 := 0x101#32
def inKey : BitVec 32 := 0x102#32
/-- Committed text, the only input record with a payload. -/
def inText : BitVec 32 := 0x103#32
def inTraits : BitVec 32 := 0x104#32
def inTouch : BitVec 32 := 0x105#32
def inTablet : BitVec 32 := 0x106#32
def inBind : BitVec 32 := 0x107#32
def inAxis : BitVec 32 := 0x108#32
def inOutput : BitVec 32 := 0x109#32
def inHaptic : BitVec 32 := 0x10a#32
def inVolume : BitVec 32 := 0x10b#32
def inAppearance : BitVec 32 := 0x10c#32
def inGesture : BitVec 32 := 0x10d#32
def inBrightness : BitVec 32 := 0x10e#32
def inImproxy : BitVec 32 := 0x10f#32

namespace XiosMsg

def wordAt (bytes : List UInt8) (offset : Nat) : BitVec 32 :=
  ofLe32 (bytes.getD offset 0) (bytes.getD (offset + 1) 0) (bytes.getD (offset + 2) 0)
    (bytes.getD (offset + 3) 0)

def decode (bytes : List UInt8) : XiosMsg where
  magic := wordAt bytes 0
  type := wordAt bytes 4
  windowId := wordAt bytes 8
  length := wordAt bytes 12
  a := wordAt bytes 16
  b := wordAt bytes 20
  c := wordAt bytes 24
  d := wordAt bytes 28

/-- The memory of a record. -/
def encode (m : XiosMsg) : List UInt8 :=
  le32 m.magic ++ le32 m.type ++ le32 m.windowId ++ le32 m.length ++ le32 m.a ++ le32 m.b ++
    le32 m.c ++ le32 m.d

@[simp] theorem length_encode (m : XiosMsg) : m.encode.length = msgSize := rfl

@[simp] theorem decode_encode (m : XiosMsg) : decode m.encode = m := by
  simp [decode, encode, wordAt, le32, ofLe32_le32]

def hello : XiosMsg :=
  { magic := msgMagic, type := msgHello, windowId := protocolVersion }

/-- The record opens a stream of exactly this version, with nothing else in it. -/
def isExactHello (m : XiosMsg) : Bool :=
  m.magic == msgMagic && m.type == msgHello && m.windowId == protocolVersion && m.length == 0#32 &&
    m.a == 0#32 && m.b == 0#32 && m.c == 0#32 && m.d == 0#32

def inputCode (m : XiosMsg) : BitVec 32 :=
  m.c

def input (type : BitVec 32) (x y code state mods : BitVec 32) : XiosMsg :=
  { magic := msgMagic, type, windowId := state, a := x, b := y, c := code, d := mods }

end XiosMsg

end Xios
