import Xios.Surface.Server

/-! The app's end of the presentation stream, as `XSurface.c` reads it. -/

namespace Xios

def xsurfaceMaxSurfaces : Nat := 128

/-- A surface the app knows. -/
structure SurfaceItem where
  surface : Nat
  -- The id it is known by on the wire.
  id : BitVec 32
  flags : BitVec 32
  geometry : SurfaceGeometry
  -- It was taken back while it was on display.
  retired : Bool := false
  deriving DecidableEq

/-- A frame announcement whose token is being received. -/
structure FenceRx where
  -- Size of the token.
  expected : BitVec 32
  -- Bytes of the token that have arrived.
  got : Nat := 0
  surfaceId : BitVec 32
  -- The frame's sequence number.
  dirtySeq : BitVec 64
  value : BitVec 64
  deriving DecidableEq

/-- The fence of the last frame. -/
structure Fence where
  -- The broker token, which is overwritten while the next one arrives.
  token : List UInt8 := List.replicate gpuFenceTokenSize 0
  tokenSize : BitVec 32 := 0#32
  -- The frame's sequence number.
  dirtySeq : BitVec 64 := 0#64
  value : BitVec 64 := 0#64
  deriving DecidableEq

/-- Where the cursor is, and whether it is shown. -/
structure CursorState where
  -- Horizontal position.
  x : BitVec 32 := 0#32
  -- Vertical position.
  y : BitVec 32 := 0#32
  shape : BitVec 32 := 0#32
  visible : BitVec 32 := 0#32
  -- Number of changes.
  seq : BitVec 32 := 0#32
  deriving DecidableEq

/-- A pointer image that is being received. -/
structure CursorRx where
  -- Size of the pixels.
  expected : BitVec 32
  pixels : List UInt8 := []
  -- Pixels across.
  width : BitVec 32
  -- Pixels down.
  height : BitVec 32
  -- Horizontal position of the hot spot.
  hotX : BitVec 32
  -- Vertical position of the hot spot.
  hotY : BitVec 32
  deriving DecidableEq

/-- The cursor picture that is shown. -/
structure CursorImage where
  pixels : List UInt8 := []
  -- Pixels across.
  width : BitVec 32 := 0#32
  -- Pixels down.
  height : BitVec 32 := 0#32
  -- Horizontal position of the hot spot.
  hotX : BitVec 32 := 0#32
  -- Vertical position of the hot spot.
  hotY : BitVec 32 := 0#32
  -- Number of changes.
  seq : BitVec 32 := 0#32
  deriving DecidableEq

/-- The app's connection. -/
structure XSurfaceConn where
  -- Surfaces in the order of the table.
  surfaces : List SurfaceItem
  currentSurfaceId : BitVec 32
  -- Bytes of the current header that have arrived.
  rxbuf : List UInt8 := []
  -- Bytes of a payload that are still to be discarded.
  skip : Int := 0
  -- A token that is being received.
  fenceRx : Option FenceRx := none
  fence : Fence := {}
  cursor : CursorState := {}
  -- A pointer image that is being received.
  cursorRx : Option CursorRx := none
  image : CursorImage := {}
  -- Sequence number of the last frame.
  dirtySeq : BitVec 64 := 0#64
  -- An introduction whose port has not arrived.
  pendingSurface : Option XiosMsg := none
  deriving DecidableEq

/-- What looking for a port finds. -/
inductive PortResult where
  -- The port of an allocation.
  | arrived (surface : Nat)
  -- Nothing has arrived so far.
  | timedOut
  -- Something else.
  | failed
  deriving DecidableEq

/-- What one read of the socket returns. -/
inductive RecvResult where
  | data (bytes : List UInt8)
  -- The peer closed its end.
  | eof
  -- Nothing to read at the moment.
  | again
  -- A signal interrupted the call.
  | intr
  -- The call failed otherwise.
  | error
  deriving DecidableEq

/-- The system's answer to the call that a pass through the read loop makes. -/
inductive DrainAnswer where
  -- The loop looked for a port.
  | port (result : PortResult)
  -- The loop read from the socket.
  | recv (result : RecvResult)
  deriving DecidableEq

/-- Why the app gives up a connection. -/
inductive DrainFailure where
  -- The server broke the protocol.
  | protocol
  -- The connection ended.
  | closed
  -- A port could not be received.
  | port
  deriving DecidableEq, Repr

/-- How one pass through the read loop ends. -/
inductive DrainStep where
  -- With another pass.
  | loop (c : XSurfaceConn)
  -- With a return, possibly after a frame.
  | done (c : XSurfaceConn) (dirty : Bool)
  | fail (reason : DrainFailure)
  deriving DecidableEq

namespace XSurfaceConn

def findSurface (c : XSurfaceConn) (id : BitVec 32) : Option SurfaceItem :=
  c.surfaces.find? fun item => item.id = id

def removeSurface (c : XSurfaceConn) (id : BitVec 32) : XSurfaceConn :=
  match c.surfaces.findIdx? (fun item => item.id = id), c.surfaces.getLast? with
  | some index, some last => { c with surfaces := (c.surfaces.set index last).dropLast }
  | _, _ => c

def addSurface (c : XSurfaceConn) (id flags : BitVec 32) (geometry : SurfaceGeometry)
    (surface : Nat) : Option XSurfaceConn :=
  if id = 0#32 ∨ flags &&& ~~~surfaceFlagFlipY ≠ 0#32 then none
  else
    match c.surfaces.findIdx? fun item => item.id = id with
    | some index =>
      some { c with
        surfaces := c.surfaces.modify index fun old =>
          { old with surface, flags, geometry, retired := false } }
    | none =>
      if xsurfaceMaxSurfaces ≤ c.surfaces.length then none
      else some { c with surfaces := c.surfaces ++ [{ surface, id, flags, geometry }] }

def wireGeometry (m : XiosMsg) : SurfaceGeometry :=
  { width := m.a, height := m.b, stride := m.c }

def importPending (geometry : Nat → SurfaceGeometry) (c : XSurfaceConn) (m : XiosMsg) :
    PortResult → DrainStep
  | .timedOut => .done c false
  | .failed => .fail .port
  | .arrived surface =>
    if wireGeometry m ≠ geometry surface then .fail .protocol
    else
      match c.addSurface m.windowId m.d (wireGeometry m) surface with
      | none => .fail .protocol
      | some c => .loop { c with pendingSurface := none }

def showFrame (c : XSurfaceConn) (rx : FenceRx) : XSurfaceConn :=
  let previous := c.currentSurfaceId
  let c :=
    { c with
      fence := { c.fence with tokenSize := rx.expected, dirtySeq := rx.dirtySeq, value := rx.value }
      dirtySeq := rx.dirtySeq
      currentSurfaceId := rx.surfaceId
      fenceRx := none }
  -- What was taken back while on display can go now.
  if previous ≠ rx.surfaceId ∧ (c.findSurface previous).any SurfaceItem.retired then
    c.removeSurface previous
  else c

def acceptHeader (c : XSurfaceConn) (m : XiosMsg) : DrainStep :=
  if m.magic ≠ msgMagic then .fail .protocol
  else if m.type = msgDirty then
    let value : BitVec 64 := m.d ++ m.c
    if (c.findSurface m.windowId).isNone ∨ m.length ≠ BitVec.ofNat 32 gpuFenceTokenSize ∨
        value = 0#64 then
      .fail .protocol
    else
      .loop { c with
        fenceRx := some
          { expected := m.length, surfaceId := m.windowId, dirtySeq := m.b ++ m.a, value } }
  else if m.type = msgSurface then
    if m.windowId < dynamicSurfaceIdBase ∨ m.length ≠ 0#32 ∨ m.a.toInt ≤ 0 ∨ m.b.toInt ≤ 0 ∨
        m.c.toInt ≤ 0 ∨ m.d &&& ~~~surfaceFlagFlipY ≠ 0#32 ∨
        (c.findSurface m.windowId).isSome then
      .fail .protocol
    else .loop { c with pendingSurface := some m }
  else if m.type = msgSurfaceDrop then
    if m.length ≠ 0#32 ∨ (c.findSurface m.windowId).isNone ∨ m.windowId < dynamicSurfaceIdBase then
      .fail .protocol
    -- The surface on display stays until another one is shown.
    else if m.windowId = c.currentSurfaceId then
      .loop { c with
        surfaces := c.surfaces.modify (c.surfaces.findIdx fun item => item.id = m.windowId)
          fun item => { item with retired := true } }
    else .loop (c.removeSurface m.windowId)
  else if m.type = msgCursor then
    .loop { c with
      cursor :=
        { x := m.a, y := m.b, shape := m.c, visible := m.d &&& 1#32, seq := c.cursor.seq + 1#32 }
      skip := if m.length = 0#32 then c.skip else m.length.toInt }
  else if m.type = msgCursorImage then
    if m.length = 0#32 then
      .loop { c with
        image := { c.image with width := 0#32, height := 0#32, seq := c.image.seq + 1#32 } }
    else if m.a.toInt ≤ 0 ∨ m.b.toInt ≤ 0 ∨ cursorImageMax < m.a.toInt ∨
        cursorImageMax < m.b.toInt ∨ m.length ≠ m.a * m.b * 4#32 then
      .fail .protocol
    else
      .loop { c with
        cursorRx := some
          { expected := m.length, width := m.a, height := m.b, hotX := m.c, hotY := m.d } }
  else .fail .protocol

/-- Bytes that the next call to `recv` asks for. -/
def requested (c : XSurfaceConn) : Nat :=
  match c.fenceRx, c.cursorRx with
  | some rx, _ => rx.expected.toNat - rx.got
  | none, some rx => rx.expected.toNat - rx.pixels.length
  | none, none => if 0 < c.skip then min c.skip.toNat 64 else msgSize - c.rxbuf.length

def receive (c : XSurfaceConn) (bytes : List UInt8) : DrainStep :=
  match c.fenceRx, c.cursorRx with
  | some rx, _ =>
    let token := c.fence.token.take rx.got ++ bytes ++ c.fence.token.drop (rx.got + bytes.length)
    let c := { c with fence := { c.fence with token } }
    let rx := { rx with got := rx.got + bytes.length }
    if rx.got < rx.expected.toNat then .loop { c with fenceRx := some rx }
    else .done (c.showFrame rx) true
  | none, some rx =>
    let rx := { rx with pixels := rx.pixels ++ bytes }
    if rx.pixels.length < rx.expected.toNat then .loop { c with cursorRx := some rx }
    else
      .loop { c with
        image :=
          { pixels := rx.pixels, width := rx.width, height := rx.height, hotX := rx.hotX
            hotY := rx.hotY, seq := c.image.seq + 1#32 }
        cursorRx := none }
  | none, none =>
    if 0 < c.skip then .loop { c with skip := c.skip - bytes.length }
    else
      let c := { c with rxbuf := c.rxbuf ++ bytes }
      if c.rxbuf.length < msgSize then .loop c
      else acceptHeader { c with rxbuf := [] } (XiosMsg.decode c.rxbuf)

/-- One pass through the loop of `xsurface_drain`, with the answer to the call it makes. -/
def drain (geometry : Nat → SurfaceGeometry) (c : XSurfaceConn) (answer : DrainAnswer) :
    DrainStep :=
  match c.pendingSurface, answer with
  | some m, .port result => importPending geometry c m result
  | none, .recv (.data bytes) => c.receive bytes
  | none, .recv .again => .done c false
  | none, .recv .intr => .loop c
  | none, .recv _ => .fail .closed
  -- The loop makes the other call.
  | some _, .recv _ | none, .port _ => .loop c

def connected (geometry : Nat → SurfaceGeometry) (outputs : List Nat) : XSurfaceConn :=
  { surfaces := outputs.mapIdx fun i surface =>
      { surface, id := primarySurfaceId + BitVec.ofNat 32 i, flags := 0#32
        geometry := geometry surface }
    currentSurfaceId := primarySurfaceId }

end XSurfaceConn

/-- The app's connection with everything that came in on it. -/
structure AppStream where
  conn : XSurfaceConn
  -- All bytes read from the socket.
  consumed : List UInt8 := []
  -- All allocations whose ports were received.
  imported : List Nat := []
  -- Why the connection was given up, if it was.
  failed : Option DrainFailure := none

namespace AppStream

def answerBytes : DrainAnswer → List UInt8
  | .recv (.data bytes) => bytes
  | _ => []

def answerPorts : DrainAnswer → List Nat
  | .port (.arrived surface) => [surface]
  | _ => []

/-- Execute one pass through the read loop. -/
def next (geometry : Nat → SurfaceGeometry) (s : AppStream) (answer : DrainAnswer) : AppStream :=
  let s :=
    { s with
      consumed := s.consumed ++ answerBytes answer, imported := s.imported ++ answerPorts answer }
  match s.conn.drain geometry answer with
  | .loop conn | .done conn _ => { s with conn }
  | .fail reason => { s with failed := some reason }

/--
What can happen on a connection to which the given bytes and ports were sent.

The loop gets an answer to the call it makes, bytes arrive in order and never more than were asked
for, and ports arrive in order as well, sooner or later.
-/
def Allowed (wire : List UInt8) (ports : List Nat) (s : AppStream) (answer : DrainAnswer) : Prop :=
  s.failed = none ∧
    match s.conn.pendingSurface, answer with
    | some _, .port (.arrived surface) => s.imported ++ [surface] <+: ports
    | some _, .port .timedOut => True
    | none, .recv (.data bytes) =>
      bytes ≠ [] ∧ bytes.length ≤ s.conn.requested ∧ s.consumed ++ bytes <+: wire
    | none, .recv _ => True
    | _, _ => False

/-- All ways in which the app can read what was sent to it after its handshake. -/
def machine (geometry : Nat → SurfaceGeometry) (outputs : List Nat) (wire : List UInt8)
    (ports : List Nat) : Machine AppStream DrainAnswer where
  start s := s = { conn := .connected geometry outputs }
  enabled := Allowed wire ports
  next := next geometry

end AppStream

end Xios
