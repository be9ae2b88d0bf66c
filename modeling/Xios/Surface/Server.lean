import Mathlib.Data.List.FinRange
import Xios.Lib.Machine
import Xios.Output.Queue
import Xios.Protocol.Message

/-! The presentation server of `xios_surface.c`: its clients, its surfaces, and what it sends. -/

namespace Xios

abbrev maxClients : Nat := 8

abbrev maxStreamSurfaces : Nat := 128

def primarySurfaceId : BitVec 32 := 1#32

def dynamicSurfaceIdBase : BitVec 32 := 0x100#32

def helloCapStreamV2 : BitVec 32 := 1#32

def surfaceFlagFlipY : BitVec 32 := 1#32

def cursorImageMax : Nat := 128

/-- What the system says about an allocation. -/
structure SurfaceGeometry where
  -- Pixels across.
  width : BitVec 32
  -- Pixels down.
  height : BitVec 32
  -- Bytes from one row to the next.
  stride : BitVec 32
  deriving DecidableEq

/-- A connected app. -/
structure AppClient where
  fd : Nat
  -- The connection, numbered since the start.
  conn : Nat
  -- What the app understands.
  caps : BitVec 32
  -- Tells clients apart that had the same place.
  serial : BitVec 64
  deriving DecidableEq

/-- The app understands records that name a surface. -/
def AppClient.streamV2 (c : AppClient) : Bool :=
  c.caps &&& helloCapStreamV2 != 0#32

/-- A registered client surface. -/
structure StreamSurface where
  surface : Nat
  -- The id it is known by on the wire.
  id : BitVec 32
  flags : BitVec 32
  geometry : SurfaceGeometry
  -- Places of the clients it was introduced to.
  sentClients : BitVec 32 := 0#32
  -- Sequence number of its last frame.
  lastSeq : BitVec 64 := 0#64
  -- Sequence number of its last frame that was released.
  releasedSeq : BitVec 64 := 0#64
  deriving DecidableEq

/-- Something that was written to a connection. -/
inductive Sent where
  | record (m : XiosMsg) (payload : List UInt8)
  -- The beginning of a record, after which the connection was given up.
  | torn (bytes : List UInt8)
  deriving DecidableEq

/-- How writing a record ends. -/
inductive SendResult where
  | sent
  -- Nothing was written, for now.
  | wouldBlock
  -- It failed after some bytes.
  | failed (written : Nat)
  deriving DecidableEq

/-- How the writes of a frame announcement to one client end. -/
structure SendPlan where
  -- The surface's port could be delivered.
  port : Bool := true
  -- How writing its introduction ends.
  surface : SendResult := .sent
  -- How writing the record itself ends.
  record : SendResult := .sent
  deriving DecidableEq

/-- What a frame is of. -/
inductive FrameTarget where
  | output (index : Nat)
  | stream (k : Fin maxStreamSurfaces)
  deriving DecidableEq

def FrameTarget.stream? : FrameTarget → Option (Fin maxStreamSurfaces)
  | .output _ => none
  | .stream k => some k

/--
The server.

The connection numbers and what was written to each connection are not kept by the code.
The counter of clients is not kept here, since it always is the number of occupied places.
-/
structure SurfaceServer where
  clients : Fin maxClients → Option AppClient := fun _ => none
  -- Registered client surfaces.
  streams : Fin maxStreamSurfaces → Option StreamSurface := fun _ => none
  queue : OutputQueue
  releaseToken : Bool
  nextStreamSurfaceId : BitVec 32 := dynamicSurfaceIdBase
  -- Number of resizes.
  generation : BitVec 32 := 0#32
  nextClientSerial : BitVec 64 := 0#64
  -- Sequence number of the last frame.
  dirtySeq : BitVec 64 := 0#64
  -- Number of connections so far.
  conns : Nat := 0
  -- What was written to each connection after its handshake, newest first.
  log : Nat → List Sent := fun _ => []
  -- The allocations whose ports were delivered to each connection, newest first.
  ports : Nat → List Nat := fun _ => []

namespace SurfaceServer

def surfaceMsg (e : StreamSurface) : XiosMsg :=
  { magic := msgMagic, type := msgSurface, windowId := e.id, a := e.geometry.width
    b := e.geometry.height, c := e.geometry.stride, d := e.flags }

/-- The record that takes back a client surface. -/
def dropMsg (id : BitVec 32) : XiosMsg :=
  { magic := msgMagic, type := msgSurfaceDrop, windowId := id }

def dirtyMsg (id : BitVec 32) (seq eventValue : BitVec 64) : XiosMsg :=
  { magic := msgMagic, type := msgDirty, windowId := id
    length := BitVec.ofNat 32 gpuFenceTokenSize, a := seq.extractLsb' 0 32
    b := seq.extractLsb' 32 32, c := eventValue.extractLsb' 0 32
    d := eventValue.extractLsb' 32 32 }

def noClients (s : SurfaceServer) : Bool :=
  (List.finRange maxClients).all fun i => (s.clients i).isNone

def streamV2ClientMask (s : SurfaceServer) : BitVec 32 :=
  (List.finRange maxClients).foldl
    (fun mask i => if (s.clients i).any AppClient.streamV2 then mask ||| Mask.bit 32 i else mask) 0#32

def findOutputIndex (s : SurfaceServer) (id : BitVec 32) : Option Nat :=
  (List.range s.queue.count).find? fun i => primarySurfaceId + BitVec.ofNat 32 i = id

def findStreamSurface (s : SurfaceServer) (id : BitVec 32) : Option (Fin maxStreamSurfaces) :=
  (List.finRange maxStreamSurfaces).find? fun k => (s.streams k).any fun e => e.id = id

def findTarget (s : SurfaceServer) (id : BitVec 32) : Option FrameTarget :=
  match s.findOutputIndex id with
  | some index => some (.output index)
  | none => (s.findStreamSurface id).map .stream

def write (s : SurfaceServer) (conn : Nat) (m : XiosMsg) (payload : List UInt8)
    (result : SendResult) : SurfaceServer :=
  match result with
  | .sent => { s with log := Function.update s.log conn (.record m payload :: s.log conn) }
  | .wouldBlock => s
  -- A write that fails is not complete.
  | .failed written =>
    { s with
      log := Function.update s.log conn
        (.torn ((m.encode ++ payload).dropLast.take written) :: s.log conn) }

def deliverPort (s : SurfaceServer) (conn surface : Nat) : SurfaceServer :=
  { s with ports := Function.update s.ports conn (surface :: s.ports conn) }

def setStream (s : SurfaceServer) (k : Fin maxStreamSurfaces) (e : Option StreamSurface) :
    SurfaceServer :=
  { s with streams := Function.update s.streams k e }

/-- Nothing sent to a place counts any longer. -/
def clearClientPending (s : SurfaceServer) (i : Fin maxClients) : SurfaceServer :=
  { s with
    queue := s.queue.dropClient (Mask.bit 32 i)
    streams := fun k =>
      (s.streams k).map fun e => { e with sentClients := e.sentClients &&& ~~~Mask.bit 32 i } }

def dropClient (s : SurfaceServer) (i : Fin maxClients) : SurfaceServer :=
  if (s.clients i).isNone then s
  else
    let s := s.clearClientPending i
    { s with clients := Function.update s.clients i none }

def dropClientIdentity (s : SurfaceServer) (i : Fin maxClients) (fd : Nat) (serial : BitVec 64) :
    SurfaceServer :=
  match s.clients i with
  | none => s
  | some c => if c.fd ≠ fd ∨ c.serial ≠ serial then s else s.dropClient i

def recoverConsumerAfterHandshake (s : SurfaceServer) : SurfaceServer :=
  { s with
    queue := s.queue.recoverAbandoned
    streams := fun k =>
      (s.streams k).map fun e =>
        if e.sentClients = 0#32 ∧ e.releasedSeq < e.lastSeq then { e with releasedSeq := e.lastSeq }
        else e }

def nextSerial (serial : BitVec 64) : BitVec 64 :=
  if serial + 1#64 = 0#64 then 1#64 else serial + 1#64

def addClient (s : SurfaceServer) (fd : Nat) (caps generation : BitVec 32) :
    Option SurfaceServer :=
  if generation ≠ s.generation then none
  else if caps &&& helloCapStreamV2 ≠ 0#32 ∧ s.noClients = false ∨
      caps &&& helloCapStreamV2 = 0#32 ∧ s.streamV2ClientMask ≠ 0#32 then none
  else
    match (List.finRange maxClients).find? fun i => (s.clients i).isNone with
    | none => none
    | some i =>
      let s := if s.noClients then s.recoverConsumerAfterHandshake else s
      let serial := nextSerial s.nextClientSerial
      some { s with
        clients := Function.update s.clients i (some { fd, conn := s.conns, caps, serial })
        nextClientSerial := serial
        conns := s.conns + 1 }

/-- Handle a connection whose opening record asks for some capabilities. -/
def handleClient (s : SurfaceServer) (fd : Nat) (caps generation : BitVec 32) : SurfaceServer :=
  if caps &&& ~~~helloCapStreamV2 ≠ 0#32 then s
  else if caps &&& helloCapStreamV2 ≠ 0#32 ∧
      (s.queue.count < 1 ∨ 1 < s.queue.count ∧ s.releaseToken = false) then s
  else (s.addClient fd caps generation).getD s

def releaseOutput (s : SurfaceServer) (i : Fin maxClients) (id : BitVec 32) (seq : BitVec 64) :
    Bool × OutputQueue :=
  match s.findOutputIndex id with
  | some index => s.queue.release index (Mask.bit 32 i) seq.toNat
  | none => (false, s.queue)

def handleReleased (s : SurfaceServer) (i : Fin maxClients) (m : XiosMsg) : SurfaceServer :=
  let seq : BitVec 64 := m.b ++ m.a
  if seq = 0#64 ∨ m.length ≠ 0#32 then s
  else
    let (handled, queue) := s.releaseOutput i m.windowId seq
    let s := { s with queue }
    if handled then s
    else
      match s.findStreamSurface m.windowId with
      | none => s
      | some k =>
        s.setStream k ((s.streams k).map fun e =>
          if Mask.has e.sentClients i ∧ e.lastSeq = seq ∧ e.releasedSeq < seq then
            { e with releasedSeq := seq }
          else e)

def handleClientMsg (s : SurfaceServer) (i : Fin maxClients) (serial : BitVec 64) (m : XiosMsg) :
    SurfaceServer :=
  match s.clients i with
  | none => s
  | some c =>
    if c.serial ≠ serial then s
    else if m.type = msgReleased then s.handleReleased i m
    -- The display clock and the last frame shown have no part in what is sent.
    else s

def resize (s : SurfaceServer) : SurfaceServer :=
  match OutputQueue.reset s.queue.count with
  | none => s
  | some queue => { s with queue, generation := s.generation + 1#32, clients := fun _ => none }

def sendStreamSurface (s : SurfaceServer) (i : Fin maxClients) (k : Fin maxStreamSurfaces)
    (plan : SendPlan) : Bool × SurfaceServer :=
  match s.clients i, s.streams k with
  | some c, some e =>
    if c.streamV2 = false then (false, s)
    else if Mask.has e.sentClients i then (true, s)
    else if plan.port = false then (false, s)
    else
      let s := (s.deliverPort c.conn e.surface).write c.conn (surfaceMsg e) [] plan.surface
      if plan.surface = .sent then
        (true, s.setStream k (some { e with sentClients := e.sentClients ||| Mask.bit 32 i }))
      else (false, s)
  | _, _ => (false, s)

def sendRecord (s : SurfaceServer) (i : Fin maxClients) (c : AppClient) (m : XiosMsg)
    (payload : List UInt8) (result : SendResult) : SurfaceServer :=
  let s := s.write c.conn m payload result
  match result with
  | .sent | .wouldBlock => s
  | .failed _ => s.dropClient i

def introduce (s : SurfaceServer) (i : Fin maxClients) (stream : Option (Fin maxStreamSurfaces))
    (plan : SendPlan) : Bool × SurfaceServer :=
  match stream with
  | some k => s.sendStreamSurface i k plan
  | none => (true, s)

/-- Announce a frame to one client, and note whether it was told. -/
def notifyClient (id : BitVec 32) (stream : Option (Fin maxStreamSurfaces)) (m : XiosMsg)
    (token : List UInt8) (plan : Fin maxClients → SendPlan)
    (told : BitVec 32 × SurfaceServer) (i : Fin maxClients) : BitVec 32 × SurfaceServer :=
  let (delivered, s) := told
  match s.clients i with
  | none => told
  | some c =>
    -- Other clients know the primary output only.
    if c.streamV2 = false ∧ id ≠ primarySurfaceId then told
    else
      let introduced := s.introduce i stream (plan i)
      if introduced.1 = false then (delivered, introduced.2.dropClient i)
      else
        (if (plan i).record = .sent then delivered ||| Mask.bit 32 i else delivered,
          introduced.2.sendRecord i c m token (plan i).record)

def announce (s : SurfaceServer) (id : BitVec 32) (target : FrameTarget) (seq : BitVec 64)
    (token : List UInt8) (eventValue : BitVec 64) (plan : Fin maxClients → SendPlan) :
    BitVec 32 × SurfaceServer :=
  (List.finRange maxClients).foldl
    (notifyClient id target.stream? (dirtyMsg id seq eventValue) token plan)
    (0#32, { s with dirtySeq := seq })

def notifyDirty (s : SurfaceServer) (id : BitVec 32) (token : List UInt8)
    (eventValue : BitVec 64) (plan : Fin maxClients → SendPlan) : SurfaceServer :=
  if token.length ≠ gpuFenceTokenSize ∨ eventValue = 0#64 then s
  else
    match s.findTarget id with
    | none => s
    | some target =>
      let seq := s.dirtySeq + 1#64
      let (delivered, s) := s.announce id target seq token eventValue plan
      match target with
      | .output index =>
        -- Without a release timeline nobody could ever release the output.
        let pending := if s.releaseToken then delivered &&& s.streamV2ClientMask else 0#32
        { s with queue := s.queue.publish index pending seq.toNat }
      | .stream k => s.setStream k ((s.streams k).map fun e => { e with lastSeq := seq })

def notifyCursor (s : SurfaceServer) (x y shape : BitVec 32) (visible : Bool)
    (plan : Fin maxClients → SendPlan) : SurfaceServer :=
  (List.finRange maxClients).foldl
    (fun s i =>
      match s.clients i with
      | none => s
      | some c =>
        s.sendRecord i c
          { magic := msgMagic, type := msgCursor, a := x, b := y, c := shape
            d := if visible then 1#32 else 0#32 } [] (plan i).record)
    s

def cursorImageMsg (width height : BitVec 32) (hotX hotY : BitVec 32) (bytes : Nat) : XiosMsg :=
  { magic := msgMagic, type := msgCursorImage, length := BitVec.ofNat 32 bytes, a := width
    b := height, c := hotX, d := hotY }

def notifyCursorImage (s : SurfaceServer) (bgra : Option (List UInt8)) (width height : BitVec 32)
    (hotX hotY : BitVec 32) (plan : Fin maxClients → SendPlan) : SurfaceServer :=
  let shown := bgra.isSome ∧ 0 < width.toInt ∧ 0 < height.toInt
  if shown ∧ (cursorImageMax < width.toNat ∨ cursorImageMax < height.toNat) then s
  else
    let bytes := if shown then width.toNat * height.toNat * 4 else 0
    let m := if shown then cursorImageMsg width height hotX hotY bytes
      else cursorImageMsg 0#32 0#32 0#32 0#32 0
    (List.finRange maxClients).foldl
      (fun s i =>
        match s.clients i with
        | none => s
        | some c =>
          -- A client that stays blocked is disconnected as well.
          s.sendRecord i c m ((bgra.getD []).take bytes)
            (if (plan i).record = .wouldBlock then .failed 0 else (plan i).record))
      s

def outputAcquire (s : SurfaceServer) : SurfaceServer :=
  match s.queue.acquire (s.streamV2ClientMask != 0#32) with
  | some (_, queue) => { s with queue }
  | none => s

def outputCancel (s : SurfaceServer) (id : BitVec 32) : SurfaceServer :=
  match s.findOutputIndex id with
  | some index => { s with queue := s.queue.cancel index }
  | none => s

def nextId (id : BitVec 32) : BitVec 32 :=
  if id + 1#32 < dynamicSurfaceIdBase then dynamicSurfaceIdBase else id + 1#32

def streamRegisterSurface (geometry : Nat → SurfaceGeometry) (s : SurfaceServer) (surface : Nat)
    (flags : BitVec 32) : SurfaceServer :=
  if flags &&& ~~~surfaceFlagFlipY ≠ 0#32 then s
  else if (List.finRange maxStreamSurfaces).any fun k =>
      (s.streams k).any fun e => e.surface = surface then s
  else
    match (List.finRange maxStreamSurfaces).find? fun k => (s.streams k).isNone with
    | none => s
    | some k =>
      { s.setStream k (some
          { surface, id := s.nextStreamSurfaceId, flags, geometry := geometry surface }) with
        nextStreamSurfaceId := nextId s.nextStreamSurfaceId }

def takeBack (id : BitVec 32) (k : Fin maxStreamSurfaces) (plan : Fin maxClients → SendPlan)
    (s : SurfaceServer) (i : Fin maxClients) : SurfaceServer :=
  match s.clients i with
  | none => s
  | some c =>
    if (s.streams k).any fun e => Mask.has e.sentClients i then
      let s := s.write c.conn (dropMsg id) [] (plan i).record
      if (plan i).record = .sent then s else s.dropClient i
    else s

def streamUnregisterSurface (s : SurfaceServer) (id : BitVec 32)
    (plan : Fin maxClients → SendPlan) : SurfaceServer :=
  match s.findStreamSurface id with
  | none => s
  | some k => ((List.finRange maxClients).foldl (takeBack id k plan) s).setStream k none

/-- The calls of the compositor and what the apps send. -/
inductive Event where
  -- An app completes its handshake, begun at some generation.
  | handshake (fd : Nat) (caps generation : BitVec 32)
  -- The thread that reads from a client ends.
  | readerGone (i : Fin maxClients) (fd : Nat) (serial : BitVec 64)
  -- A client sends a record.
  | message (i : Fin maxClients) (serial : BitVec 64) (m : XiosMsg)
  -- The outputs are replaced.
  | resize
  | register (surface : Nat) (flags : BitVec 32)
  | unregister (id : BitVec 32) (plan : Fin maxClients → SendPlan)
  -- A frame is announced.
  | dirty (id : BitVec 32) (token : List UInt8) (eventValue : BitVec 64)
      (plan : Fin maxClients → SendPlan)
  | cursor (x y shape : BitVec 32) (visible : Bool) (plan : Fin maxClients → SendPlan)
  -- The cursor looks different.
  | cursorImage (bgra : Option (List UInt8)) (width height hotX hotY : BitVec 32)
      (plan : Fin maxClients → SendPlan)
  -- An output is taken for the next frame.
  | acquire
  -- An output is given back unused.
  | cancel (id : BitVec 32)

def next (geometry : Nat → SurfaceGeometry) (s : SurfaceServer) : Event → SurfaceServer
  | .handshake fd caps generation => s.handleClient fd caps generation
  | .readerGone i fd serial => s.dropClientIdentity i fd serial
  | .message i serial m => s.handleClientMsg i serial m
  | .resize => s.resize
  | .register surface flags => streamRegisterSurface geometry s surface flags
  | .unregister id plan => s.streamUnregisterSurface id plan
  | .dirty id token eventValue plan => s.notifyDirty id token eventValue plan
  | .cursor x y shape visible plan => s.notifyCursor x y shape visible plan
  | .cursorImage bgra width height hotX hotY plan =>
    s.notifyCursorImage bgra width height hotX hotY plan
  | .acquire => s.outputAcquire
  | .cancel id => s.outputCancel id

/-- The pixels of a cursor image are all there. -/
def Allowed : Event → Prop
  | .cursorImage (some bgra) width height _ _ _ => width.toNat * height.toNat * 4 ≤ bgra.length
  | _ => True

/-- All histories of a server, from the creation of its outputs on. -/
def machine (geometry : Nat → SurfaceGeometry) : Machine SurfaceServer Event where
  start s := ∃ count queue releaseToken, OutputQueue.reset count = some queue ∧
    s = { queue, releaseToken }
  enabled _ := Allowed
  next := next geometry

end SurfaceServer

end Xios
