import Xios.Lib.SwapTable
import Xios.Surface.Server

/-! The canvases of `xios_canvas.c`, the hosts they are handed to, and the two threads at work. -/

namespace Xios

abbrev maxCanvasClients : Nat := 16

abbrev maxCanvasWindows : Nat := 64

/-- Bytes of an app id or a title that are kept. -/
def canvasTextMax : Nat := 255

def msgBind : BitVec 32 := 0x40#32
def msgWindowNew : BitVec 32 := 0x50#32
def msgWindowGeom : BitVec 32 := 0x51#32
def msgWindowTitle : BitVec 32 := 0x52#32
def msgWindowGone : BitVec 32 := 0x53#32
/-- A frame of a window is complete once a fence is passed. -/
def msgNativeFrame : BitVec 32 := 0x54#32

/-- A bound host. -/
structure CanvasClient where
  fd : Nat
  -- The connection, numbered since the start.
  conn : Nat
  -- The process at the other end.
  pid : Nat
  -- The port that canvases are sent to.
  replyPort : BitVec 32
  -- The app whose windows it shows.
  appId : List UInt8
  deriving DecidableEq

/-- What waits to be sent about a window. -/
inductive DeliverKind where
  | none
  -- Its announcement and its first canvas.
  | new
  -- Its geometry and its new canvas.
  | geom
  deriving DecidableEq

/-- One allocation of a window's canvas. -/
structure Canvas where
  -- The allocation, numbered since the start.
  number : Nat
  -- How often the window's canvas was replaced.
  generation : BitVec 64
  deriving DecidableEq

/-- A window with a canvas, or a free place. -/
structure CanvasEntry where
  -- The window, zero for a free place.
  windowId : BitVec 32 := 0#32
  surface : Bool := false
  -- The canvas allocated last, which the code knows by its address.
  number : Nat := 0
  -- Its size and its bytes per row.
  w : BitVec 32 := 0#32
  h : BitVec 32 := 0#32
  stride : BitVec 32 := 0#32
  -- How often the canvas was replaced.
  canvasGeneration : BitVec 64 := 0#64
  -- The last frame: the generation it belongs to, its fence, and whether there is one.
  frameGeneration : BitVec 64 := 0#64
  frameEventValue : BitVec 64 := 0#64
  frameToken : List UInt8 := []
  frameValid : Bool := false
  -- The app the window belongs to, its title and its flags.
  appId : List UInt8 := []
  title : List UInt8 := []
  flags : BitVec 32 := 0#32
  announced : Bool := false
  -- What waits to be sent.
  deliverPending : DeliverKind := .none
  deriving DecidableEq

def CanvasEntry.canvas (e : CanvasEntry) : Canvas :=
  ⟨e.number, e.canvasGeneration⟩

/-- What a host was sent. -/
inductive HostSent where
  | record (m : XiosMsg) (payload : List UInt8) (fence : Option Canvas)
  | port (windowId : BitVec 32) (canvas : Canvas)
  -- The beginning of a record.
  | torn (bytes : List UInt8)
  deriving DecidableEq

/-- What the reader remembers of a window while it hands over its canvas. -/
structure Handoff where
  -- What is being sent.
  kind : DeliverKind
  windowId : BitVec 32
  canvas : Canvas
  fd : Nat
  conn : Nat
  pid : Nat
  replyPort : BitVec 32
  -- The record was written.
  wrote : Bool
  -- How sending the port ended.
  delivered : Option Bool := none
  deriving DecidableEq

def Handoff.ok (h : Handoff) : Bool :=
  h.wrote && h.delivered == some true

/-- What the reader thread is at. -/
inductive ReaderPhase where
  -- It waits for hosts.
  | polling
  -- It is about to look at some place.
  | scanning (i : Nat)
  -- It hands over the canvas at some place, without holding the lock.
  | handing (i : Nat) (h : Handoff)
  deriving DecidableEq

/--
The canvas server.

The numbers of connections and canvases, what was sent and the last two fields are not in the code.
-/
structure CanvasServer where
  windows : Fin maxCanvasWindows → CanvasEntry := fun _ => {}
  -- Bound hosts.
  clients : List CanvasClient := []
  reader : ReaderPhase := .polling
  -- Number of canvases so far.
  surfaces : Nat := 0
  -- Number of connections so far.
  conns : Nat := 0
  -- What was sent to each connection, newest first.
  log : Nat → List HostSent := fun _ => []
  -- The announced window whose canvas the compositor has replaced and has yet to pass on.
  created : Option (BitVec 32) := none
  -- The connection for which a window was last marked as announced.
  home : BitVec 32 → Option Nat := fun _ => none

namespace CanvasServer

def setWindow (s : CanvasServer) (k : Fin maxCanvasWindows) (e : CanvasEntry) : CanvasServer :=
  { s with windows := Function.update s.windows k e }

def windowFind (s : CanvasServer) (id : BitVec 32) : Option (Fin maxCanvasWindows) :=
  if id = 0#32 then none
  else (List.finRange maxCanvasWindows).find? fun k => (s.windows k).windowId = id

def windowAlloc (s : CanvasServer) (id : BitVec 32) :
    Option (Fin maxCanvasWindows × CanvasServer) :=
  match s.windowFind id with
  | some k => some (k, s)
  | none =>
    match (List.finRange maxCanvasWindows).find? fun k => (s.windows k).windowId = 0#32 with
    | some k => some (k, s.setWindow k { s.windows k with windowId := id })
    | none => none

def clientForApp (s : CanvasServer) (appId : List UInt8) : Option CanvasClient :=
  if appId = [] then none else s.clients.find? fun c => c.appId = appId

def dropClientFd (s : CanvasServer) (fd : Nat) : CanvasServer :=
  match s.clients.findIdx? fun c => c.fd = fd with
  | some i => { s with clients := SwapTable.takeOut s.clients i }
  | none => s

def sendRecord (s : CanvasServer) (conn : Nat) (m : XiosMsg) (payload : List UInt8)
    (fence : Option Canvas) (result : SendResult) : CanvasServer :=
  match result with
  | .sent => { s with log := Function.update s.log conn (.record m payload fence :: s.log conn) }
  | .wouldBlock => s
  -- A write that fails is not complete.
  | .failed written =>
    { s with
      log := Function.update s.log conn
        (.torn ((m.encode ++ payload).dropLast.take written) :: s.log conn) }

/-- Write one record to a host, and disconnect it if that fails. -/
def sendMsg (s : CanvasServer) (c : CanvasClient) (m : XiosMsg) (payload : List UInt8)
    (fence : Option Canvas) (result : SendResult) : CanvasServer :=
  let s := s.sendRecord c.conn m (payload.take canvasTextMax) fence result
  match result with
  | .sent | .wouldBlock => s
  | .failed _ => s.dropClientFd c.fd

def makeMsg (type windowId : BitVec 32) : XiosMsg :=
  { magic := msgMagic, type, windowId }

def frameMsg (e : CanvasEntry) : XiosMsg :=
  { makeMsg msgNativeFrame e.windowId with
    length := BitVec.ofNat 32 e.frameToken.length
    a := e.frameEventValue.extractLsb' 0 32
    b := e.frameEventValue.extractLsb' 32 32 }

def sendLatestFrame (s : CanvasServer) (k : Fin maxCanvasWindows) (c : CanvasClient)
    (result : SendResult) : CanvasServer :=
  let e := s.windows k
  if e.frameValid = false ∨ e.frameGeneration ≠ e.canvasGeneration then s
  else s.sendMsg c (frameMsg e) e.frameToken (some e.canvas) result

def replayWindowsForClient (s : CanvasServer) (appId : List UInt8) : CanvasServer :=
  { s with
    windows := fun k =>
      let e := s.windows k
      if e.windowId = 0#32 ∨ e.surface = false ∨ e.appId ≠ appId then e
      else { e with deliverPending := .new } }

def canvasAlloc (w h : BitVec 32) (stride : Option (BitVec 32)) : Option (BitVec 32) :=
  if w.toInt ≤ 0 ∨ h.toInt ≤ 0 ∨ (2 ^ 31 - 1) / 4 < w.toInt then none else stride

def create (s : CanvasServer) (id w h : BitVec 32) (stride : Option (BitVec 32)) : CanvasServer :=
  if id = 0#32 then s
  else
    match s.windowAlloc id with
    | none => s
    | some (k, s) =>
      let e := s.windows k
      match canvasAlloc w h stride with
      | none => s.setWindow k { e with surface := false }
      | some stride =>
        { s with
          surfaces := s.surfaces + 1
          created := if e.announced then some id else s.created }.setWindow k
          { e with
            surface := true
            number := s.surfaces + 1
            w
            h
            stride
            canvasGeneration := SurfaceServer.nextSerial e.canvasGeneration
            frameValid := false
            frameGeneration := 0#64
            frameEventValue := 0#64
            frameToken := [] }

def announce (s : CanvasServer) (id : BitVec 32) (appId title : List UInt8) (flags : BitVec 32) :
    CanvasServer :=
  match s.windowFind id with
  | none => s
  | some k =>
    if (s.windows k).surface = false then s
    else
      let e := { s.windows k with
        appId := appId.take canvasTextMax, title := title.take canvasTextMax, flags }
      match s.clientForApp e.appId with
      | none => s.setWindow k e
      | some _ => s.setWindow k { e with deliverPending := .new }

/-- Tell the host of a window about its new canvas. -/
def geom (s : CanvasServer) (id : BitVec 32) : CanvasServer :=
  match s.windowFind id with
  | none => s
  | some k =>
    let e := s.windows k
    if e.surface = false then s
    else
      match s.clientForApp e.appId with
      | none => s
      | some _ =>
        -- An announcement that waits tells of the new canvas as well.
        if e.deliverPending = .new then s
        else s.setWindow k { e with deliverPending := if e.announced then .geom else .new }

/-- Tell the host of a window about a complete frame. -/
def notifyFrame (s : CanvasServer) (id : BitVec 32) (token : List UInt8) (eventValue : BitVec 64)
    (result : SendResult) : CanvasServer :=
  if token.length ≠ gpuFenceTokenSize ∨ eventValue = 0#64 then s
  else
    match s.windowFind id with
    | none => s
    | some k =>
      let e := s.windows k
      if e.surface = false then s
      else
        let s := s.setWindow k { e with
          frameGeneration := e.canvasGeneration
          frameEventValue := eventValue
          frameToken := token
          frameValid := true }
        if e.announced = false ∨ e.deliverPending ≠ .none then s
        else
          match s.clientForApp e.appId with
          | none => s
          | some c => s.sendLatestFrame k c result

def title (s : CanvasServer) (id : BitVec 32) (text : List UInt8) (result : SendResult) :
    CanvasServer :=
  match s.windowFind id with
  | none => s
  | some k =>
    let e := s.windows k
    let text := text.take canvasTextMax
    let s := s.setWindow k { e with title := text }
    if e.announced = false then s
    else
      match s.clientForApp e.appId with
      | none => s
      | some c =>
        s.sendMsg c
          { makeMsg msgWindowTitle id with length := BitVec.ofNat 32 text.length } text none result

def sendGone (s : CanvasServer) (id : BitVec 32) (appId : List UInt8) (result : SendResult) :
    CanvasServer :=
  match s.clientForApp appId with
  | none => s
  | some c =>
    let s := s.sendMsg c (makeMsg msgWindowGone id) [] none result
    -- A host that does not read would keep the window.
    if result = .wouldBlock then s.dropClientFd c.fd else s

def gone (s : CanvasServer) (id : BitVec 32) (result : SendResult) : CanvasServer :=
  match s.windowFind id with
  | none => s
  | some k => (s.sendGone id (s.windows k).appId result).setWindow k {}

def bindApp (m : XiosMsg) (payload : List UInt8) : Option (List UInt8) :=
  if m.magic ≠ msgMagic ∨ m.type ≠ msgBind ∨ m.windowId ≠ protocolVersion ∨ m.length = 0#32 ∨
      canvasTextMax < m.length.toNat ∨ payload.length < m.length.toNat then none
  else
    let appId := (payload.take m.length.toNat).takeWhile (· ≠ 0)
    if appId = [] ∨ m.d = 0#32 then none else some appId

def handleBind (s : CanvasServer) (fd pid : Nat) (m : XiosMsg) (payload : List UInt8)
    (hello : SendResult) : CanvasServer :=
  match bindApp m payload with
  | none => s
  | some appId =>
    let conn := s.conns
    let s := { s with conns := conn + 1 }.sendRecord conn (makeMsg msgHello protocolVersion) []
      none hello
    if hello ≠ .sent ∨ maxCanvasClients ≤ s.clients.length then s
    else
      let c : CanvasClient := { fd, conn, pid, replyPort := m.d, appId }
      { s with clients := s.clients ++ [c] }.replayWindowsForClient appId

def deliverMsg (e : CanvasEntry) : XiosMsg :=
  { makeMsg (if e.deliverPending = .new then msgWindowNew else msgWindowGeom) e.windowId with
    length := BitVec.ofNat 32 (if e.deliverPending = .new then e.title.length else 0)
    a := e.w
    b := e.h
    c := e.stride
    d := e.flags }

/-- Look at one place, and begin to hand over the canvas there if that waits to be done. -/
def scanWindow (s : CanvasServer) (k : Fin maxCanvasWindows) (result : SendResult) :
    CanvasServer :=
  let e := s.windows k
  let passed := { s with reader := .scanning (k.val + 1) }
  if e.windowId = 0#32 ∨ e.surface = false ∨ e.deliverPending = .none then passed
  else
    match s.clientForApp e.appId with
    | none => passed.setWindow k { e with deliverPending := .none }
    | some c =>
      let s := (s.setWindow k { e with deliverPending := .none }).sendRecord c.conn (deliverMsg e)
        (if e.deliverPending = .new then e.title else []) none result
      { s with
        reader := .handing k.val
          { kind := e.deliverPending, windowId := e.windowId, canvas := e.canvas, fd := c.fd
            conn := c.conn, pid := c.pid, replyPort := c.replyPort, wrote := result = .sent } }

def deliverCanvasPort (s : CanvasServer) (i : Nat) (h : Handoff) (ok : Bool) : CanvasServer :=
  { s with
    reader := .handing i { h with delivered := some ok }
    log := if ok then Function.update s.log h.conn (.port h.windowId h.canvas :: s.log h.conn)
      else s.log }

def markAnnounced (s : CanvasServer) (k : Fin maxCanvasWindows) (h : Handoff) : CanvasServer :=
  if h.kind = .new then
    { s with
      home := if h.ok then Function.update s.home h.windowId (some h.conn) else s.home }.setWindow k
      { s.windows k with announced := h.ok }
  else s

/-- Note how a hand-over has ended, and tell of the frame that waited for it. -/
def noteHandoff (s : CanvasServer) (h : Handoff) (result : SendResult) : CanvasServer :=
  match s.windowFind h.windowId with
  | none => s
  | some k =>
    if (s.windows k).canvasGeneration ≠ h.canvas.generation then s
    else
      let s := s.markAnnounced k h
      if h.ok then
        match s.clients.find? fun c => c.fd = h.fd with
        | none => s
        | some c => s.sendLatestFrame k c result
      else s

def finishHandoff (s : CanvasServer) (i : Nat) (h : Handoff) (result : SendResult) :
    CanvasServer :=
  let s := s.noteHandoff h result
  let s := if h.wrote then s else s.dropClientFd h.fd
  { s with reader := .scanning (i + 1) }

/-- The calls of the compositor and the steps of the reader. -/
inductive Event where
  -- Calls of the compositor, with how their writes end.
  | create (id w h : BitVec 32) (stride : Option (BitVec 32))
  | announce (id : BitVec 32) (appId title : List UInt8) (flags : BitVec 32)
  | geom (id : BitVec 32)
  | notifyFrame (id : BitVec 32) (token : List UInt8) (eventValue : BitVec 64) (result : SendResult)
  | title (id : BitVec 32) (text : List UInt8) (result : SendResult)
  | gone (id : BitVec 32) (result : SendResult)
  -- A host connects, and how greeting it ends.
  | bind (fd pid : Nat) (m : XiosMsg) (payload : List UInt8) (hello : SendResult)
  -- A host has closed its connection or sent something wrong.
  | hostGone (fd : Nat)
  -- The reader begins to look for canvases to hand over.
  | drain
  -- It looks at the next place, and how writing a record ends.
  | scan (result : SendResult)
  -- It has sent a port, or could not.
  | deliver (ok : Bool)
  -- It takes the lock again, and how writing a record ends.
  | finish (result : SendResult)

def next (s : CanvasServer) : Event → CanvasServer
  | .create id w h stride => s.create id w h stride
  | .announce id appId title flags => { s with created := none }.announce id appId title flags
  | .geom id => { s with created := none }.geom id
  | .notifyFrame id token eventValue result => s.notifyFrame id token eventValue result
  | .title id text result => s.title id text result
  | .gone id result => s.gone id result
  | .bind fd pid m payload hello => s.handleBind fd pid m payload hello
  | .hostGone fd => s.dropClientFd fd
  | .drain => { s with reader := .scanning 0 }
  | .scan result =>
    match s.reader with
    | .scanning i =>
      if inside : i < maxCanvasWindows then s.scanWindow ⟨i, inside⟩ result
      else { s with reader := .polling }
    | _ => s
  | .deliver ok =>
    match s.reader with
    | .handing i h => s.deliverCanvasPort i h ok
    | _ => s
  | .finish result =>
    match s.reader with
    | .handing i h => s.finishHandoff i h result
    | _ => s

/-- The reader is about to look at a place. -/
def Scanning : ReaderPhase → Prop
  | .scanning _ => True
  | _ => False

/-- A record has been written whose port has not been sent. -/
def Sending : ReaderPhase → Prop
  | .handing _ h => h.wrote = true ∧ h.delivered = none
  | _ => False

/-- The reader has sent a port, or has given up. -/
def Sending.Over : ReaderPhase → Prop
  | .handing _ h => h.wrote = false ∨ h.delivered.isSome
  | _ => False

/--
What the two threads may do next.

The canvas of an announced window is passed on right after it was replaced.
-/
def Allowed (s : CanvasServer) : Event → Prop
  | .create .. | .notifyFrame .. | .title .. | .gone .. => s.created = none
  | .announce id .. | .geom id => s.created = none ∨ s.created = some id
  | .bind fd .. => s.reader = .polling ∧ ∀ c ∈ s.clients, c.fd ≠ fd
  | .hostGone _ | .drain => s.reader = .polling
  | .scan _ => Scanning s.reader
  | .deliver _ => Sending s.reader
  | .finish _ => Sending.Over s.reader

/-- All interleavings of the compositor and the reader. -/
def machine : Machine CanvasServer Event where
  start s := s = {}
  enabled := Allowed
  next := next

end CanvasServer

end Xios
