import Xios.Clipboard.Bridge

/-! What the clipboard bridge sends to its hosts, and what they make of it. -/

namespace Xios

/-- A clipboard record that a host is sent. -/
structure ClipRecord where
  kind : ClipKind
  gen : BitVec 32
  data : List UInt8
  deriving DecidableEq

/-- What a host has made of the records it received. -/
structure ClipView where
  -- Generation of the last record, zero if there was none.
  lastGen : BitVec 32 := 0#32
  items : ClipKind → Option (List UInt8) := fun _ => none

namespace ClipView

def base (v : ClipView) (gen : BitVec 32) : ClipKind → Option (List UInt8) :=
  if gen = v.lastGen then v.items else fun _ => none

/-- Take over a record, as the comment on clipboard records in `xios_surface.h` asks for. -/
def apply (v : ClipView) (r : ClipRecord) : ClipView where
  lastGen := r.gen
  items :=
    -- A record of kind zero clears the clipboard.
    if r.kind = 0 then fun _ => none
    else Function.update (v.base r.gen) r.kind (some r.data)

end ClipView

/-- The way from the bridge to one host. -/
structure HostEnd where
  -- Records that have arrived, oldest first.
  received : List ClipRecord := []
  -- Records that wait in the outbound queue, oldest first.
  queue : List ClipRecord := []
  deriving DecidableEq

namespace HostEnd

def view (h : HostEnd) : ClipView :=
  h.received.foldl ClipView.apply {}

/-- What the host will have made of it once everything has arrived. -/
def final (h : HostEnd) : ClipView :=
  (h.received ++ h.queue).foldl ClipView.apply {}

def txRecord (h : HostEnd) (r : ClipRecord) : HostEnd :=
  { h with queue := h.queue ++ [r] }

def txFlush (h : HostEnd) (n : Nat) : HostEnd :=
  ⟨h.received ++ h.queue.take n, h.queue.drop n⟩

end HostEnd

/-- The bridge with the ways to its hosts. -/
structure ClipHosts where
  bridge : ClipBridge := {}
  ends : Fin clipMaxClients → HostEnd := fun _ => {}
  -- A record was broadcast since the current set was begun, which the code does not keep.
  announced : Bool := true

namespace ClipHosts

def withBridge (s : ClipHosts) (f : ClipBridge → ClipBridge) : ClipHosts :=
  { s with bridge := f s.bridge }

def selectionBegin (s : ClipHosts) (origin : CopyOrigin) : ClipHosts :=
  { s with bridge := s.bridge.selectionBegin origin, announced := false }

def hears (s : ClipHosts) (skip : Option (Fin clipMaxClients)) (i : Fin clipMaxClients) : Bool :=
  (s.bridge.clients i).any ClipClient.handshaken && some i != skip

/-- Send a record of the current set to all hosts but one. -/
def broadcast (s : ClipHosts) (kind : ClipKind) (data : List UInt8)
    (lost : Fin clipMaxClients → Bool) (skip : Option (Fin clipMaxClients)) : ClipHosts where
  bridge := s.bridge.broadcast lost skip
  ends i :=
    if s.hears skip i then (s.ends i).txRecord ⟨kind, s.bridge.gen, data⟩ else s.ends i
  announced := true

def snapshot (b : ClipBridge) (kinds : List ClipKind) : List ClipRecord :=
  kinds.filterMap fun kind => (b.items kind).map fun item => ⟨kind, b.gen, item.data⟩

def replaySnapshot (s : ClipHosts) (i : Fin clipMaxClients) : ClipHosts :=
  { s with
    ends := Function.update s.ends i
      ((snapshot s.bridge [1, 2, 3, 4]).foldl HostEnd.txRecord (s.ends i)) }

def publish (s : ClipHosts) (kind : ClipKind) (data : List UInt8) (origin : CopyOrigin)
    (stored : Bool) (lost : Fin clipMaxClients → Bool) : ClipHosts :=
  if (s.bridge.items kind).map ClipItem.data = some data then s
  -- An item that cannot be stored is not sent either.
  else if kind = 0 ∨ clipItemMax < data.length ∨ stored = false then s
  else (s.withBridge (·.itemStore kind data origin stored)).broadcast kind data lost none

/-- Store an item of a host, and send it to the others whether or not there was memory for it. -/
def relay (s : ClipHosts) (i : Fin clipMaxClients) (kind : ClipKind) (data : List UInt8)
    (origin : CopyOrigin) (stored : Bool) (lost : Fin clipMaxClients → Bool) : ClipHosts :=
  (s.withBridge (·.itemStore kind data origin stored)).broadcast kind data lost (some i)

/-- One complete record from a host, refused if it breaks the protocol. -/
def rxDispatch (s : ClipHosts) (i : Fin clipMaxClients) (client : ClipClient) (m : XiosMsg)
    (payload : List UInt8) (memory stored : Bool) (lost : Fin clipMaxClients → Bool) :
    Option ClipHosts :=
  if client.handshaken = false ∨ m.windowId ≠ 0#32 ∨ m.b = 0#32 ∨ m.c ≠ 0#32 ∨ m.d ≠ 0#32 then none
  else if known : m.a.toNat < 5 then
    let kind : ClipKind := ⟨m.a.toNat, known⟩
    let origin := CopyOrigin.host client.conn m.b
    let first := decide (m.b ≠ client.lastRxGen)
    let s := s.withBridge (·.setClient i (some { client with lastRxGen := m.b }))
    if kind = 0 then
      if m.length ≠ 0#32 then none
      else
        let s := (s.selectionBegin origin).broadcast 0 [] lost (some i)
        some (s.withBridge (·.clipboardFromApp 0 [] true memory))
    else
      -- A generation already seen from this host continues the current set.
      let s := if first then s.selectionBegin origin else s
      let s := s.relay i kind payload origin stored lost
      some (s.withBridge (·.clipboardFromApp kind payload first memory))
  else none

def clientDrop (s : ClipHosts) (i : Fin clipMaxClients) : ClipHosts :=
  s.withBridge (·.setClient i none)

def receive (s : ClipHosts) (i : Fin clipMaxClients) (m : XiosMsg) (payload : List UInt8)
    (room memory stored : Bool) (lost : Fin clipMaxClients → Bool) : ClipHosts :=
  match s.bridge.clients i with
  | none => s
  | some client =>
    if m.magic ≠ msgMagic then s.clientDrop i
    else if client.handshaken = false then
      if m.isExactHello && !lost i then
        (s.withBridge (·.setClient i (some { client with handshaken := true }))).replaySnapshot i
      else s.clientDrop i
    else if m.type ≠ msgClipboard ∨ m.windowId ≠ 0#32 ∨ clipItemMax < m.length.toNat ∨
        room = false then
      s.clientDrop i
    else
      match s.rxDispatch i client m payload memory stored lost with
      | some s => s
      | none => s.clientDrop i

/-- Accept a host if a place is free, and begin its way with nothing. -/
def listenDispatch (s : ClipHosts) : ClipHosts :=
  match (List.finRange clipMaxClients).find? fun i => (s.bridge.clients i).isNone with
  | none => s
  | some i => { s with bridge := s.bridge.listenDispatch, ends := Function.update s.ends i {} }

def clipSetText (s : ClipHosts) (text : List UInt8) (sendToApp memory stored : Bool)
    (lost : Fin clipMaxClients → Bool) : ClipHosts :=
  let origin := CopyOrigin.selection s.bridge.selections
  let text := text.take clipItemMax
  let (kept, bridge) := s.bridge.newSelection.clipClearItems.clipItemSet Mime.utf8 text memory
  let s := { s with bridge }
  if kept && sendToApp then (s.selectionBegin origin).publish 1 text origin stored lost else s

/-- Take over a selection whose owner delivers each representation through a pipe. -/
def clipIngestSource (s : ClipHosts) (mimes : List (Mime × Bool)) : ClipHosts :=
  { s with bridge := s.bridge.clipIngestSource mimes, announced := false }

def sourceReadDone (s : ClipHosts) (index : Nat) (data : List UInt8) (keep memory stored : Bool)
    (lost : Fin clipMaxClients → Bool) : ClipHosts :=
  match s.bridge.readers[index]? with
  | none => s
  | some reader =>
    let bridge := { s.bridge with readers := s.bridge.readers.eraseIdx index }
    if keep then
      let (kept, bridge) := bridge.clipItemSet reader.mime data memory
      let s := { s with bridge }
      if kept && reader.mime.kind != 0 then
        s.publish reader.mime.kind data (.selection reader.selection) stored lost
      else s
    else { s with bridge }

/-- Begin a set without items, and tell all hosts. -/
def selectionClear (s : ClipHosts) (origin : CopyOrigin) (lost : Fin clipMaxClients → Bool) :
    ClipHosts :=
  (s.selectionBegin origin).broadcast 0 [] lost none

def dataDeviceSetSelection (s : ClipHosts) (source : Option (List (Mime × Bool)))
    (lost : Fin clipMaxClients → Bool) : ClipHosts :=
  match source with
  | none =>
    (s.withBridge (·.newSelection.clipClearItems)).selectionClear
      (.selection s.bridge.selections) lost
  | some [] => s
  | some mimes => s.clipIngestSource mimes

def dataControlSetSelection (s : ClipHosts) (source : Option (List (Mime × Bool)))
    (memory stored : Bool) (lost : Fin clipMaxClients → Bool) : ClipHosts :=
  match source with
  | none => s.clipSetText [] true memory stored lost
  | some [] => s.withBridge (·.clipClearItems)
  | some mimes => s.clipIngestSource mimes

/-- What can happen to the clipboard and on the ways to the hosts. -/
inductive Event where
  | connect
  -- A host's connection ends.
  | hangUp (i : Fin clipMaxClients)
  -- Some records arrive at a host.
  | flush (i : Fin clipMaxClients) (n : Nat)
  -- A host sends a record, for which there may be room, and memory in both stores.
  | receive (i : Fin clipMaxClients) (m : XiosMsg) (payload : List UInt8)
      (room memory stored : Bool) (lost : Fin clipMaxClients → Bool)
  | setText (text : List UInt8) (sendToApp memory stored : Bool)
      (lost : Fin clipMaxClients → Bool)
  -- A client sets the selection.
  | dataDevice (source : Option (List (Mime × Bool))) (lost : Fin clipMaxClients → Bool)
  -- A clipboard manager sets the selection.
  | dataControl (source : Option (List (Mime × Bool))) (memory stored : Bool)
      (lost : Fin clipMaxClients → Bool)
  -- A pipe has delivered all it will.
  | readDone (index : Nat) (data : List UInt8) (keep memory stored : Bool)
      (lost : Fin clipMaxClients → Bool)

def next (s : ClipHosts) : Event → ClipHosts
  | .connect => s.listenDispatch
  | .hangUp i => s.clientDrop i
  | .flush i n => { s with ends := Function.update s.ends i ((s.ends i).txFlush n) }
  | .receive i m payload room memory stored lost => s.receive i m payload room memory stored lost
  | .setText text sendToApp memory stored lost => s.clipSetText text sendToApp memory stored lost
  | .dataDevice source lost => s.dataDeviceSetSelection source lost
  | .dataControl source memory stored lost => s.dataControlSetSelection source memory stored lost
  | .readDone index data keep memory stored lost =>
    s.sourceReadDone index data keep memory stored lost

/-- A record arrives with exactly the payload its header announces. -/
def Allowed : Event → Prop
  | .receive _ m payload _ _ _ _ => payload.length = m.length.toNat
  | _ => True

/-- All histories of the clipboard and its hosts, from the start of the bridge on. -/
def machine : Machine ClipHosts Event where
  start s := s = {}
  enabled _ := Allowed
  next := next

/-- The current set is what a host copied. -/
def Author (s : ClipHosts) (client : ClipClient) : Prop :=
  ∃ gen, s.bridge.setOrigin = some (.host client.conn gen)

/-- A host that was sent everything, and is not the author itself, has the items of the store. -/
def Converged (s : ClipHosts) : Prop :=
  ∀ i client, s.bridge.clients i = some client → client.handshaken = true →
    (s.ends i).queue = [] → s.announced = true → ¬s.Author client →
    ∀ kind, (s.ends i).view.items kind = (s.bridge.items kind).map ClipItem.data

end ClipHosts

end Xios
