import Xios.Lib.Machine
import Xios.Protocol.Message

/-! The clipboard bridge of `iosc-clipboard-bridge.c` and the selections `iosc.c` feeds into it. -/

namespace Xios

def msgClipboard : BitVec 32 := 0x04#32

abbrev clipMaxClients : Nat := 4

instance clipClients_nonempty : NeZero clipMaxClients := ⟨by decide⟩

def clipItemMax : Nat := 16 * 1024 * 1024

/-- Items the compositor keeps for its own clients. -/
def maxClipMimes : Nat := 16

/-- The kinds of items the bridge keeps, with zero for a cleared clipboard. -/
abbrev ClipKind := Fin 5

instance clipKinds_nonempty : NeZero 5 := ⟨by decide⟩

instance lawfulBEq_clipKind : LawfulBEq ClipKind := inferInstance

/-- MIME types, as far as the code tells them apart. -/
inductive Mime where
  -- Exactly `text/plain`.
  | plain
  | plainWith (parameters : String)
  -- `text/plain` and anything else.
  | plainOther (rest : String)
  -- The selection target `UTF8_STRING`.
  | utf8String
  | uriList
  | png
  | html
  | other (name : String)
  deriving DecidableEq, Repr

namespace Mime

/-- The type under which the compositor stores text. -/
def utf8 : Mime := .plainWith "charset=utf-8"

def kind : Mime → ClipKind
  | .uriList => 2
  | .png => 3
  | .html => 4
  | .plain | .plainWith _ | .plainOther _ | .utf8String => 1
  | .other _ => 0

def isText : Mime → Bool
  | .plain | .plainWith _ | .utf8String => true
  | _ => false

def isClip : Mime → Bool
  | .uriList | .png | .html => true
  | mime => mime.isText

def ofKind (kind : ClipKind) : Option Mime :=
  match kind with
  | 1 => some utf8
  | 2 => some .uriList
  | 3 => some .png
  | 4 => some .html
  | _ => none

end Mime

/-- The copy an item stems from. -/
inductive CopyOrigin where
  -- One generation of one host's connection.
  | host (conn : Nat) (gen : BitVec 32)
  -- One selection made in the compositor.
  | selection (number : Nat)
  deriving DecidableEq

/-- A connected host. -/
structure ClipClient where
  -- Its connection, numbered since the start.
  conn : Nat
  -- Its opening record has been received.
  handshaken : Bool := false
  -- Generation of the last record received, zero if there was none.
  lastRxGen : BitVec 32 := 0#32
  deriving DecidableEq

/-- An item of the bridge's store, with the copy it stems from. -/
structure ClipItem where
  data : List UInt8
  origin : CopyOrigin
  deriving DecidableEq

/-- A pipe through which a selection's owner delivers one representation. -/
structure SourceRead where
  mime : Mime
  selection : Nat
  deriving DecidableEq

/--
The bridge and the compositor's clipboard.

The connection numbers, the selection numbers and the origin of the current set are not kept by the
code; they say which copy everything stems from.
-/
structure ClipBridge where
  -- Connected hosts.
  clients : Fin clipMaxClients → Option ClipClient := fun _ => none
  -- The current set, one item for each kind.
  items : ClipKind → Option ClipItem := fun _ => none
  -- Outbound generation.
  gen : BitVec 32 := 0#32
  -- The compositor's own copy of the clipboard.
  clipItems : List (Mime × List UInt8) := []
  -- Pipes of the current selection that are still open, newest first.
  readers : List SourceRead := []
  -- The copy the current set was begun for.
  setOrigin : Option CopyOrigin := none
  -- Number of connections so far.
  conns : Nat := 0
  -- Number of selections so far.
  selections : Nat := 0

namespace ClipBridge

/-- Begin a new set under a new outbound generation, on behalf of some copy. -/
def selectionBegin (s : ClipBridge) (origin : CopyOrigin) : ClipBridge :=
  { s with
    gen := if s.gen + 1#32 = 0#32 then 1#32 else s.gen + 1#32
    items := fun _ => none
    setOrigin := some origin }

def itemStore (s : ClipBridge) (kind : ClipKind) (data : List UInt8) (origin : CopyOrigin)
    (stored : Bool) : ClipBridge :=
  if kind = 0 ∨ clipItemMax < data.length ∨ stored = false then s
  else { s with items := Function.update s.items kind (some ⟨data, origin⟩) }

/-- Disconnect every host to which a record could not be sent. -/
def broadcast (s : ClipBridge) (lost : Fin clipMaxClients → Bool)
    (skip : Option (Fin clipMaxClients)) : ClipBridge :=
  { s with
    clients := fun i =>
      match s.clients i with
      | some client =>
        if client.handshaken && some i != skip && lost i then none else some client
      | none => none }

def publish (s : ClipBridge) (kind : ClipKind) (data : List UInt8) (origin : CopyOrigin)
    (stored : Bool) (lost : Fin clipMaxClients → Bool) : ClipBridge :=
  if (s.items kind).map ClipItem.data = some data then s
  else if kind = 0 ∨ clipItemMax < data.length ∨ stored = false then s
  else (s.itemStore kind data origin stored).broadcast lost none

/-- Start the compositor's clipboard over, abandoning the pipes of the old selection. -/
def clipClearItems (s : ClipBridge) : ClipBridge :=
  { s with readers := [], clipItems := [] }

/-- Keep an item in the compositor's clipboard, and report whether that worked. -/
def clipItemSet (s : ClipBridge) (mime : Mime) (data : List UInt8) (memory : Bool) :
    Bool × ClipBridge :=
  if !mime.isClip then (false, s)
  else
    let data := data.take clipItemMax
    if s.clipItems.any fun item => item.1 = mime then
      if memory then
        (true, { s with
          clipItems := s.clipItems.map fun item => if item.1 = mime then (mime, data) else item })
      -- The old bytes are gone before the new ones are allocated.
      else (false, { s with
        clipItems := s.clipItems.map fun item => if item.1 = mime then (mime, []) else item })
    else if maxClipMimes ≤ s.clipItems.length ∨ memory = false then (false, s)
    else (true, { s with clipItems := s.clipItems ++ [(mime, data)] })

/-- The compositor takes over a record from a host. -/
def clipboardFromApp (s : ClipBridge) (kind : ClipKind) (data : List UInt8) (first : Bool)
    (memory : Bool) : ClipBridge :=
  let s := if first then s.clipClearItems else s
  if kind = 0 then s
  else
    match Mime.ofKind kind with
    | none => s
    | some mime => (s.clipItemSet mime data memory).2

def setClient (s : ClipBridge) (i : Fin clipMaxClients) (client : Option ClipClient) :
    ClipBridge :=
  { s with clients := Function.update s.clients i client }

/-- One complete record from a host, refused if it breaks the protocol. -/
def rxDispatch (s : ClipBridge) (i : Fin clipMaxClients) (client : ClipClient) (m : XiosMsg)
    (payload : List UInt8) (memory stored : Bool) (lost : Fin clipMaxClients → Bool) :
    Option ClipBridge :=
  if client.handshaken = false ∨ m.windowId ≠ 0#32 ∨ m.b = 0#32 ∨ m.c ≠ 0#32 ∨ m.d ≠ 0#32 then none
  else if known : m.a.toNat < 5 then
    let kind : ClipKind := ⟨m.a.toNat, known⟩
    let origin := CopyOrigin.host client.conn m.b
    let first := decide (m.b ≠ client.lastRxGen)
    let s := s.setClient i (some { client with lastRxGen := m.b })
    if kind = 0 then
      if m.length ≠ 0#32 then none
      else
        let s := (s.selectionBegin origin).broadcast lost (some i)
        some (s.clipboardFromApp 0 [] true memory)
    else
      -- A generation already seen from this host continues the current set.
      let s := if first then s.selectionBegin origin else s
      let s := (s.itemStore kind payload origin stored).broadcast lost (some i)
      some (s.clipboardFromApp kind payload first memory)
  else none

def receive (s : ClipBridge) (i : Fin clipMaxClients) (m : XiosMsg) (payload : List UInt8)
    (room memory stored : Bool) (lost : Fin clipMaxClients → Bool) : ClipBridge :=
  match s.clients i with
  | none => s
  | some client =>
    if m.magic ≠ msgMagic then s.setClient i none
    else if client.handshaken = false then
      -- The snapshot is replayed to the new host, which is lost if that fails.
      if m.isExactHello && !lost i then s.setClient i (some { client with handshaken := true })
      else s.setClient i none
    else if m.type ≠ msgClipboard ∨ m.windowId ≠ 0#32 ∨ clipItemMax < m.length.toNat ∨
        room = false then
      s.setClient i none
    else
      match s.rxDispatch i client m payload memory stored lost with
      | some s => s
      | none => s.setClient i none

def listenDispatch (s : ClipBridge) : ClipBridge :=
  match (List.finRange clipMaxClients).find? fun i => (s.clients i).isNone with
  | none => s
  | some i => { s.setClient i (some { conn := s.conns }) with conns := s.conns + 1 }

def newSelection (s : ClipBridge) : ClipBridge :=
  { s with selections := s.selections + 1 }

def clipSetText (s : ClipBridge) (text : List UInt8) (sendToApp memory stored : Bool)
    (lost : Fin clipMaxClients → Bool) : ClipBridge :=
  let origin := CopyOrigin.selection s.selections
  let text := text.take clipItemMax
  let (kept, s) := s.newSelection.clipClearItems.clipItemSet Mime.utf8 text memory
  if kept && sendToApp then (s.selectionBegin origin).publish 1 text origin stored lost else s

def openReaders (selection : Nat) : List (Mime × Bool) → List SourceRead
  | [] => []
  | (mime, piped) :: rest =>
    openReaders selection rest ++ (if piped then [⟨mime, selection⟩] else [])

/-- Take over a selection whose owner delivers each representation through a pipe. -/
def clipIngestSource (s : ClipBridge) (mimes : List (Mime × Bool)) : ClipBridge :=
  let selection := s.selections
  let s := s.newSelection.clipClearItems.selectionBegin (.selection selection)
  { s with readers := openReaders selection mimes }

def sourceReadDone (s : ClipBridge) (index : Nat) (data : List UInt8) (keep memory stored : Bool)
    (lost : Fin clipMaxClients → Bool) : ClipBridge :=
  match s.readers[index]? with
  | none => s
  | some reader =>
    let s := { s with readers := s.readers.eraseIdx index }
    if keep then
      let (kept, s) := s.clipItemSet reader.mime data memory
      if kept && reader.mime.kind != 0 then
        s.publish reader.mime.kind data (.selection reader.selection) stored lost
      else s
    else s

def dataDeviceSetSelection (s : ClipBridge) (source : Option (List (Mime × Bool)))
    (lost : Fin clipMaxClients → Bool) : ClipBridge :=
  match source with
  | none =>
    let origin := CopyOrigin.selection s.selections
    (s.newSelection.clipClearItems.selectionBegin origin).broadcast lost none
  | some [] => s
  | some mimes => s.clipIngestSource mimes

def dataControlSetSelection (s : ClipBridge) (source : Option (List (Mime × Bool)))
    (memory stored : Bool) (lost : Fin clipMaxClients → Bool) : ClipBridge :=
  match source with
  | none => s.clipSetText [] true memory stored lost
  | some [] => s.clipClearItems
  | some mimes => s.clipIngestSource mimes

/-- What can happen to the clipboard, with whether there is memory in each store. -/
inductive Event where
  | connect
  -- A host's connection ends.
  | hangUp (i : Fin clipMaxClients)
  -- A host sends a record, for whose payload there may be room.
  | receive (i : Fin clipMaxClients) (m : XiosMsg) (payload : List UInt8)
      (room memory stored : Bool) (lost : Fin clipMaxClients → Bool)
  | setText (text : List UInt8) (sendToApp memory stored : Bool)
      (lost : Fin clipMaxClients → Bool)
  -- A client sets the selection.
  | dataDevice (source : Option (List (Mime × Bool))) (lost : Fin clipMaxClients → Bool)
  -- A clipboard manager sets the selection.
  | dataControl (source : Option (List (Mime × Bool))) (memory stored : Bool)
      (lost : Fin clipMaxClients → Bool)
  -- A pipe has delivered all it will.
  | readDone (index : Nat) (data : List UInt8) (keep memory stored : Bool)
      (lost : Fin clipMaxClients → Bool)

def next (s : ClipBridge) : Event → ClipBridge
  | .connect => s.listenDispatch
  | .hangUp i => s.setClient i none
  | .receive i m payload room memory stored lost => s.receive i m payload room memory stored lost
  | .setText text sendToApp memory stored lost => s.clipSetText text sendToApp memory stored lost
  | .dataDevice source lost => s.dataDeviceSetSelection source lost
  | .dataControl source memory stored lost => s.dataControlSetSelection source memory stored lost
  | .readDone index data keep memory stored lost =>
    s.sourceReadDone index data keep memory stored lost

/-- A record arrives with exactly the payload its header announces. -/
def Allowed : Event → Prop
  | .receive _ m payload _ _ _ _ => payload.length = m.length.toNat
  | _ => True

def machine : Machine ClipBridge Event where
  start s := s = {}
  enabled _ := Allowed
  next := next

end ClipBridge

end Xios
