import Xios.Clipboard.HostsLaws

/-! How far the store of the bridge and the store of the compositor describe the same selection. -/

namespace Xios

/-- A record of a connected host that the bridge takes over, if there is room for its payload. -/
def ClipClient.Delivers (client : ClipClient) (m : XiosMsg) (room : Bool) : Prop :=
  m.magic = msgMagic ∧ client.handshaken = true ∧ m.type = msgClipboard ∧ m.windowId = 0#32 ∧
    m.length.toNat ≤ clipItemMax ∧ room = true ∧ m.b ≠ 0#32 ∧ m.c = 0#32 ∧ m.d = 0#32 ∧
    m.a.toNat < 5 ∧ (m.a.toNat = 0 → m.length = 0#32)
  deriving Decidable

/-- A record begins a new copy. -/
def ClipClient.BeginsSet (client : ClipClient) (m : XiosMsg) : Prop :=
  m.a.toNat = 0 ∨ m.b ≠ client.lastRxGen
  deriving Decidable

def ClipHosts.taken (s : ClipHosts) (i : Fin clipMaxClients) (m : XiosMsg) (room : Bool) :
    Option ClipClient :=
  (s.bridge.clients i).filter fun client => client.Delivers m room

/-- The type under which the compositor stores the payload of a record. -/
def XiosMsg.clipMime (m : XiosMsg) : Option Mime :=
  if known : m.a.toNat < 5 then Mime.ofKind ⟨m.a.toNat, known⟩ else none

namespace ClipBridge

/-- The compositor has an item of a type. -/
def Holds (s : ClipBridge) (mime : Mime) : Prop :=
  ∃ entry ∈ s.clipItems, entry.1 = mime
  deriving Decidable

/-- The compositor has a place for an item of a type. -/
def HasRoom (s : ClipBridge) (mime : Mime) : Prop :=
  s.Holds mime ∨ s.clipItems.length < maxClipMimes
  deriving Decidable

/-- The compositor has the bytes of some kind under another type as well. -/
def Spares (s : ClipBridge) (mime : Mime) : Prop :=
  ∀ item ∈ s.items mime.kind,
    ∃ entry ∈ s.clipItems, entry.1 ≠ mime ∧ entry.1.kind = mime.kind ∧ entry.2 = item.data
  deriving Decidable

/-- The bridge has no items. -/
def Empty (s : ClipBridge) : Prop :=
  ∀ kind, s.items kind = none
  deriving Decidable

/-- The two stores describe the same selection. -/
structure Described (s : ClipBridge) : Prop where
  -- The compositor has the bytes of every item of the bridge under a type of its kind.
  backed : ∀ kind, ∀ item ∈ s.items kind,
    ∃ entry ∈ s.clipItems, entry.1.kind = kind ∧ entry.2 = item.data
  -- The bridge has no item of a kind that the compositor has none of.
  absent : ∀ kind, (∀ entry ∈ s.clipItems, entry.1.kind ≠ kind) → s.items kind = none

end ClipBridge

/-- The clipboard, with what its items stem from. -/
structure ClipStores where
  -- Both stores and the hosts.
  hosts : ClipHosts := {}
  -- The copy that was selected last, if that was not an empty one, which the code does not keep.
  latest : Option CopyOrigin := none
  -- The copy that the compositor's item of a type stems from, which the code does not keep either.
  origin : Mime → Option CopyOrigin := fun _ => none

namespace ClipStores

def latestAfter (s : ClipStores) : ClipHosts.Event → Option CopyOrigin
  | .receive i m _ room _ _ _ =>
    match s.hosts.taken i m room with
    | some client => if client.BeginsSet m then some (.host client.conn m.b) else s.latest
    | none => s.latest
  | .dataDevice (some []) _ | .dataControl (some []) _ _ _ => none
  | .setText .. | .dataDevice .. | .dataControl .. => some (.selection s.hosts.bridge.selections)
  | .connect | .hangUp _ | .flush .. | .readDone .. => s.latest

def originAfter (s : ClipStores) : ClipHosts.Event → Mime → Option CopyOrigin
  | .receive i m _ room _ _ _ =>
    match s.hosts.taken i m room, m.clipMime with
    | some client, some mime => Function.update s.origin mime (some (.host client.conn m.b))
    | _, _ => s.origin
  | .setText .. | .dataControl none _ _ _ =>
    Function.update s.origin Mime.utf8 (some (.selection s.hosts.bridge.selections))
  | .readDone index _ keep _ _ _ =>
    match s.hosts.bridge.readers[index]? with
    | some reader =>
      if keep then Function.update s.origin reader.mime (some (.selection reader.selection))
      else s.origin
    | none => s.origin
  | .connect | .hangUp _ | .flush .. | .dataDevice .. | .dataControl (some _) _ _ _ => s.origin

def next (s : ClipStores) (event : ClipHosts.Event) : ClipStores where
  hosts := s.hosts.next event
  latest := s.latestAfter event
  origin := s.originAfter event

/-- A pipe is given up when it has delivered too much. -/
def Delivered : ClipHosts.Event → Prop
  | .readDone _ data keep _ _ _ => keep = true → data.length ≤ clipItemMax
  | _ => True

/-- All histories of the clipboard, from the start of the bridge on. -/
def machine : Machine ClipStores ClipHosts.Event where
  start s := s = {}
  enabled _ event := ClipHosts.Allowed event ∧ Delivered event
  next := next

/-- All items of the compositor's store stem from the copy that was selected last. -/
def Fresh (s : ClipStores) : Prop :=
  ∀ entry ∈ s.hosts.bridge.clipItems, s.latest.isSome = true ∧ s.origin entry.1 = s.latest

/-- The pipes still open belong to the copy that was selected last. -/
def Reading (s : ClipStores) : Prop :=
  ∀ reader ∈ s.hosts.bridge.readers, s.latest = some (.selection reader.selection)

/--
The stores stay together.

Empty selections come when there is nothing to replace, a host continues only what was selected
last, and what one store takes over the other one can take over, too.
-/
def Condition (s : ClipStores) : ClipHosts.Event → Prop
  | .receive i m _ room memory stored _ =>
    ∀ client ∈ s.hosts.taken i m room, ∀ mime ∈ m.clipMime,
      if client.BeginsSet m then stored = true → memory = true
      else s.latest = some (.host client.conn m.b) ∧
        if stored then s.hosts.bridge.HasRoom mime ∧ memory = true
        else s.hosts.bridge.Spares mime
  | .setText _ sendToApp memory _ _ =>
    sendToApp = true ∧ memory = true ∨ s.hosts.bridge.Empty
  | .dataDevice (some []) _ =>
    s.hosts.bridge.clipItems = [] ∧ s.hosts.bridge.readers = []
  | .dataControl none memory _ _ => memory = true ∨ s.hosts.bridge.Empty
  | .dataControl (some []) _ _ _ => s.hosts.bridge.Empty
  | .readDone index _ keep memory stored _ =>
    ∀ reader ∈ s.hosts.bridge.readers[index]?, keep = true → reader.mime.isClip = true →
      memory = true ∧ stored = true ∨ s.hosts.bridge.Spares reader.mime
  | _ => True

instance decidableCondition (s : ClipStores) (event : ClipHosts.Event) :
    Decidable (s.Condition event) := by
  unfold Condition
  induction event using ClipHosts.Event.casesOn with
  | dataDevice source | dataControl source =>
    induction source using Option.casesOn with
    | none => infer_instance
    | some mimes => induction mimes using List.casesOn <;> infer_instance
  | _ => infer_instance

end ClipStores

end Xios
