import Mathlib.Data.BitVec
import Mathlib.Logic.Function.Basic
import Xios.Clipboard.Bridge
import Xios.Clipboard.Primary

/-! Drag-and-drop of `iosc.c`: the drag that is going on, the offers it leaves behind, and what its
source is told. -/

namespace Xios

/-- Version from which on the objects of a drag know of actions, and sources of drops. -/
def dndActionsSince : Nat := 3

/-- A live source of data. -/
structure DndSource where
  version : Nat
  -- What may be done with its data, one bit for each.
  actions : BitVec 32 := 0
  -- Types it offers.
  mimes : List String := []
  deriving DecidableEq

/-- A live offer, which forwards to a source. -/
structure DndOffer where
  -- The source, unless it is gone.
  source : Option Nat
  version : Nat
  -- The data was dropped through this offer.
  dropped : Bool := false
  -- The destination is done with it.
  finished : Bool := false
  deriving DecidableEq

/-- A device through which a client learns of drags. -/
structure DataDevice where
  client : Nat
  version : Nat
  deriving DecidableEq

/-- `g_dnd` -/
structure Dnd where
  active : Bool := false
  -- The source, unless the drag is one within its client.
  source : Option Nat := none
  -- The surface and the client where it began, and the surface that follows the pointer.
  origin : Option Nat := none
  originClient : Option Nat := none
  icon : Option Nat := none
  -- The surface below the pointer, and the offer its client has for it.
  focus : Option Nat := none
  offer : Option Nat := none
  -- What the destination has said.
  targetAccepted : Bool := false
  action : BitVec 32 := 0
  -- The button whose release ends the drag.
  button : Nat := 0
  deriving DecidableEq

def Dnd.idle : Dnd :=
  {}

/-- What clients are told about a drag. -/
inductive DndEvent where
  | target (source : Nat) (mime : Option String)
  | send (source : Nat) (mime : String)
  | sourceAction (source : Nat) (action : BitVec 32)
  | cancelled (source : Nat)
  | dropPerformed (source : Nat)
  | finished (source : Nat)
  | dataOffer (client offer : Nat)
  | enter (client surface : Nat) (offer : Option Nat)
  | motion (client : Nat)
  | leave (client : Nat)
  | drop (client : Nat)
  | offerMime (offer : Nat) (mime : String)
  | sourceActions (offer : Nat) (actions : BitVec 32)
  | offerAction (offer : Nat) (action : BitVec 32)
  deriving DecidableEq

/-- The drag, and everything that takes part in it. -/
structure DndServer where
  dnd : Dnd := .idle
  -- Sources and offers by their addresses.
  sources : Nat → Option DndSource := fun _ => none
  offers : Nat → Option DndOffer := fun _ => none
  devices : List DataDevice := []
  -- The client of each surface.
  client : Nat → Nat
  -- Everything sent so far, oldest first.
  sent : List DndEvent := []

namespace DndServer

def setDnd (d : DndServer) (dnd : Dnd) : DndServer :=
  { d with dnd }

def tell (d : DndServer) (event : DndEvent) : DndServer :=
  { d with sent := d.sent ++ [event] }

def tellSource (d : DndServer) (source : Option Nat) (event : Nat → DndEvent) : DndServer :=
  match source with
  | some s => d.tell (event s)
  | none => d

def knowsActions (d : DndServer) (source : Option Nat) : Bool :=
  (source.bind d.sources).any fun s => dndActionsSince ≤ s.version

def dataDeviceForClient (d : DndServer) (client : Nat) : Option DataDevice :=
  d.devices.find? fun device => device.client = client

def deviceOf (d : DndServer) (surface : Option Nat) : Option DataDevice :=
  surface.bind fun s => d.dataDeviceForClient (d.client s)

/-- `dnd_source_actions_of`, which is a copy unless the source has said something else -/
def dndSourceActionsOf (d : DndServer) (source : Option Nat) : BitVec 32 :=
  let a := ((source.bind d.sources).map DndSource.actions).getD 0
  if a ≠ 0 then a else 1

def setOffer (d : DndServer) (r : Nat) (offer : Option DndOffer) : DndServer :=
  { d with offers := Function.update d.offers r offer }

/-- An offer is the one of the drag that is going on. -/
def Offering (d : DndServer) (r : Nat) : Prop :=
  d.dnd.active = true ∧ d.dnd.offer = some r
  deriving Decidable

def dndOfferAccept (d : DndServer) (r : Nat) (mime : Option String) : DndServer :=
  match d.offers r with
  | none => d
  | some o =>
    let d := d.tellSource o.source (.target · mime)
    if d.Offering r then d.setDnd { d.dnd with targetAccepted := mime.isSome } else d

def dndOfferReceive (d : DndServer) (r : Nat) (mime : String) : DndServer :=
  match d.offers r with
  | none => d
  | some o => d.tellSource o.source (.send · mime)

def dndOfferFinish (d : DndServer) (r : Nat) : DndServer :=
  match d.offers r with
  | none => d
  | some o =>
    if !o.dropped || o.finished then d
    else
      let d := d.setOffer r (some { o with finished := true })
      if d.knowsActions o.source then d.tellSource o.source .finished else d

def chooseAction (both preferred : BitVec 32) : BitVec 32 :=
  if preferred &&& both ≠ 0 then preferred
  else if both &&& 1 ≠ 0 then 1
  else if both &&& 2 ≠ 0 then 2
  else if both &&& 4 ≠ 0 then 4
  else 0

def dndOfferSetActions (d : DndServer) (r : Nat) (actions preferred : BitVec 32) : DndServer :=
  match d.offers r with
  | none => d
  | some o =>
    let chosen := chooseAction (d.dndSourceActionsOf o.source &&& actions) preferred
    let d := if d.Offering r then d.setDnd { d.dnd with action := chosen } else d
    let d := if dndActionsSince ≤ o.version then d.tell (.offerAction r chosen) else d
    if d.knowsActions o.source then d.tellSource o.source (.sourceAction · chosen) else d

def dndOfferResourceDestroy (d : DndServer) (r : Nat) : DndServer :=
  match d.offers r with
  | none => d
  | some o =>
    let d :=
      if d.Offering r then d.setDnd { d.dnd with offer := none, targetAccepted := false } else d
    -- A drop that was not finished is rejected.
    let d :=
      if o.dropped && !o.finished && d.knowsActions o.source then d.tellSource o.source .cancelled
      else d
    d.setOffer r none

def dndFocusLeave (d : DndServer) : DndServer :=
  let d :=
    match d.deviceOf d.dnd.focus with
    | some device => d.tell (.leave device.client)
    | none => d
  let d :=
    if d.dnd.action ≠ 0 ∧ d.knowsActions d.dnd.source then
      d.tellSource d.dnd.source (.sourceAction · 0)
    else d
  d.setDnd { d.dnd with focus := none, offer := none, targetAccepted := false, action := 0 }

def newOffer (d : DndServer) (device : DataDevice) (r : Nat) : DndServer :=
  let d := d.setOffer r (some { source := d.dnd.source, version := device.version })
  let d := d.tell (.dataOffer device.client r)
  let mimes := ((d.dnd.source.bind d.sources).map DndSource.mimes).getD []
  mimes.foldl (fun d mime => d.tell (.offerMime r mime)) d

def dndFocusEnter (d : DndServer) (hit : Nat) (memory : Option Nat) : DndServer :=
  let d :=
    d.setDnd { d.dnd with focus := some hit, offer := none, targetAccepted := false, action := 0 }
  match d.deviceOf (some hit), d.dnd.source, memory with
  | none, _, _ => d
  | some device, none, _ => d.tell (.enter device.client hit none)
  | some _, some _, none => d
  | some device, some source, some r =>
    let d := d.newOffer device r
    let d := d.setDnd { d.dnd with offer := some r }
    let d := d.tell (.enter device.client hit (some r))
    if dndActionsSince ≤ device.version then
      d.tell (.sourceActions r (d.dndSourceActionsOf (some source)))
    else d

def dndUpdateMotion (d : DndServer) (hit memory : Option Nat) : DndServer :=
  -- A drag without a source is seen by its own client only.
  let hit := hit.filter fun s => d.dnd.source.isSome || d.dnd.originClient = some (d.client s)
  if hit ≠ d.dnd.focus then
    match hit with
    | some s => d.dndFocusLeave.dndFocusEnter s memory
    | none => d.dndFocusLeave
  else
    match d.deviceOf hit with
    | some device => d.tell (.motion device.client)
    | none => d

def dndEnd (d : DndServer) : DndServer :=
  if d.dnd.active then d.setDnd .idle else d

def currentOffer (d : DndServer) : Option DndOffer :=
  d.dnd.offer.bind d.offers

def dropTaken (d : DndServer) : Bool :=
  (d.deviceOf d.dnd.focus).isSome &&
    (d.dnd.source.isNone ||
      d.currentOffer.any fun o =>
        d.dnd.targetAccepted && (!(dndActionsSince ≤ o.version) || d.dnd.action ≠ 0))

/-- The offer of the drag, now that the data has been dropped through it -/
def markDropped (d : DndServer) : DndServer :=
  match d.dnd.offer, d.currentOffer with
  | some r, some o => d.setOffer r (some { o with dropped := true })
  | _, _ => d

def tellFocus (d : DndServer) (event : Nat → DndEvent) : DndServer :=
  match d.deviceOf d.dnd.focus with
  | some device => d.tell (event device.client)
  | none => d

def dndDrop (d : DndServer) : DndServer :=
  if d.dropTaken then
    let d := (d.tellFocus .drop).markDropped
    let d := if d.knowsActions d.dnd.source then d.tellSource d.dnd.source .dropPerformed else d
    d.dndEnd
  else
    ((d.tellSource d.dnd.source .cancelled).tellFocus .leave).dndEnd

def dndCancelActive (d : DndServer) : DndServer :=
  if d.dnd.active then
    let d := d.dndFocusLeave
    (d.tellSource d.dnd.source .cancelled).dndEnd
  else d

def dndSourceDestroyed (d : DndServer) : DndServer :=
  (d.setDnd { d.dnd with source := none }).dndFocusLeave.dndEnd

/-- A source is gone: its drag and its offers are told in their destroy listeners. -/
def sourceDestroy (d : DndServer) (s : Nat) : DndServer :=
  let d := if d.dnd.source = some s then d.dndSourceDestroyed else d
  { d with
    sources := Function.update d.sources s none
    offers := fun r =>
      (d.offers r).map fun o => { o with source := o.source.filter (· ≠ s) } }

def setSource (d : DndServer) (s : Nat) (source : Option DndSource) : DndServer :=
  { d with sources := Function.update d.sources s source }

def dataSourceOffer (d : DndServer) (s : Nat) (mime : String) (memory : Bool) : DndServer :=
  d.setSource s ((d.sources s).map fun source =>
    { source with
      mimes := PrimarySelection.mimeListAdd source.mimes maxClipMimes mime true memory })

def dataSourceSetActions (d : DndServer) (s : Nat) (actions : BitVec 32) : DndServer :=
  d.setSource s ((d.sources s).map fun source => { source with actions })

/-- `data_device_start_drag`, given the button that is held, if the serial is the one of its press,
and whether the icon has no other use -/
def dataDeviceStartDrag (d : DndServer) (client : Nat) (source : Option Nat) (origin : Nat)
    (icon : Option Nat) (held : Option Nat) (iconFree : Bool) (hit memory : Option Nat) :
    DndServer :=
  match held with
  | none => d
  | some button =>
    if d.dnd.active || !iconFree then d
    else
      let dnd : Dnd :=
        { active := true, source, origin := some origin, originClient := some client, icon, button }
      (d.setDnd dnd).dndUpdateMotion hit memory

def surfaceUnmap (d : DndServer) (s : Nat) : DndServer :=
  if d.dnd.active then
    let d :=
      if d.dnd.focus = some s then
        d.setDnd { d.dnd with focus := none, offer := none, targetAccepted := false }
      else d
    if d.dnd.origin = some s ∨ d.dnd.icon = some s then
      (d.tellSource d.dnd.source .cancelled).dndEnd
    else d
  else d

/-- The part of `handle_button` about the drag, for a release -/
def buttonUp (d : DndServer) (code : Nat) : DndServer :=
  if d.dnd.active = true ∧ code = d.dnd.button then d.dndDrop else d

def inputClientDropped (d : DndServer) (held : List Nat) : DndServer :=
  let d := held.foldl
    (fun d code => if d.dnd.active = true ∧ code = d.dnd.button then d.dndCancelActive else d) d
  held.foldl buttonUp d

/-- What happens during a drag and after it. -/
inductive DndStep where
  -- A drag begins, and the pointer moves, with the address of a new offer if there is memory.
  | startDrag (client : Nat) (source : Option Nat) (origin : Nat) (icon : Option Nat)
      (held : Option Nat) (iconFree : Bool) (hit memory : Option Nat)
  | motion (hit memory : Option Nat)
  -- A button is released, or all that a client of the input held.
  | buttonUp (code : Nat)
  | inputGone (held : List Nat)
  | lock
  -- A surface goes away.
  | unmap (s : Nat)
  -- A source is made, says what its data is and what may be done with it, and goes away.
  | newSource (source version : Nat)
  | offerMime (source : Nat) (mime : String) (memory : Bool)
  | setActions (source : Nat) (actions : BitVec 32)
  | sourceGone (source : Nat)
  -- A destination uses its offer, or destroys it.
  | accept (offer : Nat) (mime : Option String)
  | receive (offer : Nat) (mime : String)
  | chooseActions (offer : Nat) (actions preferred : BitVec 32)
  | finish (offer : Nat)
  | offerGone (offer : Nat)
  -- Devices and surfaces come and go.
  | clients (devices : List DataDevice) (client : Nat → Nat)

def next (d : DndServer) : DndStep → DndServer
  | .startDrag client source origin icon held iconFree hit memory =>
    d.dataDeviceStartDrag client source origin icon held iconFree hit memory
  | .motion hit memory => if d.dnd.active then d.dndUpdateMotion hit memory else d
  | .buttonUp code => d.buttonUp code
  | .inputGone held => d.inputClientDropped held
  | .lock => d.dndCancelActive
  | .unmap s => d.surfaceUnmap s
  | .newSource source version => d.setSource source (some { version })
  | .offerMime source mime memory => d.dataSourceOffer source mime memory
  | .setActions source actions => d.dataSourceSetActions source actions
  | .sourceGone source => d.sourceDestroy source
  | .accept offer mime => d.dndOfferAccept offer mime
  | .receive offer mime => d.dndOfferReceive offer mime
  | .chooseActions offer actions preferred => d.dndOfferSetActions offer actions preferred
  | .finish offer => d.dndOfferFinish offer
  | .offerGone offer => d.dndOfferResourceDestroy offer
  | .clients devices client => { d with devices, client }

/-- A new offer has an address that no other has. -/
def Unused (d : DndServer) (memory : Option Nat) : Prop :=
  ∀ r, memory = some r → d.offers r = none

/-- A source that can be told something and has not been part of a drag. -/
structure Fresh (d : DndServer) (s : Nat) : Prop where
  alive : (d.sources s).isSome = true
  -- Offers forward to live sources, and none to this one.
  offered : ∀ r o other, d.offers r = some o → o.source = some other →
    (d.sources other).isSome = true
  unoffered : ∀ r o, d.offers r = some o → o.source ≠ some s
  untold : ∀ event ∈ d.sent,
    event ≠ .cancelled s ∧ event ≠ .dropPerformed s ∧ event ≠ .finished s

/-- A source is the one of the drag that is going on. -/
def Dragging (d : DndServer) (s : Nat) : Prop :=
  d.dnd.active = true ∧ d.dnd.source = some s
  deriving Decidable

/-- What may happen in a run of one drag of a source. -/
def Allowed (s : Nat) (d : DndServer) : DndStep → Prop
  | .startDrag _ source _ _ _ _ _ memory =>
    (source ≠ some s ∧ ∀ other, source = some other → (d.sources other).isSome = true) ∧
      d.Unused memory
  | .motion _ memory => d.Unused memory
  -- A new source has an address that no other has, and not the one the run is about.
  | .newSource source _ => source ≠ s ∧ d.sources source = none
  | _ => True

def drag (s : Nat) : Machine DndServer DndStep where
  start d :=
    ∃ before : DndServer, before.dnd = .idle ∧ before.Fresh s ∧
      ∃ client origin icon button hit memory, before.Unused memory ∧
        d = before.dataDeviceStartDrag client (some s) origin icon (some button) true hit memory
  enabled := Allowed s
  next := next

end DndServer

end Xios
