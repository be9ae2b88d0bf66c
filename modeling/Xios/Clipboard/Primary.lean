import Xios.Lib.Machine
import Xios.Text.TextInput

/-! The primary selection of `iosc.c`, which two protocols share. -/

namespace Xios

/-- Types that a source of the primary selection protocol can offer. -/
def maxPrimaryMimes : Nat := 16

def maxControlMimes : Nat := 16

def maxPrimaryDevices : Nat := 32

def maxDataControlDevices : Nat := 32

/-- Version from which on a data-control device knows of the primary selection. -/
def controlPrimarySince : Nat := 2

/-- A source of either protocol, numbered since the start. -/
inductive SelectionSource where
  -- Of the primary selection protocol.
  | zwp (number : Nat)
  -- Of the data-control protocol.
  | control (number : Nat)
  deriving DecidableEq

/-- A source of a clipboard manager. -/
structure ControlSource where
  -- Types it offers.
  mimes : List String := []
  -- It has been made a selection, and cannot be made one again.
  used : Bool := false
  deriving DecidableEq

/-- What clients are told about selections. -/
inductive SelectionEvent where
  | cancelled (source : SelectionSource)
  -- A device of the primary selection protocol learns the types that can be had.
  | selection (device : Nat) (offer : Option (List String))
  -- A data-control device learns the types that can be had.
  | primarySelection (device : Nat) (offer : Option (List String))
  deriving DecidableEq

/-- A device of the primary selection protocol. -/
structure PrimaryDevice where
  resource : Nat
  client : Nat
  deriving DecidableEq

/-- A device of a clipboard manager. -/
structure ControlDevice where
  resource : Nat
  version : Nat
  deriving DecidableEq

/-- The selections' owners, and everyone who wants to know of them. -/
structure PrimarySelection where
  -- Types offered by each live source of the primary selection protocol.
  zwpSources : Nat → Option (List String) := fun _ => none
  -- The live data-control sources.
  controlSources : Nat → Option ControlSource := fun _ => none
  -- The primary selection's owner, if it is of the primary selection protocol.
  primarySource : Option Nat := none
  -- The primary selection's owner, if it is a data-control source.
  primaryDcSource : Option Nat := none
  dataControlClipSource : Option Nat := none
  -- Devices of the primary selection protocol.
  primaryDevices : List PrimaryDevice := []
  dataControlDevices : List ControlDevice := []
  -- The client that has the keyboard.
  kbdFocus : Option Nat := none
  -- Number of resources created so far.
  resources : Nat := 0
  -- Everything sent so far, oldest first.
  sent : List SelectionEvent := []

namespace PrimarySelection

/-- A source can still be told something. -/
def Alive (s : PrimarySelection) : SelectionSource → Bool
  | .zwp number => (s.zwpSources number).isSome
  | .control number => (s.controlSources number).isSome

def mimeListAdd (mimes : List String) (limit : Nat) (mime : String) (dedupe memory : Bool) :
    List String :=
  if limit ≤ mimes.length then mimes
  else if dedupe && mimes.contains mime then mimes
  else if memory then mimes ++ [mime] else mimes

def primaryMimes (s : PrimarySelection) : Option (List String) :=
  match s.primarySource with
  | some number => s.zwpSources number
  | none =>
    match s.primaryDcSource with
    | some number => (s.controlSources number).map ControlSource.mimes
    | none => none

def offerTo (s : PrimarySelection) (event : Option (List String) → SelectionEvent)
    (memory : Bool) : List SelectionEvent :=
  match s.primaryMimes with
  | none => [event none]
  | some mimes => if memory then [event (some mimes)] else []

def primarySelectionSendToDevice (s : PrimarySelection) (memory : Nat → Bool)
    (device : PrimaryDevice) : List SelectionEvent :=
  s.offerTo (.selection device.resource) (memory device.resource)

def dataControlSendPrimaryToDevice (s : PrimarySelection) (memory : Nat → Bool)
    (device : ControlDevice) : List SelectionEvent :=
  if device.version < controlPrimarySince then []
  else s.offerTo (.primarySelection device.resource) (memory device.resource)

/-- Tell the client that has the keyboard, and every data-control device. -/
def primarySelectionBroadcast (s : PrimarySelection) (memory : Nat → Bool) : PrimarySelection :=
  let focused := s.primaryDevices.filter fun device => s.kbdFocus = some device.client
  { s with
    sent := s.sent ++ focused.flatMap (s.primarySelectionSendToDevice memory) ++
      s.dataControlDevices.flatMap (s.dataControlSendPrimaryToDevice memory) }

def sendCancelled (s : PrimarySelection) (source : Option SelectionSource) : PrimarySelection :=
  { s with sent := s.sent ++ (source.map SelectionEvent.cancelled).toList }

def primarySourceResDestroy (s : PrimarySelection) (number : Nat) (memory : Nat → Bool) :
    PrimarySelection :=
  let owner := s.primarySource
  let s := { s with zwpSources := Function.update s.zwpSources number none }
  if owner = some number then { s with primarySource := none }.primarySelectionBroadcast memory
  else s

def primaryDeviceSetSelection (s : PrimarySelection) (source : Option Nat)
    (memory : Nat → Bool) : PrimarySelection :=
  -- An owner of the other protocol is told; one of this protocol is merely forgotten.
  let s := { s.sendCancelled (s.primaryDcSource.map .control) with primaryDcSource := none }
  { s with primarySource := source }.primarySelectionBroadcast memory

def dataControlSourceResDestroy (s : PrimarySelection) (number : Nat) (memory : Nat → Bool) :
    PrimarySelection :=
  let owner := s.primaryDcSource
  let s := { s with
    controlSources := Function.update s.controlSources number none
    dataControlClipSource :=
      if s.dataControlClipSource = some number then none else s.dataControlClipSource }
  if owner = some number then { s with primaryDcSource := none }.primarySelectionBroadcast memory
  else s

/-- Mark a data-control source as used. -/
def use (s : PrimarySelection) : Option Nat → Option PrimarySelection
  | none => some s
  | some number =>
    match s.controlSources number with
    | none => none
    | some source =>
      if source.used then none
      else some { s with
        controlSources :=
          Function.update s.controlSources number (some { source with used := true }) }

def replaced (owner source : Option Nat) : Option SelectionSource :=
  if owner = source then none else owner.map .control

def dataControlDeviceSetPrimarySelection (s : PrimarySelection) (source : Option Nat)
    (memory : Nat → Bool) : PrimarySelection :=
  match s.use source with
  | none => s
  | some s =>
    let s := { s.sendCancelled (replaced s.primaryDcSource source) with primaryDcSource := source }
    let s := { s.sendCancelled (s.primarySource.map .zwp) with primarySource := none }
    s.primarySelectionBroadcast memory

/-- A clipboard manager makes a source the clipboard, or clears that. -/
def dataControlDeviceSetSelection (s : PrimarySelection) (source : Option Nat) :
    PrimarySelection :=
  match s.use source with
  | none => s
  | some s =>
    { s.sendCancelled (replaced s.dataControlClipSource source) with
      dataControlClipSource := source }

def dataControlCancelClipSource (s : PrimarySelection) : PrimarySelection :=
  { s.sendCancelled (s.dataControlClipSource.map .control) with dataControlClipSource := none }

/-- What clients and managers do with both selections. -/
inductive Event where
  -- A source of the primary selection protocol appears, offers a type or goes.
  | createSource
  | offer (number : Nat) (mime : String) (memory : Bool)
  | destroySource (number : Nat) (memory : Nat → Bool)
  -- A data-control source appears, offers a type or goes.
  | createControlSource
  | controlOffer (number : Nat) (mime : String) (memory : Bool)
  | destroyControlSource (number : Nat) (memory : Nat → Bool)
  -- The primary selection is set through one protocol or the other.
  | setSelection (source : Option Nat) (memory : Nat → Bool)
  | setPrimarySelection (source : Option Nat) (memory : Nat → Bool)
  -- The clipboard is set by a clipboard manager, or by anyone else.
  | setClipboard (source : Option Nat)
  | cancelClipboard
  -- Devices appear and go.
  | getDevice (client : Nat) (memory : Nat → Bool)
  | destroyDevice (resource : Nat)
  | getControlDevice (version : Nat) (memory : Nat → Bool)
  | destroyControlDevice (resource : Nat)
  -- The keyboard goes to another client.
  | focus (client : Option Nat)

def newResource (s : PrimarySelection) : PrimarySelection :=
  { s with resources := s.resources + 1 }

def primaryMgrGetDevice (s : PrimarySelection) (client : Nat) (memory : Nat → Bool) :
    PrimarySelection :=
  if maxPrimaryDevices ≤ s.primaryDevices.length then s
  else
    let device : PrimaryDevice := ⟨s.resources, client⟩
    let s : PrimarySelection :=
      { s.newResource with primaryDevices := s.primaryDevices ++ [device] }
    if s.kbdFocus = some client then
      { s with sent := s.sent ++ s.primarySelectionSendToDevice memory device }
    else s

def dataControlMgrGetDevice (s : PrimarySelection) (version : Nat) (memory : Nat → Bool) :
    PrimarySelection :=
  if maxDataControlDevices ≤ s.dataControlDevices.length then s
  else
    let device : ControlDevice := ⟨s.resources, version⟩
    let s : PrimarySelection :=
      { s.newResource with dataControlDevices := s.dataControlDevices ++ [device] }
    { s with sent := s.sent ++ s.dataControlSendPrimaryToDevice memory device }

def next (s : PrimarySelection) : Event → PrimarySelection
  | .createSource =>
    { s.newResource with zwpSources := Function.update s.zwpSources s.resources (some []) }
  | .offer number mime memory =>
    { s with
      zwpSources := Function.update s.zwpSources number
        ((s.zwpSources number).map fun mimes =>
          mimeListAdd mimes maxPrimaryMimes mime false memory) }
  | .destroySource number memory => s.primarySourceResDestroy number memory
  | .createControlSource =>
    { s.newResource with controlSources := Function.update s.controlSources s.resources (some {}) }
  | .controlOffer number mime memory =>
    -- A source that has been used can offer nothing more.
    { s with
      controlSources := Function.update s.controlSources number
        ((s.controlSources number).map fun source =>
          if source.used then source
          else { source with
            mimes := mimeListAdd source.mimes maxControlMimes mime true memory }) }
  | .destroyControlSource number memory => s.dataControlSourceResDestroy number memory
  | .setSelection source memory => s.primaryDeviceSetSelection source memory
  | .setPrimarySelection source memory => s.dataControlDeviceSetPrimarySelection source memory
  | .setClipboard source => s.dataControlDeviceSetSelection source
  | .cancelClipboard => s.dataControlCancelClipSource
  | .getDevice client memory => s.primaryMgrGetDevice client memory
  | .destroyDevice resource =>
    { s with
      primaryDevices := swapRemove (fun device => device.resource = resource) s.primaryDevices }
  | .getControlDevice version memory => s.dataControlMgrGetDevice version memory
  | .destroyControlDevice resource =>
    { s with
      dataControlDevices :=
        swapRemove (fun device => device.resource = resource) s.dataControlDevices }
  | .focus client => { s with kbdFocus := client }

/-- Requests and ends of resources are about sources that exist. -/
def Allowed (s : PrimarySelection) : Event → Prop
  | .offer number _ _ | .destroySource number _ | .setSelection (some number) _ =>
    s.Alive (.zwp number) = true
  | .controlOffer number _ _ | .destroyControlSource number _
  | .setPrimarySelection (some number) _ | .setClipboard (some number) =>
    s.Alive (.control number) = true
  | _ => True

/-- All histories of the selections, from the start of the compositor on. -/
def machine : Machine PrimarySelection Event where
  start s := s = {}
  enabled := Allowed
  next := next

end PrimarySelection

end Xios
