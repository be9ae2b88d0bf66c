import Xios.SysInt.Link

/-! Settings for the device that come over the system-integration link, and the polls for them. -/

namespace Xios

/-- What the desktop can set on the device. -/
inductive DeviceSetting where
  | brightness
  -- How loud the sound is.
  | volume
  deriving DecidableEq, Repr

namespace DeviceSetting

def other : DeviceSetting → DeviceSetting
  | .brightness => .volume
  | .volume => .brightness

def msgType : DeviceSetting → BitVec 32
  | .brightness => inBrightness
  | .volume => inVolume

def stateToDevice : DeviceSetting → BitVec 32
  -- XIOS_BRIGHTNESS_STATE_TO_DEVICE
  | .brightness => 1#32
  -- XIOS_VOLUME_STATE_TO_DEVICE
  | .volume => 1#32

def value (setting : DeviceSetting) (m : XiosMsg) : Option Nat :=
  if m.type = setting.msgType ∧ m.windowId &&& setting.stateToDevice ≠ 0#32 then
    some (if 65535 < m.inputCode.toNat then 65535 else m.inputCode.toNat)
  else none

theorem value_other {setting : DeviceSetting} {m : XiosMsg} {v : Nat}
    (set : setting.value m = some v) : setting.other.value m = none := by
  unfold value at set
  split at set
  · rename_i type
    apply if_neg
    intro both
    -- The types of the two kinds of records differ.
    have same := type.1.symm.trans both.1
    cases setting with
    | brightness => exact absurd same (by decide)
    | volume => exact absurd same (by decide)
  · cases set

end DeviceSetting

/-- How the outside world answers one look for a record. -/
structure PollAnswer where
  -- The clock and the peer, should the link have to be connected.
  attempt : Attempt
  -- Results of replaying the remembered records.
  writes : List Bool := []
  reads : List LinkRead := []

/-- A handle with the settings that were received while the other one was looked for. -/
structure SettingPolls where
  handle : SysIntHandle
  -- The newest setting of each kind that was put aside.
  pending : DeviceSetting → Option Nat := fun _ => none
  -- Every record the link has handed to the polls, which the code does not keep.
  received : List XiosMsg := []
  -- Every value the polls have returned, which the code does not keep either.
  returned : DeviceSetting → List Nat := fun _ => []

namespace SettingPolls

def setPending (s : SettingPolls) (setting : DeviceSetting) (v : Option Nat) : SettingPolls :=
  { s with pending := Function.update s.pending setting v }

def setLink (s : SettingPolls) (l : SiLink) : SettingPolls :=
  { s with handle := s.handle.setLink .sysint l }

def putAside (s : SettingPolls) (wanted : DeviceSetting) (m : XiosMsg) : SettingPolls :=
  match wanted.other.value m with
  | some v => s.setPending wanted.other (some v)
  | none => s

/-- Look at one record after another until one sets what is wanted, or no more have arrived. -/
def pollLoop (wanted : DeviceSetting) :
    SettingPolls → List PollAnswer → Option Nat × SettingPolls
  | s, [] => (none, s)
  | s, answer :: rest =>
    let polled := (s.handle.link .sysint).pollMsg .sysint answer.attempt
      (s.handle.remembered .sysint) answer.writes answer.reads
    let s := s.setLink polled.2
    match polled.1 with
    | none => (none, s)
    | some m =>
      let s := { s with received := s.received ++ [m] }
      match wanted.value m with
      | some v => (some v, s)
      | none => pollLoop wanted (s.putAside wanted m) rest

def pollSet (s : SettingPolls) (wanted : DeviceSetting) (first : PollAnswer)
    (answers : List PollAnswer) : Option Nat × SettingPolls :=
  match s.pending wanted with
  | some v => (some v, s.setPending wanted none)
  | none =>
    let ensured := (s.handle.link .sysint).ensure first.attempt (s.handle.remembered .sysint)
      first.writes
    let s := s.setLink ensured.2.1
    if !ensured.1 then (none, s) else pollLoop wanted s answers

def pollBrightnessSet (s : SettingPolls) (first : PollAnswer) (answers : List PollAnswer) :
    Option Nat × SettingPolls :=
  s.pollSet .brightness first answers

def pollVolumeSet (s : SettingPolls) (first : PollAnswer) (answers : List PollAnswer) :
    Option Nat × SettingPolls :=
  s.pollSet .volume first answers

def poll (s : SettingPolls) (first : PollAnswer) (answers : List PollAnswer) :
    DeviceSetting → Option Nat × SettingPolls
  | .brightness => s.pollBrightnessSet first answers
  | .volume => s.pollVolumeSet first answers

/-- What happens to the settings and their links. -/
inductive Event where
  | poll (wanted : DeviceSetting) (first : PollAnswer) (answers : List PollAnswer)
  -- Send something, connect a link or poll for haptic events.
  | other (event : SysIntHandle.Event)

def noteReturned (setting : DeviceSetting) (result : Option Nat × SettingPolls) : SettingPolls :=
  { result.2 with
    returned := Function.update result.2.returned setting
      (result.2.returned setting ++ result.1.toList) }

def next (s : SettingPolls) : Event → SettingPolls
  | .poll wanted first answers => noteReturned wanted (s.poll first answers wanted)
  | .other event => { s with handle := s.handle.next event }

/-- Only the polls for settings take records off the link that they come over. -/
def Allowed : Event → Prop
  | .other (.poll id ..) => id = .iosc
  | _ => True

/-- All uses of a handle, from its opening on. -/
def machine : Machine SettingPolls Event where
  start s := ∃ handle, SysIntHandle.machine.start handle ∧ s = { handle }
  enabled _ event := Allowed event
  next := next

def values (s : SettingPolls) (setting : DeviceSetting) : List Nat :=
  s.received.filterMap setting.value

end SettingPolls

end Xios
