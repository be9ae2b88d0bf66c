import Mathlib.Algebra.Order.Ring.Int
import Mathlib.Data.List.FinRange
import Xios.Lib.Machine
import Xios.Lib.Shell

/-! The session requests, session children and preset health of `ioscd.c`. -/

namespace Xios

/-- A C string, such as the name of a preset. -/
abbrev Text := List UInt8

def ascii (text : String) : Text :=
  text.toList.map Shell.byte

def maxPresetHealth : Nat := 16

abbrev maxSessionChildren : Nat := 8

def presetNameMax : Nat := 63

/-- Time between two session starts that are not root's. -/
def sessionDebounceMs : Nat := 20000

/-- Exit code of a launcher that found another one running. -/
def busyCode : Nat := 75

/-- How often a preset has failed, and when it did last. -/
structure PresetHealth where
  preset : Text
  fails : Int
  lastFailMs : Nat
  deriving DecidableEq

/-- A session child that is being tracked. -/
structure SessionChild where
  pid : Nat
  preset : Text
  deriving DecidableEq

/-- How a child ended. -/
inductive ExitStatus where
  | exited (code : Nat)
  | signalled
  deriving DecidableEq

def ExitStatus.rc : ExitStatus → Nat
  | .exited code => code
  | .signalled => 128

/-- The preset and the state that the status file names. -/
structure SessionStatus where
  preset : Text
  state : Text
  deriving DecidableEq

/-- Whom a request comes from. -/
structure PeerInfo where
  -- The user is known.
  haveEid : Bool
  uid : Nat
  path : Text
  deriving DecidableEq

namespace PeerInfo

def isRoot (peer : PeerInfo) : Bool :=
  peer.haveEid && peer.uid == 0

def isXiosApp (peer : PeerInfo) : Bool :=
  (ascii "/Xios.app/Xios").isSuffixOf peer.path || peer.path == ascii "comm:Xios"

end PeerInfo

/-- A request for a session, taken apart. -/
structure SessionRequest where
  preset : Text
  -- The app to start in a running session.
  app : Text
  -- The screen, in digits.
  width : Text
  height : Text
  dpi : Text
  -- The side display to use.
  slot : Text
  deriving DecidableEq

def takeTabField : Option Text → Text × Option Text
  | none => ([], none)
  | some rest =>
    (rest.takeWhile (· ≠ 9),
      if rest.contains 9 then some ((rest.dropWhile (· ≠ 9)).drop 1) else none)

def SessionRequest.parse (payload : Text) : SessionRequest :=
  let (preset, rest) := takeTabField (some payload)
  let (app, rest) := takeTabField rest
  let (width, rest) := takeTabField rest
  let (height, rest) := takeTabField rest
  let (dpi, rest) := takeTabField rest
  ⟨preset, app, width, height, dpi, rest.getD []⟩

def SessionRequest.destructive (request : SessionRequest) : Bool :=
  request.preset != ascii "app" && request.slot.isEmpty

def digitsOrEmpty (text : Text) : Bool :=
  text.all fun c => 48 ≤ c && c ≤ 57

/-- What the daemon finds while it handles a request. -/
structure SessionWorld where
  -- The clock when the cooldown and the last start are looked at, and after the fork.
  cooldownAt : Nat
  debounceAt : Nat
  forkedAt : Nat
  -- The healthy session, if there is one.
  active : Option Text
  -- The app is a desktop file that can be launched.
  launchable : Bool
  -- A desktop is running.
  classicCompositorSocketLive : Bool
  installed : Bool
  -- The new process, if one could be had.
  forked : Option Nat
  deriving DecidableEq

/-- The first bytes of a text, with blanks for control characters. -/
def sanitizedCopy (limit : Nat) (text : Text) : Text :=
  (text.take limit).map fun c => if c < 32 || c = 127 then 32 else c

/-- What a request is answered with. -/
inductive SessionReply where
  | emptyPreset
  | emptyApp
  | unknownApp (app : Text)
  | noCompositor
  | active
  | otherActive
  | coolingDown (preset : Text) (seconds : Nat)
  | debounced
  | notInstalled
  | startFailed
  | started
  deriving DecidableEq

def SessionReply.text : SessionReply → Text
  | .emptyPreset => ascii "ERR empty preset\n"
  | .emptyApp => ascii "ERR empty app\n"
  | .unknownApp app => ascii "ERR unknown app " ++ sanitizedCopy 259 app ++ ascii "\n"
  | .noCompositor => ascii "ERR no active desktop compositor\n"
  | .active => ascii "SESSION_ACTIVE\n"
  | .otherActive => ascii
      "ERR active session is healthy; switching needs the Xios picker or root xios-session\n"
  | .coolingDown preset seconds =>
    ascii "ERR preset " ++ preset.take 48 ++ ascii " failed recently; retry in " ++
      ascii (toString seconds) ++ ascii "s or run xios-session as root\n"
  | .debounced => ascii "ERR a session change just ran; retry in a few seconds\n"
  | .notInstalled => ascii "ERR xios-session is not installed\n"
  | .startFailed => ascii "ERR session start failed\n"
  | .started => ascii "SESSION_STARTED\n"

/-- How a session child's end is to be judged. -/
inductive SessionOutcome where
  | succeeded
  | busy
  | failed
  deriving DecidableEq

/-- What the daemon notes of its sessions. -/
inductive SessionNote where
  | start (preset : Text) (root : Bool) (time : Nat)
  -- A session child of a preset ended.
  | finish (preset : Text) (outcome : SessionOutcome) (time : Nat)
  deriving DecidableEq

/--
The daemon, as far as sessions are concerned.

The session children that are running and the history are not kept by the code; they say what its
tables are about.
-/
structure Ioscd where
  health : List PresetHealth := []
  children : Fin maxSessionChildren → Option SessionChild := fun _ => none
  -- Time of the last start, zero if there was none.
  lastSessionForkMs : Nat := 0
  -- The latest time that has been seen.
  clock : Nat := 0
  -- The session children that are running, with the presets they were started for.
  running : List SessionChild := []
  -- Starts and ends of sessions, newest first.
  history : List SessionNote := []
  -- Answers to requests, newest first.
  replies : List SessionReply := []

namespace Ioscd

def presetHealth (s : Ioscd) (preset : Text) : Option PresetHealth :=
  s.health.find? fun entry => entry.preset = preset

def updateHealth (preset : Text) (change : PresetHealth → PresetHealth) :
    List PresetHealth → List PresetHealth
  | [] => []
  | entry :: rest =>
    if entry.preset = preset then change entry :: rest
    else entry :: updateHealth preset change rest

def presetCooldownMs (fails : Int) : Nat :=
  if fails ≤ 0 then 0
  else if fails = 1 then 2 * 60 * 1000
  else if fails = 2 then 10 * 60 * 1000
  else 30 * 60 * 1000

def presetCooldownRemainingMs (s : Ioscd) (preset : Text) (now : Nat) : Nat :=
  match s.presetHealth preset with
  | none => 0
  | some entry =>
    if entry.fails ≤ 0 then 0
    else
      let cool := presetCooldownMs entry.fails
      let since := now - entry.lastFailMs
      if cool ≤ since then 0 else cool - since

def increment (fails : Int) : Int :=
  (fails + 1).bmod (2 ^ 32)

def recordSessionOutcome (s : Ioscd) (preset : Text) (failed : Bool) (now : Nat) : Ioscd :=
  match s.presetHealth preset with
  | some _ =>
    { s with
      health := updateHealth preset (fun entry =>
        if failed then { entry with fails := increment entry.fails, lastFailMs := now }
        else { entry with fails := 0 }) s.health }
  | none =>
    if failed && s.health.length < maxPresetHealth then
      { s with health := s.health ++ [⟨preset.take presetNameMax, increment 0, now⟩] }
    else s

def trackSessionChild (s : Ioscd) (pid : Nat) (preset : Text) : Ioscd :=
  match (List.finRange maxSessionChildren).find? fun i => (s.children i).isNone with
  | none => s
  | some i =>
    { s with
      children := Function.update s.children i (some ⟨pid, preset.take presetNameMax⟩) }

def readSessionStatus (file : Option SessionStatus) : Text × Text :=
  match file with
  | none => ([], [])
  | some status =>
    (if status.preset.length ≤ presetNameMax then status.preset else [],
      if status.state.length ≤ presetNameMax then status.state else [])

def childFailed (preset : Text) (status : ExitStatus) (file : Option SessionStatus) : Bool :=
  if status.rc = busyCode then false
  else if status.rc ≠ 0 then true
  else
    let (sp, st) := readSessionStatus file
    sp == preset && st == ascii "error"

def childSlot (s : Ioscd) (pid : Nat) : Option (Fin maxSessionChildren × SessionChild) :=
  (List.finRange maxSessionChildren).findSome? fun i =>
    match s.children i with
    | none => none
    | some child => if child.pid = pid then some (i, child) else none

/-- A child has ended; one that is tracked changes the health of its preset. -/
def noteSessionChildExit (s : Ioscd) (pid : Nat) (status : ExitStatus)
    (file : Option SessionStatus) (now : Nat) : Ioscd :=
  match s.childSlot pid with
  | none => s
  | some (i, child) =>
    let s := s.recordSessionOutcome child.preset (childFailed child.preset status file) now
    { s with children := Function.update s.children i none }

/-- What a session child's end says about its preset. -/
def outcome (preset : Text) (status : ExitStatus) (file : Option SessionStatus) :
    SessionOutcome :=
  if status.rc = busyCode then .busy
  else if status.rc ≠ 0 then .failed
  else if file = some ⟨preset, ascii "error"⟩ then .failed
  else .succeeded

def reap (s : Ioscd) (pid : Nat) (status : ExitStatus) (file : Option SessionStatus)
    (now : Nat) : Ioscd :=
  let ended := s.running.filter fun child => child.pid = pid
  let s := s.noteSessionChildExit pid status file now
  { s with
    clock := now
    running := s.running.filter fun child => child.pid ≠ pid
    history := ended.map (fun child =>
      .finish child.preset (outcome child.preset status file) now) ++ s.history }

def reply (s : Ioscd) (answer : SessionReply) : Ioscd :=
  { s with replies := answer :: s.replies }

def refusesApp (request : SessionRequest) (peer : PeerInfo) (world : SessionWorld) :
    Option SessionReply :=
  if request.preset != ascii "app" then none
  else if request.app.isEmpty then some .emptyApp
  else if !peer.isRoot && !world.launchable then some (.unknownApp request.app)
  else if request.slot.isEmpty && !world.classicCompositorSocketLive then some .noCompositor
  else none

def refusesSwitch (s : Ioscd) (request : SessionRequest) (ensure : Bool) (peer : PeerInfo)
    (world : SessionWorld) : Option SessionReply :=
  let ensureMode := ensure || (!peer.isRoot && !peer.isXiosApp)
  match ensureMode, world.active with
  | true, some active => some (if active = request.preset then .active else .otherActive)
  | _, _ =>
    if peer.isRoot then none
    else
      let wait := s.presetCooldownRemainingMs request.preset world.cooldownAt
      if wait ≠ 0 then some (.coolingDown request.preset (wait / 1000 + 1))
      else if s.lastSessionForkMs ≠ 0 ∧
          world.debounceAt - s.lastSessionForkMs < sessionDebounceMs then
        some .debounced
      else none

def launchSessionRequest (request : SessionRequest) (world : SessionWorld) : Option Nat :=
  if digitsOrEmpty request.width && digitsOrEmpty request.height && digitsOrEmpty request.dpi then
    world.forked
  else none

def started (s : Ioscd) (request : SessionRequest) (root : Bool) (pid now : Nat) : Ioscd :=
  if request.destructive then
    { s.trackSessionChild pid request.preset with
      lastSessionForkMs := now
      running := ⟨pid, request.preset⟩ :: s.running
      history := .start request.preset root now :: s.history }
  else s

def handleSessionRequest (s : Ioscd) (payload : Text) (ensure : Bool) (peer : PeerInfo)
    (world : SessionWorld) : Ioscd :=
  let request := SessionRequest.parse payload
  if request.preset.isEmpty then s.reply .emptyPreset
  else
    match refusesApp request peer world with
    | some answer => s.reply answer
    | none =>
      match (if request.destructive then s.refusesSwitch request ensure peer world else none) with
      | some answer => s.reply answer
      | none =>
        if !world.installed then s.reply .notInstalled
        else
          match launchSessionRequest request world with
          | none => s.reply .startFailed
          | some pid => (s.started request peer.isRoot pid world.forkedAt).reply .started

/-- What clients and children do to the daemon. -/
inductive Event where
  | request (payload : Text) (ensure : Bool) (peer : PeerInfo) (world : SessionWorld)
  -- A child is found to have ended.
  | reap (pid : Nat) (status : ExitStatus) (file : Option SessionStatus) (now : Nat)

def next (s : Ioscd) : Event → Ioscd
  | .request payload ensure peer world =>
    { s.handleSessionRequest payload ensure peer world with clock := world.forkedAt }
  | .reap pid status file now => s.reap pid status file now

/-- Time does not run backwards, and a new process is none of those that are running. -/
def Allowed (s : Ioscd) : Event → Prop
  | .request _ _ _ world =>
    s.clock ≤ world.cooldownAt ∧ world.cooldownAt ≤ world.debounceAt ∧
      world.debounceAt ≤ world.forkedAt ∧
      ∀ pid, world.forked = some pid → 0 < pid ∧ ∀ child ∈ s.running, child.pid ≠ pid
  | .reap _ _ _ now => s.clock ≤ now

/-- All histories of the daemon, from its start on. -/
def machine : Machine Ioscd Event where
  start s := s = {}
  enabled := Allowed
  next := next

end Ioscd

end Xios
