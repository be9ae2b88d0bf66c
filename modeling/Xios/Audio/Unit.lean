import Xios.Lib.CircularBuffer
import Xios.Lib.Machine

/-! The clients of `xios-audiod.c`, their rings, and the thread that starts and stops the output. -/

namespace Xios

abbrev audioDefaultRate : Nat := 48000

abbrev ringFrames : Nat := audioDefaultRate * 4

/-- Time without audio after which the output is stopped. -/
def idleStopNs : Nat := 5 * 1000000000

def startBacklogFrames : Nat := audioDefaultRate / 4

def startRetryMinMs : Nat := 1000
def startRetryMaxMs : Nat := 30000

/--
A stereo frame.

The number of stops is not kept by the code; it says since when the frame has been waiting.
-/
structure AudioFrame (α : Type) where
  left : α
  right : α
  -- Stops that had been decided on when it was received.
  stops : Nat
  deriving DecidableEq

/-- How samples are encoded. -/
inductive AudioFormat where
  | s16le
  | f32le
  deriving DecidableEq

def AudioFormat.bytes : AudioFormat → Nat
  | .s16le => 2
  | .f32le => 4

/-- A client that has opened a stream. -/
structure AudioClient (α : Type) where
  fd : Nat
  -- Samples of a frame, and how they are encoded.
  channels : Nat
  format : AudioFormat
  -- Frames that wait to be rendered.
  ring : CircularBuffer (AudioFrame α) ringFrames

/-- What the thread that starts and stops the output is doing. -/
inductive UnitPhase where
  | deciding
  -- It stops the output, having seen the time of the last audio.
  | stopping (last : Nat)
  | starting
  deriving DecidableEq

/--
The state that the lock guards.

The clock, the number of stops and whether audio is waiting are not kept by the code; they say what
its flags are about.
-/
structure AudioUnit (α : Type) where
  -- Connected clients, newest first.
  clients : List (AudioClient α) := []
  running : Bool := false
  -- Audio arrived while it was not.
  wanted : Bool := false
  -- Time of the last audio.
  lastDataNs : Nat := 0
  -- What the thread does, and when it tries to start the output again.
  phase : UnitPhase := .deciding
  retryMs : Nat := 0
  retryAt : Nat := 0
  -- The latest time that has been seen.
  clock : Nat := 0
  -- Stops decided on so far.
  stops : Nat := 0
  -- Audio has arrived since the last stop was decided on or the last start was given up.
  arrived : Bool := false

namespace AudioUnit

variable {α : Type}

def mapRings (s : AudioUnit α)
    (change : CircularBuffer (AudioFrame α) ringFrames →
      CircularBuffer (AudioFrame α) ringFrames) : AudioUnit α :=
  { s with clients := s.clients.map fun client => { client with ring := change client.ring } }

/-- Drop the oldest frames of every ring so that at most some number remain. -/
def ringsTrimLocked (s : AudioUnit α) (maxFrames : Nat) : AudioUnit α :=
  s.mapRings fun ring => ring.trim maxFrames

def ingest (s : AudioUnit α) (fd : Nat) (frames : List (α × α)) : AudioUnit α :=
  { s with
    clients := s.clients.map fun client =>
      if client.fd = fd then
        { client with
          ring := frames.foldl (fun ring frame => ring.push ⟨frame.1, frame.2, s.stops⟩)
            client.ring }
      else client }

def ingestPayload (s : AudioUnit α) (client : AudioClient α) (size : Nat)
    (frames : List (α × α)) (now : Nat) : AudioUnit α :=
  -- A payload without a whole frame is no activity.
  if size / (client.format.bytes * client.channels) = 0 then s
  else
    let s := { s with lastDataNs := now, clock := now, arrived := true }
    -- What is left in the rings dates from before the output stopped.
    let s := if s.running || s.wanted then s
      else { s.ringsTrimLocked 0 with wanted := true }
    s.ingest client.fd frames

def renderCb (s : AudioUnit α) (frames : Nat) : AudioUnit α :=
  s.mapRings fun ring => (fun ring => ring.pop.2)^[frames] ring

def unitThread (s : AudioUnit α) (now : Nat) : AudioUnit α :=
  let s := { s with clock := now }
  if s.running then
    if now < s.lastDataNs + idleStopNs then s
    else { s with phase := .stopping s.lastDataNs, stops := s.stops + 1, arrived := false }
  else if !s.wanted then s
  else if idleStopNs ≤ now - s.lastDataNs then
    { s with wanted := false, retryMs := 0, retryAt := 0, arrived := false }
  else if now < s.retryAt then s
  else { s with phase := .starting }

def outputStopped (s : AudioUnit α) (last : Nat) : AudioUnit α :=
  let s := { s with running := false, phase := .deciding }
  -- Audio that arrived meanwhile asks for another start.
  if s.lastDataNs ≠ last then { s with wanted := true } else s.ringsTrimLocked 0

def outputStarted (s : AudioUnit α) (ok : Bool) (now : Nat) : AudioUnit α :=
  let s := { s with phase := .deciding, clock := now }
  if ok then
    { s.ringsTrimLocked startBacklogFrames with
      running := true, wanted := false, retryMs := 0, retryAt := 0 }
  else
    let retryMs := min (if s.retryMs = 0 then startRetryMinMs else s.retryMs * 2) startRetryMaxMs
    { s with retryMs, retryAt := now + retryMs * 1000000 }

/-- What can happen while the lock is held. -/
inductive Event (α : Type) where
  -- A client opens a stream or goes.
  | connect (fd channels : Nat) (format : AudioFormat) (fill : AudioFrame α)
  | disconnect (fd : Nat)
  -- A client's audio arrives.
  | data (fd size : Nat) (frames : List (α × α)) (now : Nat)
  -- The output asks for frames.
  | render (frames : Nat)
  -- The thread decides, or is done with what it decided.
  | wake (now : Nat)
  | stopped
  | started (ok : Bool) (now : Nat)

def next (s : AudioUnit α) : Event α → AudioUnit α
  | .connect fd channels format fill =>
    { s with clients := ⟨fd, channels, format, .empty fill⟩ :: s.clients }
  | .disconnect fd => { s with clients := s.clients.filter fun client => client.fd ≠ fd }
  | .data fd size frames now =>
    match s.clients.find? fun client => client.fd = fd with
    | none => s
    | some client => s.ingestPayload client size frames now
  | .render frames => s.renderCb frames
  | .wake now => s.unitThread now
  | .stopped =>
    match s.phase with
    | .stopping last => s.outputStopped last
    | _ => s
  | .started ok now => s.outputStarted ok now

/-- Time does not run backwards, and the thread does one thing at a time. -/
def Allowed (s : AudioUnit α) : Event α → Prop
  | .connect fd channels _ _ => 0 < channels ∧ channels ≤ 8 ∧ ∀ client ∈ s.clients, client.fd ≠ fd
  | .data _ _ _ now => s.clock ≤ now
  | .wake now => s.phase = .deciding ∧ s.clock ≤ now
  | .stopped => ∃ last, s.phase = .stopping last
  | .started _ now => s.phase = .starting ∧ s.clock ≤ now
  | _ => True

/-- All histories of the output, from the start of the daemon on. -/
def machine (α : Type) : Machine (AudioUnit α) (Event α) where
  start s := s = {}
  enabled := Allowed
  next := next

end AudioUnit

end Xios
