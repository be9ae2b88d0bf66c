import Mathlib.Data.Finset.Card
import Mathlib.Data.Fintype.Basic
import Xios.Surface.Server

/-! The client table of `xios_surface.c` with its counter, and the threads that read from clients. -/

namespace Xios

/-- The app's display clock, and the last frame it has shown. -/
structure DisplayClock where
  -- Time between two frames, zero while it is unknown.
  intervalUs : Nat := 0
  -- When the next frame is due, and when the app said so.
  deadlineMs : Nat := 0
  rxMs : Nat := 0
  -- Range of frame rates.
  minMfps : Nat := 0
  maxMfps : Nat := 0
  -- The last frame shown.
  presentedSeq : BitVec 64 := 0#64
  -- How long before it was acknowledged it was shown, if the app knows.
  presentAgeUs : Nat := 0
  presentAckMs : Nat := 0
  presentAgeValid : Bool := false
  deriving DecidableEq

namespace DisplayClock

def stop (clock : DisplayClock) : DisplayClock :=
  { clock with intervalUs := 0, deadlineMs := 0, rxMs := 0, presentAgeValid := false }

def clamped (field : BitVec 32) : Nat :=
  field.toInt.toNat

def handlePacingMsg (clock : DisplayClock) (now : Nat) (m : XiosMsg) : DisplayClock :=
  -- An interval out of range is not believed.
  if clamped m.b < 1000 ∨ 250000 < clamped m.b then clock
  else
    { clock with
      intervalUs := clamped m.b
      deadlineMs := now + ((m.a.toInt + 999).tdiv 1000).toNat
      minMfps := clamped m.c
      maxMfps := clamped m.d
      rxMs := now }

def handlePresented (clock : DisplayClock) (now : Nat) (m : XiosMsg) : DisplayClock :=
  let seq : BitVec 64 := m.b ++ m.a
  let clock := if clock.presentedSeq < seq then { clock with presentedSeq := seq } else clock
  if m.d &&& 1#32 ≠ 0#32 ∧ 0 ≤ m.c.toInt then
    { clock with presentAgeUs := m.c.toNat, presentAckMs := now, presentAgeValid := true }
  else clock

end DisplayClock

/-- A record on its way through the thread that reads from a client. -/
structure Inbound where
  -- Where the client was when the thread was started.
  slot : Fin maxClients
  serial : BitVec 64
  msg : XiosMsg
  deriving DecidableEq

/--
The server with its counter of clients.

The serials handed out so far are not kept by the code.
-/
structure ClientTable where
  -- Everything else.
  server : SurfaceServer
  -- Number of clients.
  nclients : Int := 0
  clock : DisplayClock := {}
  -- Records whose client was found to be connected, and which are not handled yet.
  inbound : List Inbound := []
  -- Serials of all clients ever accepted, newest first.
  serials : List (BitVec 64) := []

namespace ClientTable

def active (t : ClientTable) : Finset (Fin maxClients) :=
  Finset.univ.filter fun i => (t.server.clients i).isSome

/-- A serial is the one of the client in a slot. -/
def Current (t : ClientTable) (i : Fin maxClients) (serial : BitVec 64) : Prop :=
  ∃ c, t.server.clients i = some c ∧ c.serial = serial
  deriving Decidable

def addClient (t : ClientTable) (fd : Nat) (caps generation : BitVec 32) : Option ClientTable :=
  if generation ≠ t.server.generation then none
  else if caps &&& helloCapStreamV2 ≠ 0#32 ∧ t.nclients ≠ 0 ∨
      caps &&& helloCapStreamV2 = 0#32 ∧ t.server.streamV2ClientMask ≠ 0#32 then none
  else
    match (List.finRange maxClients).find? fun i => (t.server.clients i).isNone with
    | none => none
    | some i =>
      let server :=
        if t.nclients = 0 then t.server.recoverConsumerAfterHandshake else t.server
      let serial := SurfaceServer.nextSerial server.nextClientSerial
      some { t with
        server := { server with
          clients := Function.update server.clients i
            (some { fd, conn := server.conns, caps, serial })
          nextClientSerial := serial
          conns := server.conns + 1 }
        nclients := t.nclients + 1
        serials := serial :: t.serials }

def dropClient (t : ClientTable) (i : Fin maxClients) : ClientTable :=
  if (t.server.clients i).isNone then t
  else
    { t with
      server := t.server.dropClient i
      nclients := t.nclients - 1
      clock := if t.nclients - 1 = 0 then t.clock.stop else t.clock }

def dropClientIdentity (t : ClientTable) (i : Fin maxClients) (fd : Nat) (serial : BitVec 64) :
    ClientTable :=
  match t.server.clients i with
  | none => t
  | some c => if c.fd ≠ fd ∨ c.serial ≠ serial then t else t.dropClient i

def resize (t : ClientTable) : ClientTable :=
  { t with server := t.server.resize, nclients := 0 }

def checkClientMsg (t : ClientTable) (record : Inbound) : ClientTable :=
  if t.Current record.slot record.serial then { t with inbound := t.inbound ++ [record] } else t

def handleClientMsg (t : ClientTable) (record : Inbound) (now : Nat) : ClientTable :=
  if record.msg.type = msgPacing then
    { t with clock := t.clock.handlePacingMsg now record.msg }
  else if record.msg.type = msgReleased then
    -- The lock was given up in between, so the client is looked at again.
    if t.Current record.slot record.serial then
      { t with server := t.server.handleReleased record.slot record.msg }
    else t
  else if record.msg.type = msgPresented then
    { t with clock := t.clock.handlePresented now record.msg }
  else t

/-- What happens to the table. -/
inductive Event where
  -- A handshake is completed.
  | add (fd : Nat) (caps generation : BitVec 32)
  -- The thread that reads from a client ends.
  | readerGone (i : Fin maxClients) (fd : Nat) (serial : BitVec 64)
  -- Writing to a client fails.
  | drop (i : Fin maxClients)
  -- The outputs are replaced.
  | resize
  -- A thread that reads from a client has a record.
  | check (record : Inbound)
  -- Such a thread goes on with a record, at some time.
  | handle (n : Nat) (now : Nat)
  -- Something else is done under the lock, with this result.
  | serve (server : SurfaceServer)

def next (t : ClientTable) : Event → ClientTable
  | .add fd caps generation => (t.addClient fd caps generation).getD t
  | .readerGone i fd serial => t.dropClientIdentity i fd serial
  | .drop i => t.dropClient i
  | .resize => t.resize
  | .check record => t.checkClientMsg record
  | .handle n now =>
    match t.inbound[n]? with
    | none => t
    | some record => { t with inbound := t.inbound.eraseIdx n }.handleClientMsg record now
  | .serve server => { t with server }

/-- Nothing else that is done under the lock touches the table. -/
def Allowed (t : ClientTable) : Event → Prop
  | .serve server => server.clients = t.server.clients ∧
      server.nextClientSerial = t.server.nextClientSerial ∧
      server.generation = t.server.generation
  | _ => True

/-- All histories of the table, from the creation of the outputs on. -/
def machine : Machine ClientTable Event where
  start t := ∃ count queue releaseToken, OutputQueue.reset count = some queue ∧
    t = { server := { queue, releaseToken } }
  enabled := Allowed
  next := next

end ClientTable

end Xios
