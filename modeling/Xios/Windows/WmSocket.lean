import Xios.Lib.CText
import Xios.Seat.Focus

/-! The control socket of `iosc_wm_socket.c`, which raises windows by the name of their app. -/

namespace Xios

open CText

def wmBuf : Nat := 256

/-- Answers of the socket to a call of `read`. -/
inductive WmRead where
  -- That much has arrived, and is read as far as there is room for it.
  | upTo (arrived : Nat)
  -- The peer has closed its end.
  | eof
  -- A signal interrupted the call.
  | intr
  -- The call failed otherwise.
  | error
  deriving DecidableEq

/-- What one line is answered with. -/
inductive WmReply where
  | ok
  | notfound
  | err
  deriving DecidableEq

/-- The windows and one client of the control socket. -/
structure WmServer where
  -- The windows and what has the keyboard.
  seat : Seat := {}
  -- The app each window belongs to.
  appId : Nat → List UInt8 := fun _ => []
  -- What has been buffered of the client's lines, until the client is dropped.
  client : Option (List UInt8) := some []
  -- Bytes written by the peer that have not been read.
  socket : List UInt8 := []
  -- All that has been read, for reference only.
  received : List UInt8 := []
  -- The lines that were executed and the replies to them, for reference only.
  handled : List (List UInt8) := []
  replies : List WmReply := []

namespace WmServer

def wmFindToplevelByAppId (st : WmServer) (appId : List UInt8) : Option Nat :=
  if appId = [] then none
  else
    st.seat.windows.mapped.reverse.find? fun s =>
      (st.seat.surface s).role = .toplevel ∧ st.appId s ≠ [] ∧ st.appId s = appId

def wmRaiseApp (st : WmServer) (appId : List UInt8) : Option WmServer :=
  (st.wmFindToplevelByAppId appId).map fun s =>
    { st with seat := (st.seat.surfaceSetMinimized s false).activate s }

def wmHandleLine (st : WmServer) (line : List UInt8) : WmServer :=
  let answered : WmServer × WmReply :=
    if line.idxOf? 9 = some 5 ∧ line.take 5 = CText.ascii "raise" then
      match st.wmRaiseApp (line.drop 6) with
      | some raised => (raised, .ok)
      | none => (st, .notfound)
    else (st, .err)
  { answered.1 with
    handled := st.handled ++ [line]
    replies := st.replies ++ [answered.2] }

def wmClientDrop (st : WmServer) : WmServer :=
  { st with client := none }

end WmServer

def wmLine (raw : List UInt8) : List UInt8 :=
  (cString raw 0).takeWhile (· ≠ 13)

def wmRoom (buf : List UInt8) : List UInt8 :=
  if wmBuf - 1 ≤ buf.length then [] else buf

namespace WmServer

/-- Execute the lines in the buffer, and leave the line that is not complete there. -/
def wmScan : Nat → WmServer → List UInt8 → WmServer
  | 0, st, buf => { st with client := some buf }
  | fuel + 1, st, buf =>
    match buf.idxOf? 10 with
    | none => { st with client := some buf }
    | some nl => wmScan fuel (st.wmHandleLine (wmLine (buf.take nl))) (buf.drop (nl + 1))

def wmReadLoop : WmServer → List WmRead → WmServer
  | st, [] => st
  | st, answer :: answers =>
    match st.client with
    | none => st
    | some held =>
      let buf := wmRoom held
      let st := { st with client := some buf }
      match answer with
      | .upTo arrived =>
        let count := min arrived (wmBuf - 1 - buf.length)
        let bytes := st.socket.take count
        if bytes = [] then st
        else
          let read := { st with
            socket := st.socket.drop count
            received := st.received ++ bytes }
          wmReadLoop (wmScan (buf ++ bytes).length read (buf ++ bytes)) answers
      | .intr => wmReadLoop st answers
      | .eof | .error => st.wmClientDrop

def wmClientReadable (st : WmServer) (error hangup : Bool) (answers : List WmRead) : WmServer :=
  match st.client with
  | none => st
  | some _ =>
    if error then st.wmClientDrop
    else
      let st := st.wmReadLoop answers
      if hangup then st.wmClientDrop else st

/-- What can happen to the client's connection and to the windows. -/
inductive WmEvent where
  | write (bytes : List UInt8)
  -- The event loop finds the socket readable or failed, and reading it gets these answers.
  | wake (error hangup : Bool) (answers : List WmRead)
  -- The windows change for another reason, and so may the apps they belong to.
  | windows (seat : Seat) (appId : Nat → List UInt8)

def after (st : WmServer) : WmEvent → WmServer
  | .write bytes => { st with socket := st.socket ++ bytes }
  | .wake error hangup answers => st.wmClientReadable error hangup answers
  | .windows seat appId => { st with seat, appId }

/-- A client that has just connected. -/
structure Connected (st : WmServer) : Prop where
  -- Nothing has been read or executed.
  client : st.client = some []
  socket : st.socket = []
  received : st.received = []
  handled : st.handled = []

/-- The control socket with any windows and any peer. -/
def machine : Machine WmServer WmEvent where
  start := Connected
  enabled _ _ := True
  next := after

end WmServer

end Xios
