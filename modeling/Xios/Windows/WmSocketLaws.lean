import Xios.Lib.Lines
import Xios.Windows.WmSocket

/-! What the control socket executes of a stream, however the stream is cut into reads. -/

namespace Xios

open CText Lines

namespace WmServer

def execute (st : WmServer) (lines : List (List UInt8)) : WmServer :=
  lines.foldl (fun st raw => st.wmHandleLine (wmLine raw)) st

theorem wmHandleLine_log (st : WmServer) (line : List UInt8) :
    (st.wmHandleLine line).handled = st.handled ++ [line] ∧
      (st.wmHandleLine line).received = st.received ∧
      (st.wmHandleLine line).socket = st.socket := by
  unfold wmHandleLine
  refine ⟨rfl, ?_⟩
  split
  · split
    · -- Raising a window changes the windows only.
      rename_i raised found
      obtain ⟨s, _, rfl⟩ := Option.map_eq_some_iff.mp found
      exact ⟨rfl, rfl⟩
    · exact ⟨rfl, rfl⟩
  · exact ⟨rfl, rfl⟩

theorem execute_log (st : WmServer) (lines : List (List UInt8)) :
    (st.execute lines).handled = st.handled ++ lines.map wmLine ∧
      (st.execute lines).received = st.received ∧ (st.execute lines).socket = st.socket := by
  induction lines generalizing st with
  | nil => simp [execute]
  | cons raw lines ih =>
    obtain ⟨handled, received, socket⟩ := ih (st.wmHandleLine (wmLine raw))
    obtain ⟨one, read, unread⟩ := st.wmHandleLine_log (wmLine raw)
    rw [one, List.append_assoc] at handled
    exact ⟨handled, received.trans read, socket.trans unread⟩

variable {buf : List UInt8}

theorem wmScan_eq (st : WmServer) {fuel : Nat} (enough : buf.length ≤ fuel) :
    wmScan fuel st buf =
      { st.execute (splitFrom 10 [] buf).1 with client := some (splitFrom 10 [] buf).2 } := by
  induction fuel generalizing st buf with
  | zero =>
    obtain rfl := List.length_eq_zero_iff.mp (Nat.le_zero.mp enough)
    rfl
  | succ fuel ih =>
    rw [wmScan]
    cases found : buf.idxOf? 10 with
    | none =>
      have inside : (10 : UInt8) ∉ buf := by simpa using found
      rw [splitFrom_of_notMem [] inside]
      rfl
    | some nl =>
      -- The first newline ends the first line, and the rest is shorter.
      obtain ⟨within, ends, before⟩ := List.findIdx?_eq_some_iff_getElem.mp found
      have clean : (10 : UInt8) ∉ buf.take nl := by
        intro member
        obtain ⟨i, here, same⟩ := List.mem_take_iff_getElem.mp member
        have earlier := before i (by omega)
        simp [same] at earlier
      have parts : buf = buf.take nl ++ 10 :: buf.drop (nl + 1) := by
        have last : buf[nl] = 10 := by simpa using ends
        rw [← last, ← List.drop_eq_getElem_cons within, List.take_append_drop]
      have split : splitFrom 10 [] buf =
          (buf.take nl :: (splitFrom 10 [] (buf.drop (nl + 1))).1,
            (splitFrom 10 [] (buf.drop (nl + 1))).2) := by
        conv_lhs => rw [parts]
        exact splitFrom_line clean _
      have shorter : (buf.drop (nl + 1)).length ≤ fuel := by
        rw [List.length_drop]
        omega
      rw [split]
      exact ih (st.wmHandleLine (wmLine (buf.take nl))) shorter

theorem wmScan_stream (st : WmServer) (buf : List UInt8) :
    (wmScan buf.length st buf).received = st.received ∧
      (wmScan buf.length st buf).socket = st.socket := by
  rw [wmScan_eq st (Nat.le_refl _)]
  exact (st.execute_log _).2

theorem wmReadLoop_stream (st : WmServer) (answers : List WmRead) :
    (st.wmReadLoop answers).received ++ (st.wmReadLoop answers).socket =
      st.received ++ st.socket := by
  induction answers generalizing st with
  | nil => rfl
  | cons answer answers ih =>
    rw [wmReadLoop]
    split
    · rfl
    · rename_i held connected
      split
      · rename_i arrived
        dsimp only
        split
        · rfl
        · rw [ih, (wmScan_stream _ _).1, (wmScan_stream _ _).2]
          rw [List.append_assoc, List.take_append_drop]
      · exact ih _
      · rfl
      · rfl

theorem wmClientReadable_stream (st : WmServer) (error hangup : Bool) (answers : List WmRead) :
    (st.wmClientReadable error hangup answers).received ++
        (st.wmClientReadable error hangup answers).socket = st.received ++ st.socket := by
  unfold wmClientReadable
  split
  · rfl
  · split
    · rfl
    · dsimp only
      split
      · exact wmReadLoop_stream st answers
      · exact wmReadLoop_stream st answers

def written (trace : List WmEvent) : List UInt8 :=
  trace.reverse.flatMap fun
    | .write bytes => bytes
    | _ => []

/-- What was executed and what is buffered, in terms of what was read. -/
structure Follows (st : WmServer) : Prop where
  -- Of each line, the part that the buffer kept was executed.
  handled : st.handled = (completed 10 st.received).map (wmLine ∘ kept (wmBuf - 1))
  -- The buffer has the part of the last line that it kept.
  buffer : ∀ buf, st.client = some buf →
    emptied (wmBuf - 1) buf = kept (wmBuf - 1) (begun 10 st.received)
  -- That part has no newline in it.
  clean : ∀ buf, st.client = some buf → 10 ∉ buf

variable {st : WmServer}

theorem Follows.drop (follows : st.Follows) : st.wmClientDrop.Follows where
  handled := follows.handled
  buffer := nofun
  clean := nofun

theorem Follows.makeRoom (follows : st.Follows) (connected : st.client = some buf) :
    ({ st with client := some (wmRoom buf) } : WmServer).Follows where
  handled := follows.handled
  buffer := by
    rintro _ ⟨⟩
    rw [← follows.buffer buf connected]
    exact if_neg (Nat.not_le.mpr (length_emptied (by decide) buf))
  clean := by
    rintro _ ⟨⟩
    unfold wmRoom
    split
    · exact List.not_mem_nil
    · exact follows.clean buf connected

theorem Follows.read (follows : st.Follows) (connected : st.client = some buf)
    {bytes : List UInt8} (fits : buf.length + bytes.length ≤ wmBuf - 1) (socket : List UInt8) :
    (wmScan (buf ++ bytes).length { st with socket, received := st.received ++ bytes }
      (buf ++ bytes)).Follows := by
  rw [wmScan_eq _ (Nat.le_refl _)]
  -- The buffer has no newline yet, so the lines are those that the bytes complete.
  have scanned : splitFrom 10 [] (buf ++ bytes) = splitFrom 10 buf bytes := by
    rw [splitFrom_append, splitFrom_of_notMem [] (follows.clean buf connected)]
    rfl
  have stream : splitFrom 10 [] (st.received ++ bytes) =
      (completed 10 st.received ++ (splitFrom 10 (begun 10 st.received) bytes).1,
        (splitFrom 10 (begun 10 st.received) bytes).2) :=
    splitFrom_append 10 [] st.received bytes
  obtain ⟨lines, rest⟩ :=
    splitFrom_kept (by decide) 10 (follows.buffer buf connected) bytes fits
  rw [scanned]
  let read : WmServer := { st with socket, received := st.received ++ bytes }
  obtain ⟨handled, received, -⟩ := read.execute_log (splitFrom 10 buf bytes).1
  exact {
    handled := by
      change (read.execute (splitFrom 10 buf bytes).1).handled =
        (splitFrom 10 [] (read.execute (splitFrom 10 buf bytes).1).received).1.map _
      rw [handled, received, stream, lines, List.map_append, List.map_map]
      exact congrArg (· ++ _) follows.handled
    buffer := by
      rintro _ ⟨⟩
      change _ = kept _ (splitFrom 10 [] (read.execute (splitFrom 10 buf bytes).1).received).2
      rw [received, stream]
      exact rest
    clean := by
      rintro _ ⟨⟩
      exact notMem_splitFrom (follows.clean buf connected) bytes }

theorem Follows.readLoop (follows : st.Follows) (answers : List WmRead) :
    (st.wmReadLoop answers).Follows := by
  induction answers generalizing st with
  | nil => exact follows
  | cons answer answers ih =>
    rw [wmReadLoop]
    split
    · exact follows
    · rename_i buf connected
      have roomy := follows.makeRoom connected
      split
      · -- Some bytes have arrived, or there is nothing to read.
        dsimp only
        split
        · exact roomy
        · apply ih
          refine roomy.read rfl ?_ _
          have bound : (wmRoom buf).length < wmBuf - 1 := length_emptied (by decide) buf
          rw [List.length_take]
          omega
      · exact ih roomy
      · exact follows.drop
      · exact follows.drop

theorem Follows.after (follows : st.Follows) (event : WmEvent) : (st.after event).Follows := by
  cases event with
  | write bytes => exact ⟨follows.handled, follows.buffer, follows.clean⟩
  | windows seat appId => exact ⟨follows.handled, follows.buffer, follows.clean⟩
  | wake error hangup answers =>
    show (st.wmClientReadable error hangup answers).Follows
    unfold wmClientReadable
    split
    · exact follows
    · split
      · exact follows.drop
      · dsimp only
        split
        · exact (follows.readLoop answers).drop
        · exact follows.readLoop answers

theorem Connected.follows (connected : st.Connected) : st.Follows where
  handled := by
    rw [connected.handled, connected.received]
    rfl
  buffer := by
    rintro buf here
    rw [connected.client, Option.some.injEq] at here
    rw [← here, connected.received]
    rfl
  clean := by
    rintro buf here
    rw [connected.client, Option.some.injEq] at here
    rw [← here]
    exact List.not_mem_nil

theorem follows_of_run {trace : List WmEvent} (run : machine.Run trace st) : st.Follows :=
  run.invariant (fun _ st => st.Follows) (fun _ begun => Connected.follows begun)
    fun _ _ event follows _ => follows.after event

theorem received_append_socket {trace : List WmEvent} (run : machine.Run trace st) :
    st.received ++ st.socket = written trace := by
  refine run.invariant (fun trace st => st.received ++ st.socket = written trace) ?_ ?_
  · intro st begun
    rw [Connected.received begun, Connected.socket begun]
    rfl
  · intro trace st event whole _
    have stream : written (event :: trace) = written trace ++ written [event] := by
      simp [written]
    rw [stream, ← whole]
    cases event with
    | write bytes => simp [machine, after, written]
    | windows seat appId => simp [machine, after, written]
    | wake error hangup answers =>
      show (st.wmClientReadable error hangup answers).received ++
        (st.wmClientReadable error hangup answers).socket = _
      rw [wmClientReadable_stream]
      simp [written]

/-- A line that leaves room for its end in the buffer. -/
def Fits (line : List UInt8) : Prop :=
  line.length + 1 < wmBuf
  deriving Decidable

/-- Of the peer's bytes that were read, the lines that fit are executed and nothing else, exactly
if all of the lines fit. -/
theorem executes_lines {trace : List WmEvent} {st : WmServer} (run : machine.Run trace st) :
    st.received ++ st.socket = written trace ∧
      (st.handled = ((completed 10 st.received).filter Fits).map wmLine ↔
        ∀ line ∈ completed 10 st.received, Fits line) := by
  refine ⟨received_append_socket run, ?_⟩
  rw [(follows_of_run run).handled]
  constructor
  · -- Every line has something executed for it, so none may be left out.
    intro same line member
    have counts := congrArg List.length same
    rw [List.length_map, List.length_map] at counts
    have all := List.length_filter_eq_length_iff.mp counts.symm
    simpa using all line member
  · intro fit
    rw [List.filter_eq_self.mpr (by simpa using fit)]
    apply List.map_congr_left
    intro line member
    have short : line.length + 1 < wmBuf := fit line member
    exact congrArg wmLine (kept_of_short (by omega))

def shortScript : List WmEvent :=
  [.write (CText.ascii "raise\tapp\n"), .wake false false [.upTo 4, .upTo 100]]

def longScript : List WmEvent :=
  [.write (List.replicate 255 65 ++ CText.ascii "raise\tapp\n"),
    .wake false false [.upTo 255, .upTo 100]]

theorem executes_lines_of_short :
    (shortScript.foldl after {}).handled =
      ((completed 10 (shortScript.foldl after {}).received).filter Fits).map wmLine :=
  (executes_lines (Machine.Run.of_script (m := machine) ⟨rfl, rfl, rfl, rfl⟩ shortScript
    (Machine.admits_of_enabled (fun _ _ => trivial) _ _))).2.mpr (by decide +kernel)

theorem not_executes_lines :
    ¬ ∀ (trace : List WmEvent) (st : WmServer), machine.Run trace st →
      st.handled = ((completed 10 st.received).filter Fits).map wmLine := by
  intro every
  have run := Machine.Run.of_script (m := machine) (s := {}) ⟨rfl, rfl, rfl, rfl⟩ longScript
    (Machine.admits_of_enabled (fun _ _ => trivial) _ _)
  exact absurd (every _ _ run) (by decide +kernel)

end WmServer

end Xios
