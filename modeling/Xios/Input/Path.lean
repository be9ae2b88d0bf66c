import Xios.Input.SenderLaws
import Xios.Input.SocketLaws

/-! The whole way of an input record, from the app's call to the compositor's callback. -/

namespace Xios

open IoscInput in
def openingRecords (window : BitVec 32) : List SenderRecord :=
  { msg := .hello } :: if window = 0#32 then [] else [{ msg := bindMsg window }]

def SenderRecord.delivered (window : BitVec 32) (r : SenderRecord) : InputRecord :=
  ⟨r.msg, r.payload, window⟩

/-- One connection with both of its ends. -/
structure InputPath where
  -- The app's end.
  sender : IoscInput
  -- The compositor's end.
  receiver : InConnection

namespace InputPath

/-- What happens at both ends of the path. -/
inductive Event where
  -- The app calls one of its functions.
  | call (answers : List SenderAnswer) (c : IoscInput.Call)
  -- The compositor reads, or sees the end of the stream.
  | receive (event : InConnection.Event)

def next (s : InputPath) : Event → InputPath
  | .call answers c => { s with sender := s.sender.call answers c }
  | .receive event => { s with receiver := s.receiver.next event }

/-- The compositor reads what the app has written, in that order. -/
def Allowed (s : InputPath) : Event → Prop
  | .call _ _ => True
  | .receive event =>
    s.receiver.Allowed event ∧ s.receiver.consumed ++ event.bytes <+: s.sender.written

instance (s : InputPath) (event : Event) : Decidable (s.Allowed event) := by
  unfold Allowed
  cases event <;> infer_instance

/-- All histories of a connection the app could open for some window. -/
def machine (peerUid window : BitVec 32) : Machine InputPath Event where
  start s := ∃ hello bind, s.sender = IoscInput.inputOpen window hello bind ∧
    s.sender.isOpen = true ∧ s.receiver = .accepted peerUid
  enabled := Allowed
  next := next

instance (peerUid window : BitVec 32) (s : InputPath) (event : Event) :
    Decidable ((machine peerUid window).enabled s event) :=
  inferInstanceAs (Decidable (s.Allowed event))

open IoscInput

theorem kind_of_plain {type : BitVec 32}
    (kind : type ∈ [inMotion, inButton, inKey, inTouch, inTablet, inAxis, inGesture]) :
    isClientMessage type = true ∧ type ≠ inText ∧ type ≠ inTraits ∧ type ≠ inImproxy ∧
      type ≠ inBind := by
  simp only [List.mem_cons, List.not_mem_nil, or_false] at kind
  rcases kind with rfl | rfl | rfl | rfl | rfl | rfl | rfl <;> decide

theorem parse_plain (peerUid : BitVec 32) (role : InputRole) {m : XiosMsg} (plain : Plain m)
    (rest : List UInt8) :
    (inputReader peerUid).parse (.header role) (m.encode ++ rest) =
      ((inputReader peerUid).parse (.header role) rest).prepend [⟨m, [], role.boundWindow⟩] := by
  obtain ⟨magic, length, kind⟩ := plain
  obtain ⟨known, text, traits, improxy, bind⟩ := kind_of_plain kind
  have permitted : role.Permits peerUid m :=
    ⟨magic, known, text, length, fun here => absurd here traits, fun here => absurd here improxy⟩
  rw [Reader.parse_more _ m.length_encode (inputReader_permitted m.decode_encode.symm permitted)]
  simp [InputRole.after, InputRole.delivers, bind, improxy]

theorem parse_text (peerUid : BitVec 32) (role : InputRole) {payload : List UInt8}
    (some : 1 ≤ payload.length) (small : payload.length ≤ textChunk) (rest : List UInt8) :
    (inputReader peerUid).parse (.header role)
        ((textMsg payload.length).encode ++ (payload ++ rest)) =
      ((inputReader peerUid).parse (.header role) rest).prepend
        [⟨textMsg payload.length, payload, role.boundWindow⟩] := by
  have size : (textMsg payload.length).length.toNat = payload.length := by
    have bounded : payload.length < 2 ^ 32 := Nat.lt_of_le_of_lt small (by decide)
    simpa [textMsg] using Nat.mod_eq_of_lt bounded
  have valid : (textMsg payload.length).ValidText :=
    ⟨rfl, rfl, size.symm ▸ some, size.symm ▸ small, rfl⟩
  rw [Reader.parse_more _ (XiosMsg.length_encode _)
    (inputReader_text (textMsg payload.length).decode_encode.symm valid)]
  have went : (inputReader peerUid).finish (.text role _ valid) payload =
      .more (.header role) [⟨textMsg payload.length, payload, role.boundWindow⟩] := rfl
  rw [Reader.parse_more _ size.symm went]
  rfl

variable {records : List SenderRecord}

theorem parse_produced (peerUid : BitVec 32) (role : InputRole)
    (produced : ∀ r ∈ records, Produced r) :
    (inputReader peerUid).parse (.header role) (senderStream records) =
      ⟨records.map (SenderRecord.delivered role.boundWindow), some (.header role, []), []⟩ := by
  induction records with
  | nil => exact Reader.parse_nil _ _
  | cons r rest ih =>
    have later := ih fun r member => produced r (List.mem_cons_of_mem _ member)
    have first := produced r List.mem_cons_self
    have split : senderStream (r :: rest) = r.msg.encode ++ (r.payload ++ senderStream rest) := by
      simp [senderStream, SenderRecord.bytes]
    rw [split]
    cases first with
    | plain plain =>
      rw [List.nil_append, parse_plain peerUid role plain, later]
      rfl
    | text payload some small =>
      rw [parse_text peerUid role some small, later]
      rfl

theorem parse_opened (peerUid window : BitVec 32) (produced : ∀ r ∈ records, Produced r) :
    (inputReader peerUid).parse .hello (senderStream (openingRecords window ++ records)) =
      ⟨records.map (SenderRecord.delivered window), some (.header ⟨window, false⟩, []), []⟩ := by
  have hello (rest : List UInt8) : (inputReader peerUid).parse .hello (XiosMsg.hello.encode ++ rest) =
      (inputReader peerUid).parse (.header ⟨0#32, false⟩) rest := by
    rw [Reader.parse_more (inputReader peerUid) (XiosMsg.length_encode _) rfl]
    rfl
  unfold openingRecords
  split
  · rename_i unbound
    subst unbound
    rw [List.singleton_append, show senderStream _ = XiosMsg.hello.encode ++ senderStream records by
      simp [senderStream, SenderRecord.bytes], hello]
    exact parse_produced peerUid ⟨0#32, false⟩ produced
  · -- The record that binds the connection delivers nothing.
    have permitted : InputRole.Permits peerUid ⟨0#32, false⟩ (bindMsg window) :=
      ⟨rfl, rfl, (by decide : inBind ≠ inText), rfl,
        fun traits => absurd traits (by decide : inBind ≠ inTraits),
        fun improxy => absurd improxy (by decide : inBind ≠ inImproxy)⟩
    rw [show senderStream _ = XiosMsg.hello.encode ++ ((bindMsg window).encode ++
      senderStream records) by simp [senderStream, SenderRecord.bytes], hello,
      Reader.parse_more _ (XiosMsg.length_encode _)
        (inputReader_permitted (bindMsg window).decode_encode.symm permitted)]
    exact parse_produced peerUid ⟨window, false⟩ produced

/-- The compositor is behind the app, which has sent only what it should. -/
structure Sound (peerUid window : BitVec 32) (s : InputPath) : Prop where
  -- The app's end loses nothing.
  sender : s.sender.Sound
  -- The app has sent its opening records and those of its calls.
  calls : ∃ records, s.sender.sent = openingRecords window ++ records ∧ ∀ r ∈ records, Produced r
  -- The compositor's end stands where the protocol does.
  tracks : s.receiver.Tracks peerUid
  -- The compositor has read what the app has written.
  behind : s.receiver.consumed <+: s.sender.written

variable {window : BitVec 32}

theorem opened_inputOpen {hello bind : SenderAnswer}
    (alive : (inputOpen window hello bind).isOpen = true) :
    (inputOpen window hello bind).Sound ∧
      (inputOpen window hello bind).sent = openingRecords window := by
  have small (m : XiosMsg) : (SenderRecord.mk m []).bytes.length ≤ outqMax := by
    simp [SenderRecord.bytes, msgSize, outqMax]
  have first := IoscInput.sound_new.sendRecord (small .hello) hello
  have said := sent_sendRecord {} { msg := .hello } hello
  unfold inputOpen openingRecords at *
  split
  · exact ⟨first, said⟩
  · rename_i bound
    rw [if_neg bound] at alive
    refine ⟨first.sendRecord (small _) bind, ?_⟩
    have greeted : (sendMsg {} .hello hello).isOpen = true := by
      by_contra closed
      rw [Bool.not_eq_true] at closed
      rw [sendMsg, sendRecord, if_pos closed] at alive
      rw [closed] at alive
      cases alive
    rw [sendMsg, sent_sendRecord, greeted, sendMsg, said]
    rfl

variable {peerUid : BitVec 32}

/-- Every event leaves the compositor behind the app. -/
theorem Sound.next {s : InputPath} (sound : s.Sound peerUid window) {event : Event}
    (allowed : s.Allowed event) : (s.next event).Sound peerUid window := by
  cases event with
  | call answers c =>
    obtain ⟨records, sent, produced⟩ := sound.calls
    obtain ⟨added, kept, more, good⟩ := sound.sender.call answers c
    refine ⟨kept, ⟨records ++ added, ?_, ?_⟩, sound.tracks,
      sound.behind.trans (written_call _ _ _)⟩
    · show (s.sender.call answers c).sent = _
      rw [more, sent, List.append_assoc]
    · intro r member
      rcases List.mem_append.1 member with old | new
      · exact produced r old
      · exact good r new
  | receive event =>
    obtain ⟨possible, follows⟩ := allowed
    refine ⟨sound.sender, sound.calls, sound.tracks.next possible, ?_⟩
    have consumed : (s.receiver.next event).consumed = s.receiver.consumed ++ event.bytes := by
      cases event with
      | eofFlag => rfl
      | read result =>
        simp only [InConnection.next]
        split <;> rfl
    show (s.receiver.next event).consumed <+: s.sender.written
    rw [consumed]
    exact follows

theorem sound_of_run {trace : List Event} {s : InputPath}
    (run : (machine peerUid window).Run trace s) : s.Sound peerUid window := by
  refine run.invariant (fun _ s => s.Sound peerUid window) ?_ ?_
  · rintro ⟨sender, receiver⟩ ⟨hello, bind, rfl, alive, rfl⟩
    obtain ⟨sound, sent⟩ := opened_inputOpen alive
    refine ⟨sound, ⟨[], by simpa using sent, fun _ none => by cases none⟩, ?_, List.nil_prefix⟩
    exact InConnection.run_tracks (.start rfl)
  · exact fun _ _ _ sound allowed => sound.next allowed

theorem delivered_of_begun {c : InConnection} (tracks : c.Tracks peerUid)
    (produced : ∀ r ∈ records, Produced r)
    (part : c.consumed <+: senderStream (openingRecords window ++ records)) :
    c.dispatched <+: records.map (SenderRecord.delivered window) ∧
      c.dropped ≠ some .violation := by
  obtain ⟨out, phase, got, parsed, front⟩ :=
    Reader.parse_of_prefix _ (parse_opened peerUid window produced) part
  refine ⟨?_, ?_⟩
  · rw [← tracks.delivered, parsed]
    exact front
  · -- A violation would have ended the reading.
    intro violation
    rw [InConnection.Tracks, violation] at tracks
    rw [parsed] at tracks
    cases tracks

/--
The compositor is given the records of the app's calls, whole, unaltered and in order.

However little is written or read at a time, what its callback has received is a first part of
the records the calls produced, and none of them counts as a violation.
If the connection was dropped because too much would have had to wait, nothing of the record that
was too much is received.
Once everything was written and read, every record has been received.
-/
theorem input_path {peerUid window : BitVec 32} {trace : List Event} {s : InputPath}
    (run : (machine peerUid window).Run trace s) :
    ∃ records, s.sender.sent = openingRecords window ++ records ∧
      s.receiver.dispatched <+: records.map (SenderRecord.delivered window) ∧
      s.receiver.dropped ≠ some .violation ∧
      (s.sender.loss = some .overflow →
        s.receiver.dispatched <+: records.dropLast.map (SenderRecord.delivered window)) ∧
      (s.sender.isOpen = true → s.sender.queued = [] → s.receiver.consumed = s.sender.written →
        s.receiver.dispatched = records.map (SenderRecord.delivered window)) := by
  obtain ⟨sender, ⟨records, sent, produced⟩, tracks, behind⟩ := sound_of_run run
  have part : s.receiver.consumed <+: senderStream (openingRecords window ++ records) :=
    sent ▸ behind.trans sender.inOrder
  obtain ⟨front, fine⟩ := delivered_of_begun tracks produced part
  refine ⟨records, sent, front, fine, ?_, ?_⟩
  · intro overflow
    obtain ⟨before, r, split, short⟩ := sender.fits overflow
    rcases List.eq_nil_or_concat records with rfl | ⟨init, last, rfl⟩
    · exact front
    · -- The last record is the one that was too much.
      rw [List.concat_eq_append] at *
      rw [sent, ← List.append_assoc] at split
      have same : openingRecords window ++ init = before := (List.append_inj' split rfl).1
      rw [List.dropLast_concat]
      have part : s.receiver.consumed <+: senderStream (openingRecords window ++ init) :=
        same ▸ behind.trans short
      have kept : ∀ r ∈ init, Produced r :=
        fun r member => produced r (List.mem_append_left _ member)
      exact (delivered_of_begun tracks kept part).1
  · intro alive idle read
    have exact := sender.exact alive
    rw [idle, List.append_nil, sent, ← read] at exact
    have parsed := parse_opened peerUid window produced
    rw [← exact] at parsed
    rw [← tracks.delivered, parsed]

def promptPath : InputPath :=
  { sender := inputOpen 7#32 { plan := [.took 32] } { plan := [.took 32] }
    receiver := .accepted 501#32 }

def heldUp : List Event :=
  [.receive (.read (.data XiosMsg.hello.encode true)),
    .call [{ plan := [.took 40, .again] }] (.text [104, 105]),
    .receive (.read (.data (bindMsg 7#32).encode true)),
    .receive (.read (.data (textMsg 2).encode true)),
    .call [{ plan := [.took 1, .again] }] (.key 0x61#32 true 0#32),
    .receive (.read (.data [104] true)), .receive (.read .again),
    .call [{ plan := [.intr, .took 64] }] (.pollTraits false),
    .receive (.read (.data [105] true)),
    .receive (.read (.data (keyMsg 0x61#32 true 0#32).encode true))]

theorem input_path_heldUp :
    ∃ s, (machine 501#32 7#32).Run heldUp.reverse s ∧ s.sender.isOpen = true ∧
      s.receiver.dispatched =
        [⟨textMsg 2, [104, 105], 7#32⟩, ⟨keyMsg 0x61#32 true 0#32, [], 7#32⟩] ∧
      s.receiver.dropped ≠ some .violation := by
  have run := Machine.Run.of_script (m := machine 501#32 7#32) (s := promptPath)
    ⟨{ plan := [.took 32] }, { plan := [.took 32] }, rfl, by decide, rfl⟩ heldUp (by decide)
  obtain ⟨records, sent, -, fine, -, all⟩ := input_path run
  have two : records = [⟨textMsg 2, [104, 105]⟩, ⟨keyMsg 0x61#32 true 0#32, []⟩] := by
    have known : (heldUp.foldl next promptPath).sender.sent = openingRecords 7#32 ++
        [⟨textMsg 2, [104, 105]⟩, ⟨keyMsg 0x61#32 true 0#32, []⟩] := by decide
    exact List.append_cancel_left (sent.symm.trans known)
  refine ⟨_, run, by decide, ?_, fine⟩
  rw [all (by decide) (by decide) (by decide), two]
  rfl

end InputPath

end Xios
