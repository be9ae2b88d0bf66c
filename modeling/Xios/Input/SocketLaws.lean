import Xios.Input.Socket
import Xios.Lib.Framing

/-! However its bytes are split into reads, an input connection is read like one whole stream. -/

namespace Xios

/-- A text record with a payload of an acceptable size. -/
def XiosMsg.ValidText (m : XiosMsg) : Prop :=
  m.magic = msgMagic ∧ m.type = inText ∧ 1 ≤ m.length.toNat ∧ m.length.toNat ≤ inTextMax ∧
    m.c = m.length
  deriving Decidable

/-- What earlier records have made of a client. -/
structure InputRole where
  boundWindow : BitVec 32
  -- It is a registered input-method proxy.
  improxy : Bool
  deriving DecidableEq

/-- A record without payload that a client in the given role may send. -/
def InputRole.Permits (peerUid : BitVec 32) (role : InputRole) (m : XiosMsg) : Prop :=
  m.magic = msgMagic ∧ isClientMessage m.type = true ∧ m.type ≠ inText ∧ m.length = 0#32 ∧
    (m.type = inTraits → role.improxy = true) ∧
    (m.type = inImproxy → m.c = 0#32 ∨ peerUid = 0#32)
  deriving Decidable

def InputRole.after (role : InputRole) (m : XiosMsg) : InputRole :=
  if m.type = inBind then { role with boundWindow := m.c }
  else if m.type = inImproxy then { role with improxy := m.c != 0#32 }
  else role

def InputRole.delivers (role : InputRole) (m : XiosMsg) : List InputRecord :=
  if m.type = inBind ∨ m.type = inImproxy then [] else [⟨m, [], role.boundWindow⟩]

/-- Where in its stream a client is. -/
inductive InputPhase where
  -- Before the opening record.
  | hello
  -- Before the header of a record.
  | header (role : InputRole)
  -- Between the header and the payload of a text record.
  | text (role : InputRole) (m : XiosMsg) (valid : m.ValidText)

def inputReader (peerUid : BitVec 32) : Reader InputPhase UInt8 InputRecord where
  want
    | .hello | .header _ => msgSize
    | .text _ m _ => m.length.toNat
  positive
    | .hello | .header _ => Nat.succ_pos _
    | .text _ _ valid => valid.2.2.1
  finish
    | .hello, bytes =>
      if (XiosMsg.decode bytes).isExactHello then .more (.header ⟨0#32, false⟩) [] else .stop []
    | .header role, bytes =>
      let m := XiosMsg.decode bytes
      if valid : m.ValidText then .more (.text role m valid) []
      else if role.Permits peerUid m then .more (.header (role.after m)) (role.delivers m)
      else .stop []
    | .text role m _, bytes => .more (.header role) [⟨m, bytes, role.boundWindow⟩]

def InClient.role (c : InClient) : InputRole :=
  ⟨c.boundWindow, c.improxy⟩

/-- A client is in the given phase, with part of the frame that the phase expects. -/
inductive InClient.Matches (c : InClient) : InputPhase → List UInt8 → Prop where
  -- Its opening record is incomplete.
  | hello (unopened : c.helloReceived = false) (role : c.role = ⟨0#32, false⟩)
      (partly : c.hdr.length < msgSize) : Matches c .hello c.hdr
  | header (opened : c.helloReceived = true) (partly : c.hdr.length < msgSize) :
      Matches c (.header c.role) c.hdr
  -- The header of a text record is complete and its payload is not.
  | text {got : List UInt8} (opened : c.helloReceived = true) (full : c.hdr.length = msgSize)
      (valid : c.msg.ValidText) (buffer : c.payload = some got)
      (partly : got.length < c.msg.length.toNat) : Matches c (.text c.role c.msg valid) got

variable {c : InClient} {phase : InputPhase} {got : List UInt8}

theorem InClient.Matches.partly (peerUid : BitVec 32) (agree : c.Matches phase got) :
    got.length < (inputReader peerUid).want phase := by
  cases agree with
  | hello _ _ partly => exact partly
  | header _ partly => exact partly
  | text _ _ _ _ partly => exact partly

theorem InClient.Matches.requested (peerUid : BitVec 32) (agree : c.Matches phase got) :
    c.requested = (inputReader peerUid).want phase - got.length := by
  cases agree with
  | hello _ _ partly => simp [InClient.requested, partly, inputReader]
  | header _ partly => simp [InClient.requested, partly, inputReader]
  | text _ full _ buffer _ => simp [InClient.requested, full, buffer, inputReader]

theorem InClient.matches_reset (opened : c.helloReceived = true) :
    c.reset.Matches (.header c.role) [] :=
  .header (c := c.reset) opened (by simp [reset, msgSize])

/-- One pass through the read loop does what the protocol says about the bytes it read. -/
inductive InClient.Follows (peerUid : BitVec 32) (phase : InputPhase) (got : List UInt8) :
    ReadStep → Prop where
  -- The frame is still incomplete.
  | waits {client : InClient} (uid : client.peerUid = peerUid) (agree : client.Matches phase got) :
      Follows peerUid phase got (.keep client none)
  -- The frame is complete and acceptable.
  | goes {client : InClient} (phase' : InputPhase) {record : Option InputRecord}
      (uid : client.peerUid = peerUid)
      (full : got.length = (inputReader peerUid).want phase)
      (went : (inputReader peerUid).finish phase got = .more phase' record.toList)
      (agree : client.Matches phase' []) : Follows peerUid phase got (.keep client record)
  -- The frame is complete and breaks the protocol.
  | stops (full : got.length = (inputReader peerUid).want phase)
      (stopped : (inputReader peerUid).finish phase got = .stop []) :
      Follows peerUid phase got (.drop .violation)
  -- There is no memory for the payload that an acceptable frame announces.
  | starves {phase' : InputPhase} (full : got.length = (inputReader peerUid).want phase)
      (went : (inputReader peerUid).finish phase got = .more phase' []) :
      Follows peerUid phase got (.drop .closed)

section Header

variable {peerUid : BitVec 32} {role : InputRole} {bytes : List UInt8} {m : XiosMsg}

theorem inputReader_text (decoded : m = XiosMsg.decode bytes) (valid : m.ValidText) :
    (inputReader peerUid).finish (.header role) bytes = .more (.text role m valid) [] := by
  subst decoded
  exact dif_pos valid

theorem inputReader_permitted (decoded : m = XiosMsg.decode bytes)
    (permitted : role.Permits peerUid m) :
    (inputReader peerUid).finish (.header role) bytes =
      .more (.header (role.after m)) (role.delivers m) := by
  have other : ¬m.ValidText := fun valid => permitted.2.2.1 valid.2.1
  subst decoded
  simp [inputReader, other, permitted]

theorem inputReader_violation (decoded : m = XiosMsg.decode bytes) (invalid : ¬m.ValidText)
    (forbidden : ¬role.Permits peerUid m) :
    (inputReader peerUid).finish (.header role) bytes = .stop [] := by
  subst decoded
  simp [inputReader, invalid, forbidden]

end Header

theorem InClient.follows_permitted {c : InClient} (after : InClient) {bytes : List UInt8}
    {m : XiosMsg} {record : Option InputRecord} (full : bytes.length = msgSize)
    (decoded : m = XiosMsg.decode bytes) (permitted : c.role.Permits c.peerUid m)
    (uid : after.peerUid = c.peerUid) (opened : after.helloReceived = true)
    (role : after.role = c.role.after m) (delivered : c.role.delivers m = record.toList) :
    Follows c.peerUid (.header c.role) bytes (.keep after.reset record) := by
  refine .goes (.header after.role) uid full ?_ (matches_reset opened)
  rw [inputReader_permitted decoded permitted, role, delivered]

/-- The checks of the source, in their order, accept what the reference reader accepts. -/
theorem InClient.acceptHeader_follows {c : InClient} {phase : InputPhase} (allocated : Bool)
    (full : c.hdr.length = msgSize) (decoded : c.msg = XiosMsg.decode c.hdr)
    (agree : (c.helloReceived = false ∧ phase = .hello ∧ c.role = ⟨0#32, false⟩) ∨
      (c.helloReceived = true ∧ phase = .header c.role)) :
    Follows c.peerUid phase c.hdr (c.acceptHeader allocated) := by
  rcases agree with ⟨unopened, rfl, role⟩ | ⟨opened, rfl⟩
  · -- Before anything else the opening record has to be exact.
    simp only [acceptHeader, unopened, Bool.not_false, ↓reduceIte, decoded]
    split
    · rename_i exact
      refine .goes (.header ⟨0#32, false⟩) rfl full (by simp [inputReader, exact]) ?_
      rw [← role]
      exact matches_reset (c := { c with helloReceived := true }) rfl
    · rename_i inexact
      exact .stops full (by simp [inputReader, inexact])
  · -- The checks are taken in the source's order, and each one that fails breaks a rule.
    have violation (invalid : ¬c.msg.ValidText) (forbidden : ¬c.role.Permits c.peerUid c.msg) :
        Follows c.peerUid (.header c.role) c.hdr (.drop .violation) := by
      exact .stops full (inputReader_violation decoded invalid forbidden)
    rw [acceptHeader, if_neg (by simp [opened])]
    simp only [Bool.or_eq_true, bne_iff_ne, beq_iff_eq, Bool.not_eq_true', Bool.and_eq_true,
      decide_eq_true_eq, XiosMsg.inputCode]
    split
    · rename_i foreign
      refine violation ?_ ?_
      · rintro ⟨magic, type, -⟩
        rw [magic, type] at foreign
        revert foreign
        decide
      · rintro ⟨magic, known, -⟩
        rcases foreign with (wrong | hello) | unknown
        · exact wrong magic
        · rw [hello] at known
          exact absurd known (by decide)
        · rw [known] at unknown
          cases unknown
    rename_i ours
    simp only [not_or, not_not, Bool.not_eq_false] at ours
    obtain ⟨⟨magic, -⟩, known⟩ := ours
    split
    · rename_i loaded
      exact violation (fun valid => loaded.1 valid.2.1) fun permitted =>
        loaded.2 permitted.2.2.2.1
    rename_i unloaded
    have empty (other : c.msg.type ≠ inText) : c.msg.length = 0#32 := by
      by_contra loaded
      exact unloaded ⟨other, loaded⟩
    split
    · rename_i bind
      have other : c.msg.type ≠ inText := by rw [bind]; decide
      have permitted : c.role.Permits c.peerUid c.msg :=
        ⟨magic, known, other, empty other, fun same => absurd (bind.symm.trans same) (by decide),
          fun same => absurd (bind.symm.trans same) (by decide)⟩
      refine follows_permitted { c with boundWindow := c.msg.c } full decoded permitted
        rfl opened ?_ ?_
      · simp [role, InputRole.after, bind]
      · simp [InputRole.delivers, bind]
    rename_i unbound
    split
    · rename_i improxy
      have other : c.msg.type ≠ inText := by rw [improxy]; decide
      split
      · rename_i claimed
        refine violation (fun valid => other valid.2.1) fun permitted => ?_
        rcases permitted.2.2.2.2.2 improxy with zero | root
        · exact claimed.1 zero
        · exact claimed.2 root
      · rename_i entitled
        have permitted : c.role.Permits c.peerUid c.msg := by
          refine ⟨magic, known, other, empty other,
            fun same => absurd (improxy.symm.trans same) (by decide), fun _ => ?_⟩
          by_contra neither
          exact entitled (not_or.mp neither)
        refine follows_permitted { c with improxy := c.msg.c != 0#32 } full decoded
          permitted rfl opened ?_ ?_
        · simp only [role, InputRole.after, if_neg unbound, if_pos improxy]
        · simp [InputRole.delivers, improxy]
    rename_i unproxied
    split
    · rename_i traits
      refine violation (fun valid => absurd (traits.1.symm.trans valid.2.1) (by decide))
        fun permitted => ?_
      rw [show c.improxy = true from permitted.2.2.2.2.1 traits.1] at traits
      exact absurd traits.2 (by decide)
    rename_i untraited
    split
    · rename_i text
      split
      · rename_i oversized
        refine violation ?_ fun permitted => permitted.2.2.1 text
        rintro ⟨-, -, positive, bounded, same⟩
        rcases oversized with (zero | large) | differs
        · rw [zero] at positive
          exact absurd positive (by decide)
        · omega
        · exact differs same
      · rename_i sized
        simp only [not_or, Nat.not_lt, not_not] at sized
        have positive : 1 ≤ c.msg.length.toNat := by
          rcases Nat.eq_zero_or_pos c.msg.length.toNat with zero | positive
          · exact absurd (BitVec.eq_of_toNat_eq zero) sized.1.1
          · exact positive
        have valid : c.msg.ValidText := ⟨magic, text, positive, sized.1.2, sized.2⟩
        split
        · exact .goes (.text c.role c.msg valid) rfl full
            (inputReader_text decoded valid)
            (.text (c := { c with payload := some [] }) opened full valid rfl positive)
        · exact .starves full (inputReader_text decoded valid)
    · rename_i plain
      have permitted : c.role.Permits c.peerUid c.msg := by
        refine ⟨magic, known, plain, empty plain, fun traits => ?_,
          fun same => absurd same unproxied⟩
        by_contra stranger
        exact untraited ⟨traits, by simpa [role] using stranger⟩
      refine follows_permitted c full decoded permitted rfl opened ?_ ?_
      · simp [InputRole.after, unbound, unproxied]
      · simp [InputRole.delivers, unbound, unproxied, role]

/-- One read of the socket does what the reference reader does with its bytes. -/
theorem InClient.clientRead_follows {c : InClient} {phase : InputPhase} {got bytes : List UInt8}
    (agree : c.Matches phase got) (asked : bytes.length ≤ c.requested) (allocated : Bool) :
    Follows c.peerUid phase (got ++ bytes) (c.clientRead (.data bytes allocated)) := by
  have limit : (got ++ bytes).length ≤ (inputReader c.peerUid).want phase := by
    rw [agree.requested c.peerUid] at asked
    have partly := agree.partly c.peerUid
    simp only [List.length_append]
    omega
  cases agree with
  | hello unopened role partly =>
    simp only [clientRead, partly, ↓reduceIte]
    split
    · rename_i short
      exact .waits rfl (.hello (c := { c with hdr := c.hdr ++ bytes }) unopened role short)
    · rename_i long
      have full : (c.hdr ++ bytes).length = msgSize := Nat.le_antisymm limit (Nat.not_lt.mp long)
      exact acceptHeader_follows allocated (c := { c with
        hdr := c.hdr ++ bytes, msg := XiosMsg.decode (c.hdr ++ bytes) }) full rfl
        (Or.inl ⟨unopened, rfl, role⟩)
  | header opened partly =>
    simp only [clientRead, partly, ↓reduceIte]
    split
    · rename_i short
      exact .waits rfl (.header (c := { c with hdr := c.hdr ++ bytes }) opened short)
    · rename_i long
      have full : (c.hdr ++ bytes).length = msgSize := Nat.le_antisymm limit (Nat.not_lt.mp long)
      exact acceptHeader_follows allocated (c := { c with
        hdr := c.hdr ++ bytes, msg := XiosMsg.decode (c.hdr ++ bytes) }) full rfl
        (Or.inr ⟨opened, rfl⟩)
  | text opened full valid buffer partly =>
    simp only [clientRead, full, Nat.lt_irrefl, ↓reduceIte, buffer, Option.getD_some]
    split
    · rename_i short
      exact .waits rfl (.text (c := { c with payload := some (got ++ bytes) }) opened full valid
        rfl short)
    · rename_i long
      exact .goes _ rfl (Nat.le_antisymm limit (Nat.not_lt.mp long)) rfl (matches_reset opened)

/-- A delivered record has the shape its type requires. -/
structure InputRecord.Proper (peerUid : BitVec 32) (record : InputRecord) : Prop where
  -- A text record carries as many bytes as its length and code say, up to the maximum.
  text : record.msg.type = inText → record.text.length = record.msg.length.toNat ∧
    record.msg.c = record.msg.length ∧ 1 ≤ record.text.length ∧ record.text.length ≤ inTextMax
  -- Every other record carries nothing.
  plain : record.msg.type ≠ inText → record.msg.length = 0#32 ∧ record.text = []
  -- Traits come from a registered proxy, which runs as root.
  traits : record.msg.type = inTraits → peerUid = 0#32

/-- The role in a phase is one that a client of the given user can have. -/
def InputPhase.Occurs (peerUid : BitVec 32) : InputPhase → Prop
  | .hello => True
  | .header role | .text role _ _ => role.improxy = true → peerUid = 0#32

/-- Whatever is dispatched may come from that peer. -/
theorem inputReader_proper (peerUid : BitVec 32) (input : List UInt8) :
    ∀ record ∈ ((inputReader peerUid).parse .hello input).out, record.Proper peerUid := by
  refine (inputReader peerUid).parse_all (InputPhase.Occurs peerUid) ?_ ?_
    (show InputPhase.Occurs peerUid .hello from trivial) input
  · -- A violation delivers nothing.
    intro phase frame out _ _ stopped
    cases phase with
    | hello =>
      simp only [inputReader] at stopped
      split at stopped <;> simp_all
    | header role =>
      simp only [inputReader] at stopped
      split at stopped
      · cases stopped
      · split at stopped <;> simp_all
    | text role m valid => simp [inputReader] at stopped
  · intro phase frame phase' out occurs full went
    cases phase with
    | hello =>
      simp only [inputReader] at went
      split at went
      · injection went with phases outs
        subst phases outs
        exact ⟨by simp [InputPhase.Occurs], by simp⟩
      · cases went
    | header role =>
      by_cases valid : (XiosMsg.decode frame).ValidText
      · rw [inputReader_text rfl valid] at went
        injection went with phases outs
        subst phases outs
        exact ⟨occurs, by simp⟩
      · by_cases permitted : role.Permits peerUid (XiosMsg.decode frame)
        · rw [inputReader_permitted rfl permitted] at went
          injection went with phases outs
          subst phases outs
          refine ⟨?_, ?_⟩
          · -- Only a root peer ever becomes a proxy.
            simp only [InputPhase.Occurs, InputRole.after]
            split
            · exact occurs
            · split
              · rename_i improxy
                intro registered
                exact (permitted.2.2.2.2.2 improxy).resolve_left (by simpa using registered)
              · exact occurs
          · intro record member
            simp only [InputRole.delivers] at member
            split at member
            · cases member
            · obtain rfl := List.mem_singleton.mp member
              exact ⟨fun text => absurd text permitted.2.2.1,
                fun _ => ⟨permitted.2.2.2.1, rfl⟩,
                fun traits => occurs (permitted.2.2.2.2.1 traits)⟩
        · rw [inputReader_violation rfl valid permitted] at went
          cases went
    | text role m valid =>
      injection went with phases outs
      subst phases outs
      refine ⟨occurs, fun record member => ?_⟩
      obtain rfl := List.mem_singleton.mp member
      have size : frame.length = m.length.toNat := full
      refine ⟨fun _ => ⟨size, valid.2.2.2.2, ?_, ?_⟩, fun other => absurd valid.2.1 other,
        fun traits => absurd (valid.2.1.symm.trans traits) (by decide)⟩
      · exact size ▸ valid.2.2.1
      · exact size ▸ valid.2.2.2.1

theorem inputReader_opened {peerUid : BitVec 32} {input : List UInt8}
    (delivered : ((inputReader peerUid).parse .hello input).out ≠ []) :
    (XiosMsg.decode (input.take msgSize)).isExactHello = true := by
  by_contra inexact
  apply delivered
  by_cases short : input.length < msgSize
  · rw [(inputReader peerUid).parse_short
      (show input.length < (inputReader peerUid).want .hello from short)]
  · have full : (input.take msgSize).length = msgSize := by
      rw [List.length_take]
      omega
    have stopped : (inputReader peerUid).finish .hello (input.take msgSize) = .stop [] := by
      simp [inputReader, inexact]
    rw [← List.take_append_drop msgSize input,
      (inputReader peerUid).parse_stop
        (show (input.take msgSize).length = (inputReader peerUid).want .hello from full) stopped]

namespace InConnection

/-- The connection stands where the protocol does after the bytes read so far. -/
def Tracks (peerUid : BitVec 32) (s : InConnection) : Prop :=
  match s.dropped with
  | none => ∃ phase got, s.client.peerUid = peerUid ∧ s.client.Matches phase got ∧
      (inputReader peerUid).parse .hello s.consumed = ⟨s.dispatched, some (phase, got), []⟩
  | some .violation =>
    (inputReader peerUid).parse .hello s.consumed = ⟨s.dispatched, none, []⟩
  | some .closed => ∃ phase got,
      (inputReader peerUid).parse .hello s.consumed = ⟨s.dispatched, some (phase, got), []⟩

/-- Every event keeps the connection where the protocol is. -/
theorem Tracks.next {peerUid : BitVec 32} {s : InConnection} (tracks : s.Tracks peerUid)
    {event : Event} (allowed : s.Allowed event) : (s.next event).Tracks peerUid := by
  obtain ⟨present, asked⟩ := allowed
  simp only [Tracks, present] at tracks
  obtain ⟨phase, got, rfl, agree, parsed⟩ := tracks
  cases event with
  | eofFlag => exact ⟨phase, got, by simpa [InConnection.next, Event.bytes] using parsed⟩
  | read result =>
    cases result with
    | eof =>
      exact ⟨phase, got,
        by simpa [InConnection.next, Event.bytes, InClient.clientRead] using parsed⟩
    | error =>
      exact ⟨phase, got,
        by simpa [InConnection.next, Event.bytes, InClient.clientRead] using parsed⟩
    | again =>
      simp only [InConnection.next, InClient.clientRead, Tracks, present]
      exact ⟨phase, got, trivial, agree, by simpa [Event.bytes] using parsed⟩
    | intr =>
      simp only [InConnection.next, InClient.clientRead, Tracks, present]
      exact ⟨phase, got, trivial, agree, by simpa [Event.bytes] using parsed⟩
    | data bytes allocated =>
      -- The reader goes on with the partial frame and the new bytes.
      have extended := (inputReader s.client.peerUid).parse_append_of_waiting parsed bytes
      have follows := InClient.clientRead_follows agree asked.2 allocated
      simp only [InConnection.next, Event.bytes]
      generalize s.client.clientRead (.data bytes allocated) = step at follows ⊢
      cases follows with
      | waits uid agree =>
        simp only [Tracks, present]
        refine ⟨phase, got ++ bytes, uid, agree, ?_⟩
        rw [extended, Reader.parse_short _ (uid ▸ agree.partly _)]
        rfl
      | goes phase' uid full went agree =>
        simp only [Tracks, present]
        refine ⟨phase', [], uid, agree, ?_⟩
        rw [extended, ← List.append_nil (got ++ bytes), Reader.parse_more _ full went,
          Reader.parse_nil]
        simp [Reader.Outcome.prepend]
      | stops full stopped =>
        simp only [Tracks]
        rw [extended, ← List.append_nil (got ++ bytes), Reader.parse_stop _ full stopped]
        simp [Reader.Outcome.prepend]
      | @starves phase' full went =>
        simp only [Tracks]
        refine ⟨phase', [], ?_⟩
        rw [extended, ← List.append_nil (got ++ bytes), Reader.parse_more _ full went,
          Reader.parse_nil]
        simp [Reader.Outcome.prepend]

theorem run_tracks {peerUid : BitVec 32} {trace : List Event} {s : InConnection}
    (run : (machine peerUid).Run trace s) : s.Tracks peerUid := by
  refine run.invariant (fun _ s => s.Tracks peerUid) ?_ ?_
  · rintro s rfl
    exact ⟨.hello, [], rfl, .hello rfl rfl (Nat.succ_pos _), Reader.parse_nil _ _⟩
  · exact fun _ _ _ tracks allowed => tracks.next allowed

theorem Tracks.delivered {peerUid : BitVec 32} {s : InConnection} (tracks : s.Tracks peerUid) :
    ((inputReader peerUid).parse .hello s.consumed).out = s.dispatched := by
  unfold Tracks at tracks
  split at tracks
  · obtain ⟨_, _, -, -, parsed⟩ := tracks
    rw [parsed]
  · rw [tracks]
  · obtain ⟨_, _, parsed⟩ := tracks
    rw [parsed]

/--
A connection is read like its peer's whole stream, however that is split into reads.

A client dropped for a violation was dropped at the record at which the protocol stops on the whole
stream, after exactly the records the protocol delivers.
A client that is still there, or whose connection ended, got what the protocol delivers for the
bytes read, which is a first part of what it delivers for the whole stream.
Everything delivered follows an exact opening record and has the shape its type requires.
-/
theorem reads_whole_stream {peerUid : BitVec 32} {trace : List Event} {s : InConnection}
    (run : (machine peerUid).Run trace s) (rest : List UInt8) :
    (match s.dropped with
      | some .violation =>
        (inputReader peerUid).parse .hello (s.consumed ++ rest) = ⟨s.dispatched, none, rest⟩
      | _ => (∃ phase got, (inputReader peerUid).parse .hello s.consumed =
            ⟨s.dispatched, some (phase, got), []⟩) ∧
          s.dispatched <+: ((inputReader peerUid).parse .hello (s.consumed ++ rest)).out) ∧
      (s.dispatched ≠ [] → (XiosMsg.decode (s.consumed.take msgSize)).isExactHello = true) ∧
      ∀ record ∈ s.dispatched, record.Proper peerUid := by
  have tracks := run_tracks run
  have delivered := tracks.delivered
  refine ⟨?_, ?_, ?_⟩
  · have waits {phase : InputPhase} {got : List UInt8}
        (parsed : (inputReader peerUid).parse .hello s.consumed =
          ⟨s.dispatched, some (phase, got), []⟩) :
        s.dispatched <+: ((inputReader peerUid).parse .hello (s.consumed ++ rest)).out := by
      rw [(inputReader peerUid).parse_append_of_waiting parsed]
      exact List.prefix_append _ _
    unfold Tracks at tracks
    cases dropped : s.dropped with
    | none =>
      rw [dropped] at tracks
      obtain ⟨phase, got, -, -, parsed⟩ := tracks
      exact ⟨⟨phase, got, parsed⟩, waits parsed⟩
    | some reason =>
      rw [dropped] at tracks
      cases reason with
      | violation => exact (inputReader peerUid).parse_append_of_stopped tracks rest
      | closed =>
        obtain ⟨phase, got, parsed⟩ := tracks
        exact ⟨⟨phase, got, parsed⟩, waits parsed⟩
  · rw [← delivered]
    exact inputReader_opened
  · rw [← delivered]
    exact inputReader_proper peerUid s.consumed

def twoByteText : XiosMsg :=
  { magic := msgMagic, type := inText, length := 2#32, c := 2#32 }

def splitReads : List Event :=
  [.read (.data (XiosMsg.hello.encode.take 10) true), .read .again,
    .read (.data (XiosMsg.hello.encode.drop 10) true), .read (.data twoByteText.encode true),
    .read (.data [104] true), .read .intr, .read (.data [105] true),
    .read (.data XiosMsg.hello.encode true)]

def afterSplitReads : InConnection :=
  splitReads.foldl next (accepted 501#32)

theorem reads_whole_stream_split :
    afterSplitReads.dispatched = [⟨twoByteText, [104, 105], 0#32⟩] ∧
      (inputReader 501#32).parse .hello (afterSplitReads.consumed ++ [7]) =
        ⟨[⟨twoByteText, [104, 105], 0#32⟩], none, [7]⟩ := by
  have run : (machine 501#32).Run splitReads.reverse afterSplitReads :=
    .of_script (m := machine 501#32) (s := accepted 501#32) rfl splitReads
      (by simp only [Machine.Admits, splitReads, machine]; decide)
  have dispatched : afterSplitReads.dispatched = [⟨twoByteText, [104, 105], 0#32⟩] := by decide
  have dropped : afterSplitReads.dropped = some .violation := by decide
  have whole := (reads_whole_stream run [7]).1
  rw [dropped, dispatched] at whole
  exact ⟨dispatched, whole⟩

end InConnection

end Xios
