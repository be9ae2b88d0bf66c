import Mathlib.Data.List.Nodup
import Xios.Clipboard.BridgeLaws
import Xios.Clipboard.Hosts

/-! Hosts that were sent everything agree with the store of the clipboard bridge. -/

namespace Xios

namespace HostEnd

@[simp]
theorem final_txRecord (h : HostEnd) (r : ClipRecord) : (h.txRecord r).final = h.final.apply r := by
  unfold final txRecord
  rw [← List.append_assoc, List.foldl_append]
  rfl

theorem final_txRecords (h : HostEnd) (records : List ClipRecord) :
    (records.foldl txRecord h).final = records.foldl ClipView.apply h.final := by
  induction records generalizing h with
  | nil => rfl
  | cons r records ih => rw [List.foldl_cons, List.foldl_cons, ih, final_txRecord]

@[simp]
theorem final_txFlush (h : HostEnd) (n : Nat) : (h.txFlush n).final = h.final := by
  unfold final txFlush
  rw [List.append_assoc, List.take_append_drop]

theorem view_eq_final {h : HostEnd} (drained : h.queue = []) : h.view = h.final := by
  unfold view final
  rw [drained, List.append_nil]

end HostEnd

namespace ClipHosts

/-- A host has seen the current generation, and has the items of the store. -/
def Agrees (s : ClipHosts) (v : ClipView) : Prop :=
  v.lastGen = s.bridge.gen ∧ ∀ kind, v.items kind = (s.bridge.items kind).map ClipItem.data

/-- A host was sent nothing of the current set, of which there is nothing yet. -/
def Unaware (s : ClipHosts) (v : ClipView) : Prop :=
  v.lastGen ≠ s.bridge.gen ∧ (∀ kind, s.bridge.items kind = none) ∧
    (s.announced = true → ∀ kind, v.items kind = none)

/-- What hosts will have made of the records they were sent, other than the author. -/
def Knows (s : ClipHosts) (client : ClipClient) (v : ClipView) : Prop :=
  s.Author client ∨ s.Agrees v ∨ s.Unaware v

def nextGen (s : ClipHosts) : BitVec 32 :=
  if s.bridge.gen + 1#32 = 0#32 then 1#32 else s.bridge.gen + 1#32

/-- No host was sent the next outbound generation last. -/
def Unwrapped (s : ClipHosts) : Prop :=
  ∀ i, ∀ client ∈ s.bridge.clients i, client.handshaken = true →
    (s.ends i).final.lastGen ≠ s.nextGen
  deriving Decidable

/-- What holds between the store and the hosts, whatever pipes are open. -/
structure Tracks (s : ClipHosts) : Prop where
  -- The items stem from the copy the set was begun for.
  current : s.bridge.Current
  kinds : s.bridge.items 0 = none
  -- A set of which nothing was sent is empty.
  pending : s.announced = false → ∀ kind, s.bridge.items kind = none
  -- A host is sent nothing before it has introduced itself.
  unopened : ∀ i client, s.bridge.clients i = some client → client.handshaken = false →
    s.ends i = {}
  -- All other hosts will have the items of the store.
  knows : ∀ i client, s.bridge.clients i = some client → client.handshaken = true →
    s.Knows client (s.ends i).final

theorem tracks_empty : Tracks {} where
  current := ClipBridge.current_of_empty fun _ => rfl
  kinds := rfl
  pending := nofun
  unopened := nofun
  knows := nofun

theorem agrees_apply {s : ClipHosts} {v : ClipView} (known : s.Agrees v ∨ s.Unaware v)
    {kind : ClipKind} (some : kind ≠ 0) (data : List UInt8) :
    (v.apply ⟨kind, s.bridge.gen, data⟩).items =
      Function.update (fun kind => (s.bridge.items kind).map ClipItem.data) kind (.some data) := by
  have base : v.base s.bridge.gen = fun kind => (s.bridge.items kind).map ClipItem.data := by
    funext other
    unfold ClipView.base
    cases known with
    | inl agrees => rw [if_pos agrees.1.symm, agrees.2]
    | inr unaware => rw [if_neg unaware.1.symm, unaware.2.1, Option.map_none]
  unfold ClipView.apply
  rw [if_neg some, base]

namespace Tracks

variable {s : ClipHosts}

theorem of_eq (tracks : s.Tracks) {b : ClipBridge} (clients : b.clients = s.bridge.clients)
    (items : b.items = s.bridge.items) (gen : b.gen = s.bridge.gen)
    (origin : b.setOrigin = s.bridge.setOrigin) : Tracks { s with bridge := b } where
  current := tracks.current.of_eq items origin
  kinds := by
    rw [items]
    exact tracks.kinds
  pending := by
    rw [items]
    exact tracks.pending
  unopened := by
    rw [clients]
    exact tracks.unopened
  knows := by
    intro i client connected
    rw [clients] at connected
    unfold Knows Author Agrees Unaware
    rw [origin, gen, items]
    exact tracks.knows i client connected

theorem setClient (tracks : s.Tracks) (i : Fin clipMaxClients) {client : Option ClipClient}
    (same : ∀ c ∈ client, ∃ c', s.bridge.clients i = some c' ∧ c.conn = c'.conn ∧
      c.handshaken = c'.handshaken) : (s.withBridge (·.setClient i client)).Tracks := by
  have before : ∀ j c, (s.bridge.setClient i client).clients j = some c →
      ∃ c', s.bridge.clients j = some c' ∧ c.conn = c'.conn ∧ c.handshaken = c'.handshaken := by
    intro j c connected
    by_cases here : j = i
    · subst here
      exact same c (by simpa [ClipBridge.setClient] using connected)
    · refine ⟨c, ?_, rfl, rfl⟩
      simpa [ClipBridge.setClient, here] using connected
  refine ⟨tracks.current.of_eq rfl rfl, tracks.kinds, tracks.pending, ?_, ?_⟩
  · intro j c connected closed
    obtain ⟨c', there, -, opened⟩ := before j c connected
    exact tracks.unopened j c' there (opened ▸ closed)
  · intro j c connected opened
    obtain ⟨c', there, name, both⟩ := before j c connected
    have known := tracks.knows j c' there (both ▸ opened)
    unfold Knows Author at known ⊢
    rw [name]
    exact known

theorem clientDrop (tracks : s.Tracks) (i : Fin clipMaxClients) : (s.clientDrop i).Tracks :=
  tracks.setClient i nofun

theorem selectionBegin (tracks : s.Tracks) (unwrapped : s.Unwrapped) (origin : CopyOrigin) :
    (s.selectionBegin origin).Tracks where
  current := ClipBridge.current_of_empty fun _ => rfl
  kinds := rfl
  pending := fun _ _ => rfl
  unopened := tracks.unopened
  knows := by
    intro i client connected opened
    exact .inr (.inr ⟨unwrapped i client connected opened, fun _ => rfl, nofun⟩)

variable {kind : ClipKind} {data : List UInt8} {skip : Option (Fin clipMaxClients)}

theorem broadcast (tracks : s.Tracks) {b : ClipBridge} (clients : b.clients = s.bridge.clients)
    (gen : b.gen = s.bridge.gen) (origin : b.setOrigin = s.bridge.setOrigin)
    (current : b.Current) (kinds : b.items 0 = none)
    (applied : ∀ v, s.Agrees v ∨ s.Unaware v →
      ∀ k, (v.apply ⟨kind, s.bridge.gen, data⟩).items k = (b.items k).map ClipItem.data)
    (lost : Fin clipMaxClients → Bool)
    (author : ∀ i client, skip = some i → s.bridge.clients i = some client → s.Author client) :
    ({ s with bridge := b }.broadcast kind data lost skip).Tracks := by
  -- Those who are still connected afterwards were connected before.
  have before : ∀ i client, (b.broadcast lost skip).clients i = some client →
      s.bridge.clients i = some client := by
    intro i client connected
    rw [← clients]
    simp only [ClipBridge.broadcast] at connected
    grind
  refine ⟨current.of_eq rfl rfl, kinds, (fun none => by cases none), ?_, ?_⟩
  · intro i client connected closed
    have there := before i client connected
    have deaf : hears { s with bridge := b } skip i = false := by
      show ((b.clients i).any ClipClient.handshaken && some i != skip) = false
      rw [clients, there, Option.any_some, closed, Bool.false_and]
    show (if hears _ skip i then _ else s.ends i) = {}
    rw [deaf]
    exact tracks.unopened i client there closed
  · intro i client connected opened
    have there := before i client connected
    have same : ∀ v, s.Author client → Knows (ClipHosts.broadcast { s with bridge := b } kind data
        lost skip) client v := by
      rintro v ⟨copied, begun⟩
      exact .inl ⟨copied, origin.trans begun⟩
    show Knows _ client (if hears _ skip i then _ else s.ends i).final
    split
    · rw [HostEnd.final_txRecord]
      rcases tracks.knows i client there opened with wrote | known
      · exact same _ wrote
      · refine .inr (.inl ⟨rfl, fun k => ?_⟩)
        show (ClipView.apply _ ⟨kind, b.gen, data⟩).items k = _
        rw [gen]
        exact applied _ known k
    · rename_i deaf
      change ¬((b.clients i).any ClipClient.handshaken && some i != skip) = true at deaf
      rw [clients, there, Option.any_some, opened, Bool.true_and] at deaf
      have skipped : some i = skip := by simpa using deaf
      exact same _ (author i client skipped.symm there)

theorem store (tracks : s.Tracks) {origin : CopyOrigin} (begun : s.bridge.setOrigin = some origin)
    (item : kind ≠ 0) (small : data.length ≤ clipItemMax) (lost : Fin clipMaxClients → Bool)
    (author : ∀ i client, skip = some i → s.bridge.clients i = some client → s.Author client) :
    ((s.withBridge (·.itemStore kind data origin true)).broadcast kind data lost skip).Tracks := by
  have stored : s.bridge.itemStore kind data origin true =
      { s.bridge with items := Function.update s.bridge.items kind (some ⟨data, origin⟩) } := by
    unfold ClipBridge.itemStore
    rw [if_neg (by simp [item, small])]
  refine tracks.broadcast ?_ ?_ ?_ (tracks.current.itemStore kind data true begun) ?_ ?_ lost author
  · rw [stored]
  · rw [stored]
  · rw [stored]
  · rw [stored]
    exact (Function.update_of_ne item.symm _ _).trans tracks.kinds
  · intro v known k
    rw [agrees_apply known item, stored]
    by_cases same : k = kind
    · subst same
      simp
    · simp [same]

theorem clear (tracks : s.Tracks) (empty : ∀ kind, s.bridge.items kind = none)
    (lost : Fin clipMaxClients → Bool)
    (author : ∀ i client, skip = some i → s.bridge.clients i = some client → s.Author client) :
    (s.broadcast 0 [] lost skip).Tracks := by
  refine tracks.broadcast rfl rfl rfl tracks.current tracks.kinds (fun v _ k => ?_) lost author
  rw [empty]
  rfl

theorem publish (tracks : s.Tracks) {selection : Nat}
    (begun : s.bridge.setOrigin = some (.selection selection)) (kind : ClipKind)
    (data : List UInt8) (stored : Bool) (lost : Fin clipMaxClients → Bool) :
    (s.publish kind data (.selection selection) stored lost).Tracks := by
  unfold ClipHosts.publish
  split
  · exact tracks
  split
  · exact tracks
  · rename_i worked
    simp only [not_or, Nat.not_lt, Bool.not_eq_false] at worked
    obtain ⟨item, small, rfl⟩ := worked
    exact tracks.store begun item small lost nofun

theorem relay (tracks : s.Tracks) {i : Fin clipMaxClients} {client : ClipClient}
    (connected : s.bridge.clients i = some client) {gen : BitVec 32}
    (begun : s.bridge.setOrigin = some (.host client.conn gen)) (item : kind ≠ 0)
    (small : data.length ≤ clipItemMax) (lost : Fin clipMaxClients → Bool) :
    (s.relay i kind data (.host client.conn gen) true lost).Tracks := by
  refine tracks.store begun item small lost fun j other skipped there => ?_
  -- The host that is skipped is the one whose record it is.
  obtain rfl := Option.some.inj skipped
  obtain rfl := Option.some.inj (connected.symm.trans there)
  exact ⟨gen, begun⟩

theorem clipboardFromApp (tracks : s.Tracks) (kind : ClipKind) (data : List UInt8)
    (first memory : Bool) :
    (s.withBridge (·.clipboardFromApp kind data first memory)).Tracks := by
  have same : ∀ b : ClipBridge, (b.clipboardFromApp kind data first memory).clients = b.clients ∧
      (b.clipboardFromApp kind data first memory).items = b.items ∧
      (b.clipboardFromApp kind data first memory).gen = b.gen ∧
      (b.clipboardFromApp kind data first memory).setOrigin = b.setOrigin := by
    intro b
    unfold ClipBridge.clipboardFromApp ClipBridge.clipItemSet ClipBridge.clipClearItems
    grind
  obtain ⟨clients, items, gen, origin⟩ := same s.bridge
  exact tracks.of_eq clients items gen origin

end Tracks

/-- A host that is sent the whole set shows exactly that set. -/
theorem foldl_snapshot (b : ClipBridge) (kinds : List ClipKind) (items : 0 ∉ kinds) {v : ClipView}
    (ready : v.lastGen = b.gen ∨ ∀ kind, v.items kind = none) :
    ((snapshot b kinds).foldl ClipView.apply v).lastGen =
        (if ∃ kind ∈ kinds, (b.items kind).isSome = true then b.gen else v.lastGen) ∧
      ∀ kind, ((snapshot b kinds).foldl ClipView.apply v).items kind =
        if kind ∈ kinds ∧ (b.items kind).isSome = true then (b.items kind).map ClipItem.data
        else v.items kind := by
  -- The first record may begin a set, and all others are added to that.
  induction kinds generalizing v with
  | nil => simp [snapshot]
  | cons first rest ih =>
    rw [List.mem_cons, not_or] at items
    cases there : b.items first with
    | none =>
      have same : snapshot b (first :: rest) = snapshot b rest := by simp [snapshot, there]
      obtain ⟨last, all⟩ := ih items.2 ready
      rw [same, last]
      refine ⟨by simp [there], fun kind => ?_⟩
      rw [all]
      grind
    | some item =>
      have same : snapshot b (first :: rest) = ⟨first, b.gen, item.data⟩ :: snapshot b rest := by
        simp [snapshot, there]
      have applied : (v.apply ⟨first, b.gen, item.data⟩).items =
          Function.update v.items first (some item.data) := by
        have base : v.base b.gen = v.items := by
          unfold ClipView.base
          split
          · rfl
          · rename_i older
            have empty := ready.resolve_left (Ne.symm older)
            exact funext fun kind => (empty kind).symm
        unfold ClipView.apply
        rw [if_neg (Ne.symm items.1), base]
      obtain ⟨last, all⟩ := ih items.2 (v := v.apply ⟨first, b.gen, item.data⟩) (.inl rfl)
      rw [same, List.foldl_cons, last]
      refine ⟨?_, fun kind => ?_⟩
      · have stocked : ∃ kind ∈ first :: rest, (b.items kind).isSome = true :=
          ⟨first, .head _, by rw [there]; rfl⟩
        rw [if_pos stocked]
        exact ite_self _
      · rw [all, applied]
        by_cases here : kind = first
        · subst here
          simp [there]
        · simp [here]

/-- A new host is sent the set as it is. -/
theorem agrees_snapshot {s : ClipHosts} (tracks : s.Tracks) :
    s.Agrees ((snapshot s.bridge [1, 2, 3, 4]).foldl ClipView.apply {}) ∨
      s.Unaware ((snapshot s.bridge [1, 2, 3, 4]).foldl ClipView.apply {}) := by
  obtain ⟨last, all⟩ := foldl_snapshot s.bridge [1, 2, 3, 4] (by decide) (v := {})
    (.inr fun _ => rfl)
  generalize (snapshot s.bridge [1, 2, 3, 4]).foldl ClipView.apply {} = v at last all
  have listed : ∀ kind : ClipKind, kind ∈ [1, 2, 3, 4] ∨ kind = 0 := by decide
  have items : ∀ kind, v.items kind = (s.bridge.items kind).map ClipItem.data := by
    intro kind
    rw [all]
    split
    · rfl
    · rename_i absent
      have free : s.bridge.items kind = none := by
        rcases listed kind with among | rfl
        · simpa [among] using absent
        · exact tracks.kinds
      rw [free]
      rfl
  by_cases stocked : ∃ kind ∈ [1, 2, 3, 4], (s.bridge.items kind).isSome = true
  · rw [if_pos stocked] at last
    exact .inl ⟨last, items⟩
  · rw [if_neg stocked] at last
    have free : ∀ kind, s.bridge.items kind = none := by
      intro kind
      rcases listed kind with among | rfl
      · simpa using fun present => stocked ⟨kind, among, present⟩
      · exact tracks.kinds
    by_cases first : s.bridge.gen = 0#32
    · exact .inl ⟨last.trans first.symm, items⟩
    · refine .inr ⟨fun same => first (same.symm.trans last), free, fun _ kind => ?_⟩
      rw [items, free]
      rfl

namespace Tracks

variable {s : ClipHosts}

theorem hello (tracks : s.Tracks) {i : Fin clipMaxClients} {client : ClipClient}
    (connected : s.bridge.clients i = some client) (closed : client.handshaken = false) :
    ((s.withBridge (·.setClient i (some { client with handshaken := true }))).replaySnapshot
      i).Tracks := by
  have elsewhere : ∀ {j other}, j ≠ i →
      Function.update s.bridge.clients i (some { client with handshaken := true }) j = some other →
      s.bridge.clients j = some other := by
    intro j other apart there
    rwa [Function.update_of_ne apart] at there
  refine ⟨tracks.current.of_eq rfl rfl, tracks.kinds, tracks.pending, ?_, ?_⟩
  · intro j other there unopened
    by_cases here : j = i
    · subst here
      obtain rfl := Option.some.inj ((Function.update_self j _ _).symm.trans there)
      cases unopened
    · exact (Function.update_of_ne here _ _).trans
        (tracks.unopened j other (elsewhere here there) unopened)
  · intro j other there opened
    by_cases here : j = i
    · subst here
      -- Its way begins with the snapshot.
      have start : s.ends j = {} := tracks.unopened j client connected closed
      have sent : ((replaySnapshot (s.withBridge (·.setClient j (some { client with
          handshaken := true }))) j).ends j).final =
          (snapshot s.bridge [1, 2, 3, 4]).foldl ClipView.apply {} := by
        show (Function.update s.ends j _ j).final = _
        rw [Function.update_self]
        show ((snapshot s.bridge [1, 2, 3, 4]).foldl HostEnd.txRecord (s.ends j)).final = _
        rw [start, HostEnd.final_txRecords]
        rfl
      rw [sent]
      have known : s.Agrees _ ∨ s.Unaware _ := agrees_snapshot tracks
      exact .inr known
    · have known := tracks.knows j other (elsewhere here there) opened
      show Knows s other (Function.update s.ends i _ j).final
      rwa [Function.update_of_ne here]

theorem listenDispatch (tracks : s.Tracks) : s.listenDispatch.Tracks := by
  unfold ClipHosts.listenDispatch ClipBridge.listenDispatch
  cases (List.finRange clipMaxClients).find? fun i => (s.bridge.clients i).isNone with
  | none => exact tracks
  | some i =>
    refine ⟨tracks.current.of_eq rfl rfl, tracks.kinds, tracks.pending, ?_, ?_⟩
    · intro j client connected closed
      by_cases here : j = i
      · subst here
        exact Function.update_self _ _ _
      · have there : s.bridge.clients j = some client := by
          simpa [ClipBridge.setClient, here] using connected
        exact (Function.update_of_ne here _ _).trans (tracks.unopened j client there closed)
    · intro j client connected opened
      by_cases here : j = i
      · subst here
        obtain rfl : ({ conn := s.bridge.conns } : ClipClient) = client := by
          simpa [ClipBridge.setClient] using connected
        cases opened
      · have there : s.bridge.clients j = some client := by
          simpa [ClipBridge.setClient, here] using connected
        show Knows s client (Function.update s.ends i {} j).final
        rw [Function.update_of_ne here]
        exact tracks.knows j client there opened

theorem txFlush (tracks : s.Tracks) (i : Fin clipMaxClients) (n : Nat) :
    Tracks { s with ends := Function.update s.ends i ((s.ends i).txFlush n) } := by
  refine ⟨tracks.current, tracks.kinds, tracks.pending, ?_, ?_⟩
  · intro j client connected closed
    have start := tracks.unopened j client connected closed
    by_cases here : j = i
    · subst here
      show Function.update s.ends j _ j = {}
      rw [Function.update_self, start]
      simp [HostEnd.txFlush]
    · exact (Function.update_of_ne here _ _).trans start
  · intro j client connected opened
    have known := tracks.knows j client connected opened
    show Knows s client (Function.update s.ends i _ j).final
    by_cases here : j = i
    · subst here
      rwa [Function.update_self, HostEnd.final_txFlush]
    · rwa [Function.update_of_ne here]

end Tracks

/-- What a whole history of the clipboard and its hosts maintains. -/
structure Coherent (s : ClipHosts) : Prop where
  -- The hosts keep up with the store.
  tracks : s.Tracks
  -- The pipes still open belong to the copy the set was begun for.
  reading : s.bridge.Reading

theorem Tracks.accept {s : ClipHosts} (tracks : s.Tracks) (kind : ClipKind) (data : List UInt8)
    {first : Bool} (memory : Bool) (reading : first = false → s.bridge.Reading) :
    (s.withBridge (·.clipboardFromApp kind data first memory)).Coherent :=
  ⟨tracks.clipboardFromApp kind data first memory,
    (tracks.current.clipboardFromApp kind data memory reading).reading⟩

/-- A host continues its last generation only while that generation is the current set. -/
def Ordered (s : ClipHosts) : Event → Prop
  | .receive i m _ _ _ _ _ => ∀ client ∈ s.bridge.clients i, client.Continues m →
      s.bridge.setOrigin = some (.host client.conn m.b)
  | _ => True

/-- There is memory for the items of hosts. -/
def Stored : Event → Prop
  | .receive _ _ _ _ _ stored _ => stored = true
  | _ => True

/-- A step may begin a new set. -/
def Begins (s : ClipHosts) : Event → Prop
  | .receive i m _ _ _ _ _ => ∃ client ∈ s.bridge.clients i, m.a = 0#32 ∨ m.b ≠ client.lastRxGen
  | .setText _ sendToApp _ _ _ => sendToApp = true
  | .dataDevice source _ => source ≠ some []
  | .dataControl source _ _ _ => source ≠ some []
  | _ => False

theorem Unwrapped.setClient {s : ClipHosts} (unwrapped : s.Unwrapped) {i : Fin clipMaxClients}
    {client client' : ClipClient} (connected : s.bridge.clients i = some client)
    (same : client'.handshaken = client.handshaken) :
    (s.withBridge (·.setClient i (some client'))).Unwrapped := by
  intro j other there opened
  change Function.update s.bridge.clients i (some client') j = some other at there
  by_cases here : j = i
  · subst here
    rw [Function.update_self] at there
    obtain rfl := Option.some.inj there
    exact unwrapped j client connected (same ▸ opened)
  · rw [Function.update_of_ne here] at there
    exact unwrapped j other there opened

theorem Coherent.rxDispatch {s s' : ClipHosts} (coherent : s.Coherent) {i : Fin clipMaxClients}
    {client : ClipClient} (connected : s.bridge.clients i = some client) {m : XiosMsg}
    {payload : List UInt8} (small : payload.length ≤ clipItemMax) {memory : Bool}
    {lost : Fin clipMaxClients → Bool} (magic : m.magic = msgMagic) (type : m.type = msgClipboard)
    (ordered : client.Continues m → s.bridge.setOrigin = some (.host client.conn m.b))
    (unwrapped : m.a = 0#32 ∨ m.b ≠ client.lastRxGen → s.Unwrapped)
    (accepted : s.rxDispatch i client m payload memory true lost = some s') : s'.Coherent := by
  unfold ClipHosts.rxDispatch at accepted
  split at accepted
  · cases accepted
  rename_i formed
  simp only [not_or, Bool.not_eq_false, ne_eq, not_not] at formed
  obtain ⟨handshaken, window, numbered, noC, noD⟩ := formed
  split at accepted
  · rename_i known
    dsimp only at accepted
    -- The host goes on with a new last generation.
    have noted : (s.withBridge (·.setClient i (some { client with lastRxGen := m.b }))).Tracks := by
      refine coherent.tracks.setClient i fun c same => ?_
      obtain rfl := Option.some.inj same
      exact ⟨client, connected, rfl, rfl⟩
    have present : (s.withBridge (·.setClient i (some { client with
        lastRxGen := m.b }))).bridge.clients i = some { client with lastRxGen := m.b } :=
      Function.update_self _ _ _
    have fresh : m.a = 0#32 ∨ m.b ≠ client.lastRxGen →
        (s.withBridge (·.setClient i (some { client with lastRxGen := m.b }))).Unwrapped :=
      fun begins => (unwrapped begins).setClient connected rfl
    have reading : (s.withBridge (·.setClient i (some { client with
        lastRxGen := m.b }))).bridge.Reading := coherent.reading.of_eq rfl rfl
    have begun : (s.withBridge (·.setClient i (some { client with
        lastRxGen := m.b }))).bridge.setOrigin = s.bridge.setOrigin := rfl
    generalize s.withBridge (·.setClient i (some { client with lastRxGen := m.b })) = t at *
    split at accepted
    · rename_i zero
      split at accepted
      · cases accepted
      · -- A clear is a set of its own, which has no items.
        cases accepted
        have none : m.a = 0#32 := BitVec.eq_of_toNat_eq (Fin.mk.inj zero)
        have started := noted.selectionBegin (fresh (.inl none)) (.host client.conn m.b)
        refine (started.clear (fun _ => rfl) lost fun j other skipped there => ?_).accept 0 []
          memory fun first => by cases first
        obtain rfl := Option.some.inj skipped
        obtain rfl := Option.some.inj (present.symm.trans there)
        exact ⟨m.b, rfl⟩
    · rename_i nonzero
      cases accepted
      by_cases continues : m.b = client.lastRxGen
      · -- The item joins the set that was begun for the same generation.
        have positive : m.a.toNat ≠ 0 := fun zero => nonzero (Fin.ext zero)
        have origin := begun.trans (ordered ⟨handshaken, magic, type, window, by omega, known,
          numbered, continues, noC, noD⟩)
        rw [if_neg (by simpa using continues)]
        refine (noted.relay present origin nonzero small lost).accept _ _ memory fun _ => ?_
        exact reading.of_eq (ClipBridge.itemStore_readers _ _ _ _ _)
          (ClipBridge.itemStore_setOrigin _ _ _ _ _)
      · -- The record begins a set of its own, and closes the pipes of any selection.
        have started := noted.selectionBegin (fresh (.inr continues)) (.host client.conn m.b)
        rw [if_pos (by simpa using continues)]
        refine (started.relay present rfl nonzero small lost).accept _ _ memory fun joins => ?_
        exact absurd (of_decide_eq_false joins) (not_not.mpr continues)
  · cases accepted

namespace Coherent

variable {s : ClipHosts} (coherent : s.Coherent)

include coherent

theorem clientDrop (i : Fin clipMaxClients) : (s.clientDrop i).Coherent :=
  ⟨coherent.tracks.clientDrop i, coherent.reading.of_eq rfl rfl⟩

theorem receive {i : Fin clipMaxClients} {m : XiosMsg} {payload : List UInt8}
    {room memory : Bool} {lost : Fin clipMaxClients → Bool}
    (whole : payload.length = m.length.toNat)
    (ordered : s.Ordered (.receive i m payload room memory true lost))
    (unwrapped : s.Begins (.receive i m payload room memory true lost) → s.Unwrapped) :
    (s.receive i m payload room memory true lost).Coherent := by
  unfold ClipHosts.receive
  split
  · exact coherent
  rename_i client connected
  split
  · exact coherent.clientDrop i
  rename_i magic
  split
  · rename_i closed
    split
    · exact ⟨coherent.tracks.hello connected closed, coherent.reading.of_eq rfl rfl⟩
    · exact coherent.clientDrop i
  split
  · exact coherent.clientDrop i
  · rename_i typed
    simp only [not_or, ne_eq, not_not, Nat.not_lt] at magic typed
    split
    · rename_i accepted
      have small : payload.length ≤ clipItemMax := whole ▸ typed.2.2.1
      exact coherent.rxDispatch connected small magic typed.1 (ordered client connected)
        (fun begins => unwrapped ⟨client, connected, begins⟩) accepted
    · exact coherent.clientDrop i

theorem withBridge {b : ClipBridge} (clients : b.clients = s.bridge.clients)
    (items : b.items = s.bridge.items) (gen : b.gen = s.bridge.gen)
    (origin : b.setOrigin = s.bridge.setOrigin) (readers : ∀ r ∈ b.readers, r ∈ s.bridge.readers) :
    Coherent { s with bridge := b } := by
  refine ⟨coherent.tracks.of_eq clients items gen origin, fun reader member => ?_⟩
  exact origin.trans (coherent.reading reader (readers reader member))

end Coherent

theorem Unwrapped.of_eq {s : ClipHosts} (unwrapped : s.Unwrapped) {b : ClipBridge}
    (clients : b.clients = s.bridge.clients) (gen : b.gen = s.bridge.gen) :
    Unwrapped { s with bridge := b } := by
  unfold Unwrapped nextGen
  rw [clients, gen]
  exact unwrapped

theorem reading_publish {s : ClipHosts} (reading : s.bridge.Reading) (kind : ClipKind)
    (data : List UInt8) (origin : CopyOrigin) (stored : Bool)
    (lost : Fin clipMaxClients → Bool) :
    (s.publish kind data origin stored lost).bridge.Reading := by
  unfold ClipHosts.publish
  split
  · exact reading
  split
  · exact reading
  · exact reading.of_eq (ClipBridge.itemStore_readers _ _ _ _ _)
      (ClipBridge.itemStore_setOrigin _ _ _ _ _)

theorem clipItemSet_hosts (b : ClipBridge) (mime : Mime) (data : List UInt8) (memory : Bool) :
    (b.clipItemSet mime data memory).2.clients = b.clients ∧
      (b.clipItemSet mime data memory).2.gen = b.gen := by
  unfold ClipBridge.clipItemSet
  grind

namespace Coherent

variable {s : ClipHosts} (coherent : s.Coherent)

include coherent

theorem clipSetText {sendToApp : Bool} (unwrapped : sendToApp = true → s.Unwrapped)
    (text : List UInt8) (memory stored : Bool) (lost : Fin clipMaxClients → Bool) :
    (s.clipSetText text sendToApp memory stored lost).Coherent := by
  let cleared := s.bridge.newSelection.clipClearItems
  have others := clipItemSet_hosts cleared Mime.utf8 (text.take clipItemMax) memory
  have items := ClipBridge.clipItemSet_items cleared Mime.utf8 (text.take clipItemMax) memory
  have origin := ClipBridge.clipItemSet_setOrigin cleared Mime.utf8 (text.take clipItemMax) memory
  have readers := ClipBridge.clipItemSet_readers cleared Mime.utf8 (text.take clipItemMax) memory
  unfold ClipHosts.clipSetText
  dsimp only
  generalize s.bridge.newSelection.clipClearItems.clipItemSet Mime.utf8 (text.take clipItemMax)
    memory = kept at others items origin readers
  obtain ⟨worked, b⟩ := kept
  -- The pipes of the old selection are closed.
  have closed : b.readers = [] := readers
  have noted : Coherent { s with bridge := b } := by
    refine coherent.withBridge others.1 items others.2 origin fun r member => ?_
    rw [closed] at member
    cases member
  split
  · rename_i sent
    have fresh := (unwrapped (Bool.and_eq_true_iff.mp sent).2).of_eq others.1 others.2
    have begun := noted.tracks.selectionBegin fresh (.selection s.bridge.selections)
    refine ⟨begun.publish rfl 1 _ stored lost, reading_publish (fun r member => ?_) _ _ _ _ _⟩
    change r ∈ b.readers at member
    rw [closed] at member
    cases member
  · exact noted

theorem clipIngestSource (unwrapped : s.Unwrapped) (mimes : List (Mime × Bool)) :
    (s.clipIngestSource mimes).Coherent := by
  have begun := coherent.tracks.selectionBegin unwrapped (.selection s.bridge.selections)
  exact ⟨begun.of_eq rfl rfl rfl rfl,
    (ClipBridge.coherent_clipIngestSource s.bridge mimes).reading⟩

theorem sourceReadDone (index : Nat) (data : List UInt8) (keep memory stored : Bool)
    (lost : Fin clipMaxClients → Bool) :
    (s.sourceReadDone index data keep memory stored lost).Coherent := by
  unfold ClipHosts.sourceReadDone
  split
  · exact coherent
  rename_i reader found
  have begun := coherent.reading reader (List.mem_of_getElem? found)
  have others : ∀ r ∈ s.bridge.readers.eraseIdx index, r ∈ s.bridge.readers :=
    fun r member => List.mem_of_mem_eraseIdx member
  dsimp only
  split
  · have same := clipItemSet_hosts { s.bridge with readers := s.bridge.readers.eraseIdx index }
      reader.mime data memory
    have noted : Coherent { s with
        bridge := ({ s.bridge with readers := s.bridge.readers.eraseIdx index }.clipItemSet
          reader.mime data memory).2 } := by
      refine coherent.withBridge same.1 (by simp) same.2 (by simp) fun r member => ?_
      rw [ClipBridge.clipItemSet_readers] at member
      exact others r member
    split
    · refine ⟨noted.tracks.publish ?_ _ _ stored lost, reading_publish noted.reading _ _ _ _ _⟩
      rw [ClipBridge.clipItemSet_setOrigin]
      exact begun
    · exact noted
  · exact coherent.withBridge rfl rfl rfl rfl others

theorem dataDeviceSetSelection {source : Option (List (Mime × Bool))}
    (unwrapped : source ≠ some [] → s.Unwrapped) (lost : Fin clipMaxClients → Bool) :
    (s.dataDeviceSetSelection source lost).Coherent := by
  unfold ClipHosts.dataDeviceSetSelection
  split
  · have noted : Tracks (s.withBridge (·.newSelection.clipClearItems)) :=
      coherent.tracks.of_eq rfl rfl rfl rfl
    have begun := noted.selectionBegin ((unwrapped nofun).of_eq rfl rfl)
      (.selection s.bridge.selections)
    exact ⟨begun.clear (fun _ => rfl) lost nofun, nofun⟩
  · exact coherent
  · rename_i mimes other
    exact coherent.clipIngestSource (unwrapped fun same => other (Option.some.inj same)) mimes

theorem dataControlSetSelection {source : Option (List (Mime × Bool))}
    (unwrapped : source ≠ some [] → s.Unwrapped) (memory stored : Bool)
    (lost : Fin clipMaxClients → Bool) :
    (s.dataControlSetSelection source memory stored lost).Coherent := by
  unfold ClipHosts.dataControlSetSelection
  split
  · exact coherent.clipSetText (fun _ => unwrapped nofun) [] memory stored lost
  · exact coherent.withBridge rfl rfl rfl rfl nofun
  · rename_i mimes other
    exact coherent.clipIngestSource (unwrapped fun same => other (Option.some.inj same)) mimes

/-- Each step keeps the hosts together if no host continues an older copy. -/
theorem next {event : Event} (allowed : Allowed event) (ordered : s.Ordered event)
    (room : Stored event) (unwrapped : s.Begins event → s.Unwrapped) :
    (s.next event).Coherent := by
  cases event with
  | connect =>
    refine ⟨coherent.tracks.listenDispatch, ?_⟩
    show s.listenDispatch.bridge.Reading
    unfold ClipHosts.listenDispatch ClipBridge.listenDispatch
    cases (List.finRange clipMaxClients).find? fun i => (s.bridge.clients i).isNone with
    | none => exact coherent.reading
    | some i => exact coherent.reading.of_eq rfl rfl
  | hangUp i => exact coherent.clientDrop i
  | flush i n => exact ⟨coherent.tracks.txFlush i n, coherent.reading⟩
  | receive i m payload _ memory stored lost =>
    obtain rfl : stored = true := room
    exact coherent.receive allowed ordered unwrapped
  | setText text sendToApp memory stored lost =>
    exact coherent.clipSetText unwrapped text memory stored lost
  | dataDevice source lost => exact coherent.dataDeviceSetSelection unwrapped lost
  | dataControl source memory stored lost =>
    exact coherent.dataControlSetSelection unwrapped memory stored lost
  | readDone index data keep memory stored lost =>
    exact coherent.sourceReadDone index data keep memory stored lost

end Coherent

/--
A step by which hosts keep up with the store.

A host continues its last generation only while that generation is the current set.
There is memory for the items of hosts.
When a set is begun, no host was sent its generation last, a whole round of numbers ago.
-/
def Careful (s : ClipHosts) (event : Event) : Prop :=
  s.Ordered event ∧ Stored event ∧ (s.Begins event → s.Unwrapped)

/--
All hosts hold the items of the store.

In every history of careful steps, a host that was sent everything holds exactly these items,
unless it is the author of the current set, or nothing of the set was sent since it was begun.
-/
theorem hosts_converge {trace : List Event} {s : ClipHosts}
    (run : (machine.restrict Careful).Run trace s) : s.Converged := by
  have coherent : s.Coherent := by
    refine run.invariant (fun _ s => s.Coherent) ?_ ?_
    · rintro s rfl
      exact ⟨tracks_empty, nofun⟩
    · intro _ s event coherent allowed
      obtain ⟨allowed, ordered, stored, unwrapped⟩ := allowed
      exact coherent.next allowed ordered stored unwrapped
  intro i client connected opened drained announced other kind
  rw [HostEnd.view_eq_final drained]
  rcases coherent.tracks.knows i client connected opened with author | agrees | unaware
  · exact absurd author other
  · exact agrees.2 kind
  · obtain ⟨-, empty, nothing⟩ := unaware
    rw [nothing announced kind, empty kind]
    rfl

instance (client : ClipClient) (m : XiosMsg) : Decidable (client.Continues m) :=
  inferInstanceAs (Decidable (_ ∧ _))

instance decidableEnabled (s : ClipHosts) (event : Event) :
    Decidable (machine.enabled s event) := by
  unfold machine Allowed
  induction event using Event.casesOn <;> infer_instance

instance decidableOrdered (s : ClipHosts) (event : Event) : Decidable (s.Ordered event) := by
  unfold Ordered
  induction event using Event.casesOn <;> infer_instance

instance decidableStored (event : Event) : Decidable (Stored event) := by
  unfold Stored
  induction event using Event.casesOn <;> infer_instance

instance decidableBegins (s : ClipHosts) (event : Event) : Decidable (s.Begins event) := by
  unfold Begins
  induction event using Event.casesOn <;> infer_instance

instance (s : ClipHosts) (event : Event) :
    Decidable ((machine.restrict Careful).enabled s event) :=
  inferInstanceAs (Decidable (_ ∧ _ ∧ _ ∧ _))

/-- A host sends one item of its first copy, for which there may be memory. -/
def sends (i : Fin clipMaxClients) (kind : BitVec 32) (byte : UInt8) (stored : Bool) : Event :=
  .receive i (ClipBridge.clipRecord kind 1#32 1#32) [byte] true true stored fun _ => false

def types (byte : UInt8) : Event :=
  .setText [byte] true true true fun _ => false

def twoHosts : List Event :=
  [.connect, .receive 0 XiosMsg.hello [] true true true fun _ => false, .connect,
    .receive 1 XiosMsg.hello [] true true true fun _ => false]

def replaced : List Event :=
  twoHosts ++ [sends 0 1#32 104 true, sends 0 3#32 137 true, .flush 1 2, types 120, .flush 0 1,
    .flush 1 1]

theorem hosts_converge_replaced :
    ((replaced.foldl next {}).ends 0).view.items 1 = some [120] ∧
      ((replaced.foldl next {}).ends 1).view.items 3 = none := by
  have run : (machine.restrict Careful).Run replaced.reverse (replaced.foldl next {}) :=
    .of_script (m := machine.restrict Careful) (s := {}) rfl replaced (by decide +kernel)
  have origin : (replaced.foldl next {}).bridge.setOrigin = some (.selection 0) := by
    decide +kernel
  have other : ∀ client, ¬(replaced.foldl next {}).Author client := by
    rintro client ⟨gen, copied⟩
    cases origin.symm.trans copied
  have first := hosts_converge run 0 ⟨0, true, 1#32⟩ (by decide +kernel) rfl (by decide +kernel)
    (by decide +kernel) (other _) 1
  have second := hosts_converge run 1 ⟨1, true, 0#32⟩ (by decide +kernel) rfl (by decide +kernel)
    (by decide +kernel) (other _) 3
  exact ⟨first.trans (by decide +kernel), second.trans (by decide +kernel)⟩

/-- This can happen, and some host then holds other items than the store. -/
def Diverges (script : List Event) : Prop :=
  ∃ s, machine.Run script.reverse s ∧ ¬s.Converged

/--
A host and the store can come to hold different items.

An item of an older copy joins a newer set, and its own host is not told.
An item that could not be stored is sent to the other hosts all the same.
-/
theorem not_hosts_converge :
    Diverges (twoHosts ++ [sends 0 1#32 104 true, types 120, .flush 0 1, sends 0 3#32 137 true]) ∧
      Diverges (twoHosts ++ [sends 0 1#32 104 false, .flush 1 1]) := by
  constructor
  · refine ⟨_, .of_script (m := machine) (s := {}) rfl _ (by decide +kernel), fun converged => ?_⟩
    have origin : ((twoHosts ++ [sends 0 1#32 104 true, types 120, .flush 0 1,
        sends 0 3#32 137 true]).foldl next {}).bridge.setOrigin = some (.selection 0) := by
      decide +kernel
    have same := converged 0 ⟨0, true, 1#32⟩ (by decide +kernel) rfl (by decide +kernel)
      (by decide +kernel) (by rintro ⟨gen, copied⟩; cases origin.symm.trans copied) 3
    exact absurd same (by decide +kernel)
  · refine ⟨_, .of_script (m := machine) (s := {}) rfl _ (by decide +kernel), fun converged => ?_⟩
    have origin : ((twoHosts ++ [sends 0 1#32 104 false, .flush 1 1]).foldl next
        {}).bridge.setOrigin = some (.host 0 1#32) := by
      decide +kernel
    have same := converged 1 ⟨1, true, 0#32⟩ (by decide +kernel) rfl (by decide +kernel)
      (by decide +kernel) (by rintro ⟨gen, copied⟩; cases origin.symm.trans copied) 1
    exact absurd same (by decide +kernel)

end ClipHosts

end Xios
