import Xios.Clipboard.Stores

/-! Which steps keep the two stores together. -/

namespace Xios

theorem Mime.ofKind_spec {kind : ClipKind} {mime : Mime} (known : Mime.ofKind kind = some mime) :
    mime.isClip = true ∧ mime.kind = kind := by
  unfold Mime.ofKind at known
  split at known <;> cases known <;> exact ⟨rfl, rfl⟩

theorem Mime.exists_ofKind {kind : ClipKind} (some_kind : kind ≠ 0) :
    ∃ mime, Mime.ofKind kind = some mime := by
  match kind, some_kind with
  | 0, zero => exact absurd rfl zero
  | 1, _ | 2, _ | 3, _ | 4, _ => exact ⟨_, rfl⟩

theorem Mime.kind_ne_zero {mime : Mime} (clip : mime.isClip = true) : mime.kind ≠ 0 := by
  cases mime <;> simp_all [Mime.isClip, Mime.isText, Mime.kind]

namespace ClipBridge

theorem clipItemSet_fst (s : ClipBridge) (mime : Mime) (data : List UInt8) (memory : Bool) :
    (s.clipItemSet mime data memory).1 = true ↔
      mime.isClip = true ∧ s.HasRoom mime ∧ memory = true := by
  unfold clipItemSet HasRoom Holds
  cases clip : mime.isClip <;> simp only [Bool.not_false, Bool.not_true, Bool.false_eq_true,
    ↓reduceIte, false_and, true_and]
  split
  · rename_i held
    simp only [List.any_eq_true, decide_eq_true_eq] at held
    cases memory <;> simp [held]
  · rename_i free
    simp only [List.any_eq_true, decide_eq_true_eq] at free
    split
    · rename_i full
      simp only [Bool.false_eq_true, false_iff, not_and, or_iff_right free]
      intro room
      rcases full with full | memory
      · exact absurd room (by omega)
      · simp [memory]
    · rename_i possible
      simp only [not_or, Nat.not_le, Bool.not_eq_false] at possible
      simp [possible.1, possible.2]

variable {s : ClipBridge} {mime : Mime} {data : List UInt8} {memory : Bool}

theorem mem_clipItemSet {entry : Mime × List UInt8}
    (present : entry ∈ (s.clipItemSet mime data memory).2.clipItems) :
    entry ∈ s.clipItems ∨ entry.1 = mime := by
  unfold clipItemSet at present
  grind

theorem mem_clipItemSet_of_ne {entry : Mime × List UInt8} (present : entry ∈ s.clipItems)
    (other : entry.1 ≠ mime) (data : List UInt8) (memory : Bool) :
    entry ∈ (s.clipItemSet mime data memory).2.clipItems := by
  unfold clipItemSet
  grind

theorem mem_clipItemSet_self (small : data.length ≤ clipItemMax)
    (kept : (s.clipItemSet mime data memory).1 = true) :
    (mime, data) ∈ (s.clipItemSet mime data memory).2.clipItems := by
  unfold clipItemSet at kept ⊢
  rw [List.take_of_length_le small] at kept ⊢
  grind

theorem Described.spares (described : s.Described) (free : ¬s.Holds mime) : s.Spares mime := by
  intro item stored
  obtain ⟨entry, present, kind, data⟩ := described.backed mime.kind item stored
  exact ⟨entry, present, fun same => free ⟨entry, present, same⟩, kind, data⟩

theorem described_of_backed (backed : ∀ kind, ∀ item ∈ s.items kind,
    ∃ entry ∈ s.clipItems, entry.1.kind = kind ∧ entry.2 = item.data) : s.Described := by
  refine ⟨backed, fun kind none_of => ?_⟩
  cases stored : s.items kind with
  | none => rfl
  | some item =>
    obtain ⟨entry, present, same, -⟩ := backed kind item stored
    exact absurd same (none_of entry present)

theorem Empty.described (empty : s.Empty) : s.Described := by
  refine described_of_backed fun kind item stored => ?_
  rw [empty kind] at stored
  cases stored

variable {s' : ClipBridge}

theorem Described.of_eq (described : s.Described) (items : s'.items = s.items)
    (clipItems : s'.clipItems = s.clipItems) : s'.Described := by
  refine ⟨?_, ?_⟩
  · rw [items, clipItems]
    exact described.backed
  · rw [items, clipItems]
    exact described.absent

theorem Described.write (described : s.Described) (small : data.length ≤ clipItemMax)
    (clipItems : s'.clipItems = (s.clipItemSet mime data memory).2.clipItems)
    (others : ∀ kind, kind ≠ mime.kind → s'.items kind = s.items kind)
    (own : ∀ item ∈ s'.items mime.kind,
      item.data = data ∧ (s.clipItemSet mime data memory).1 = true ∨
        item ∈ s.items mime.kind ∧ s.Spares mime) : s'.Described := by
  refine described_of_backed fun kind item stored => ?_
  rw [clipItems]
  by_cases same : kind = mime.kind
  · subst same
    rcases own item stored with ⟨written, kept⟩ | ⟨old, spares⟩
    · exact ⟨_, mem_clipItemSet_self small kept, rfl, written.symm⟩
    · -- The bytes the bridge has are also under a type that is not written.
      obtain ⟨entry, present, other, kind, bytes⟩ := spares item old
      exact ⟨entry, mem_clipItemSet_of_ne present other data memory, kind, bytes⟩
  · rw [others kind same] at stored
    obtain ⟨entry, present, kind_eq, bytes⟩ := described.backed kind item stored
    have other : entry.1 ≠ mime := fun equal => same (by rw [← kind_eq, equal])
    exact ⟨entry, mem_clipItemSet_of_ne present other data memory, kind_eq, bytes⟩

theorem itemStore_items_of_ne (s : ClipBridge) {kind other : ClipKind} (data : List UInt8)
    (origin : CopyOrigin) (stored : Bool) (apart : other ≠ kind) :
    (s.itemStore kind data origin stored).items other = s.items other := by
  unfold itemStore
  split
  · rfl
  · exact Function.update_of_ne apart _ _

variable {origin : CopyOrigin} {stored : Bool}

theorem itemStore_items_self {kind : ClipKind} (some_kind : kind ≠ 0)
    (small : data.length ≤ clipItemMax) :
    (s.itemStore kind data origin stored).items kind =
      if stored then some ⟨data, origin⟩ else s.items kind := by
  unfold itemStore
  cases stored with
  | false => simp
  | true => simp [some_kind, Nat.not_lt.mpr small]

theorem Described.record (described : s.Described) (clip : mime.isClip = true)
    (small : data.length ≤ clipItemMax)
    (items : s'.items = (s.itemStore mime.kind data origin stored).items)
    (clipItems : s'.clipItems = (s.clipItemSet mime data memory).2.clipItems)
    (possible : if stored then s.HasRoom mime ∧ memory = true else s.Spares mime) :
    s'.Described := by
  refine described.write small clipItems (fun kind other => ?_) fun item present => ?_
  · rw [items, itemStore_items_of_ne _ _ _ _ other]
  · rw [items, itemStore_items_self (Mime.kind_ne_zero clip) small] at present
    cases stored with
    | true =>
      cases present
      exact .inl ⟨rfl, (clipItemSet_fst _ _ _ _).mpr ⟨clip, possible⟩⟩
    | false => exact .inr ⟨present, possible⟩

/-- An item is stored on both sides, or neither side had room. -/
theorem Described.delivered (described : s.Described)
    (small : data.length ≤ clipItemMax)
    (items : s'.items = if (s.clipItemSet mime data memory).1 = true ∧ mime.kind ≠ 0 ∧
        (s.items mime.kind).map ClipItem.data ≠ some data then
      (s.itemStore mime.kind data origin stored).items else s.items)
    (clipItems : s'.clipItems = (s.clipItemSet mime data memory).2.clipItems)
    (possible : mime.isClip = true → memory = true ∧ stored = true ∨ s.Spares mime) :
    s'.Described := by
  cases clip : mime.isClip with
  | false =>
    -- Neither store takes over other types.
    have nothing : s.clipItemSet mime data memory = (false, s) := by
      simp [clipItemSet, clip]
    rw [nothing] at items clipItems
    exact described.of_eq (by simpa using items) clipItems
  | true =>
    have nonzero := Mime.kind_ne_zero clip
    refine described.write small clipItems (fun kind other => ?_) fun item present => ?_
    · rw [items]
      split
      · exact itemStore_items_of_ne _ _ _ _ other
      · rfl
    · rw [items] at present
      by_cases kept : (s.clipItemSet mime data memory).1 = true
      · split at present
        · rw [itemStore_items_self nonzero small] at present
          cases stored with
          | true =>
            cases present
            exact .inl ⟨rfl, kept⟩
          | false => exact .inr ⟨present, (possible clip).resolve_left fun both => nomatch both.2⟩
        · rename_i equal
          have same : (s.items mime.kind).map ClipItem.data = some data := by
            by_contra differs
            exact equal ⟨kept, nonzero, differs⟩
          rw [Option.mem_def.mp present] at same
          exact .inl ⟨Option.some.inj same, kept⟩
      · -- Then there was no memory, or no place for a type that was not there.
        rw [if_neg fun worked => kept worked.1] at present
        refine .inr ⟨present, ?_⟩
        rcases possible clip with both | spares
        · refine described.spares fun held => kept ?_
          exact (clipItemSet_fst _ _ _ _).mpr ⟨clip, .inl held, both.1⟩
        · exact spares

def emptied (s : ClipBridge) : ClipBridge :=
  { s with items := fun _ => none, clipItems := [], readers := [] }

/-- What the stores and the pipes are after something else has happened. -/
def SameStores (s s' : ClipBridge) : Prop :=
  s'.items = s.items ∧ s'.clipItems = s.clipItems ∧ s'.readers = s.readers

theorem clipItemSet_congr (same : s'.clipItems = s.clipItems) (mime : Mime) (data : List UInt8)
    (memory : Bool) :
    (s'.clipItemSet mime data memory).1 = (s.clipItemSet mime data memory).1 ∧
      (s'.clipItemSet mime data memory).2.clipItems =
        (s.clipItemSet mime data memory).2.clipItems := by
  unfold clipItemSet
  rw [same]
  grind

end ClipBridge

namespace ClipHosts

/-- A refused record changes neither store. -/
theorem receive_refused {s : ClipHosts} {i : Fin clipMaxClients} {m : XiosMsg} {room : Bool}
    (refused : s.taken i m room = none) (payload : List UInt8) (memory stored : Bool)
    (lost : Fin clipMaxClients → Bool) :
    s.bridge.SameStores (s.receive i m payload room memory stored lost).bridge := by
  unfold receive
  split
  · exact ⟨rfl, rfl, rfl⟩
  rename_i client connected
  have undelivered : ¬client.Delivers m room := by
    simpa [taken, connected] using refused
  split
  · exact ⟨rfl, rfl, rfl⟩
  rename_i magic
  split
  · split <;> exact ⟨rfl, rfl, rfl⟩
  rename_i handshaken
  split
  · exact ⟨rfl, rfl, rfl⟩
  rename_i typed
  split
  · rename_i accepted
    simp only [not_or, ne_eq, not_not, Nat.not_lt, Bool.not_eq_false] at magic handshaken typed
    -- A record that the bridge accepts meets all the conditions.
    exfalso
    unfold rxDispatch at accepted
    split at accepted
    · cases accepted
    rename_i formed
    simp only [not_or, ne_eq, not_not, Bool.not_eq_false] at formed
    split at accepted
    · rename_i known
      refine undelivered ⟨magic, handshaken, typed.1, typed.2.1, typed.2.2.1, typed.2.2.2,
        formed.2.2.1, formed.2.2.2.1, formed.2.2.2.2, known, fun zero => ?_⟩
      by_contra length
      simp [zero, length] at accepted
    · cases accepted
  · exact ⟨rfl, rfl, rfl⟩

@[simp]
theorem itemStore_clipItems (s : ClipBridge) (kind : ClipKind) (data : List UInt8)
    (origin : CopyOrigin) (stored : Bool) :
    (s.itemStore kind data origin stored).clipItems = s.clipItems := by
  unfold ClipBridge.itemStore
  split <;> rfl

theorem itemStore_congr {s s' : ClipBridge} (same : s'.items = s.items) (kind : ClipKind)
    (data : List UInt8) (origin : CopyOrigin) (stored : Bool) :
    (s'.itemStore kind data origin stored).items = (s.itemStore kind data origin stored).items := by
  unfold ClipBridge.itemStore
  split
  · exact same
  · simp only [same]

theorem accept_stores (s : ClipHosts) (i : Fin clipMaxClients) {b : ClipBridge} {kind : ClipKind}
    {mime : Mime} (typed : Mime.ofKind kind = some mime) (some_kind : kind ≠ 0)
    (data : List UInt8) (origin : CopyOrigin) {first : Bool} (memory stored : Bool)
    (lost : Fin clipMaxClients → Bool) (items : b.items = s.bridge.items)
    (clipItems : b.clipItems = if first then [] else s.bridge.clipItems)
    (readers : b.readers = if first then [] else s.bridge.readers) :
    let b' := ((s.relay i kind data origin stored lost).withBridge
      (·.clipboardFromApp kind data first memory)).bridge
    b'.items = (b.itemStore kind data origin stored).items ∧
      b'.clipItems = (b.clipItemSet mime data memory).2.clipItems ∧ b'.readers = b.readers := by
  intro b'
  have mirrored : (s.bridge.itemStore kind data origin stored).items =
      (b.itemStore kind data origin stored).items :=
    itemStore_congr items.symm kind data origin stored
  have stays := itemStore_clipItems s.bridge kind data origin stored
  have open_stay := ClipBridge.itemStore_readers s.bridge kind data origin stored
  simp only [b', withBridge, ClipBridge.clipboardFromApp, some_kind, ↓reduceIte, typed,
    ClipBridge.clipItemSet_items, ClipBridge.clipItemSet_readers]
  cases first with
  | true =>
    exact ⟨mirrored, (ClipBridge.clipItemSet_congr clipItems.symm mime data memory).2, readers.symm⟩
  | false =>
    refine ⟨mirrored, (ClipBridge.clipItemSet_congr ?_ mime data memory).2, ?_⟩
    · exact stays.trans clipItems.symm
    · exact open_stay.trans readers.symm

theorem receive_taken {s : ClipHosts} {i : Fin clipMaxClients} {m : XiosMsg} {room : Bool}
    {client : ClipClient} (taken : s.taken i m room = some client) (payload : List UInt8)
    (memory stored : Bool) (lost : Fin clipMaxClients → Bool) :
    let b := if client.BeginsSet m then s.bridge.emptied else s.bridge
    let b' := (s.receive i m payload room memory stored lost).bridge
    m.a.toNat = 0 ∧ m.clipMime = none ∧ s.bridge.emptied.SameStores b' ∨
      ∃ mime, m.clipMime = some mime ∧ mime.isClip = true ∧
        b'.items = (b.itemStore mime.kind payload (.host client.conn m.b) stored).items ∧
        b'.clipItems = (b.clipItemSet mime payload memory).2.clipItems ∧
        b'.readers = b.readers := by
  intro b b'
  obtain ⟨connected, delivers⟩ := Option.filter_eq_some_iff.mp taken
  simp only [decide_eq_true_eq] at delivers
  obtain ⟨magic, handshaken, type, window, small, roomy, numbered, noC, noD, known, length⟩ :=
    delivers
  have formed : ¬(client.handshaken = false ∨ m.windowId ≠ 0#32 ∨ m.b = 0#32 ∨ m.c ≠ 0#32 ∨
      m.d ≠ 0#32) := by
    simp [handshaken, window, numbered, noC, noD]
  have dispatched : ∀ s', s.rxDispatch i client m payload memory stored lost = some s' →
      b' = s'.bridge := by
    intro s' accepted
    simp [b', receive, connected, magic, handshaken, type, window, Nat.not_lt.mpr small, roomy,
      accepted]
  unfold rxDispatch at dispatched
  simp only [if_neg formed, dif_pos known] at dispatched
  by_cases zero : m.a.toNat = 0
  · -- A clear takes everything away.
    have cleared : (⟨m.a.toNat, known⟩ : ClipKind) = 0 := Fin.ext zero
    rw [if_pos cleared, if_neg (not_not.mpr (length zero))] at dispatched
    refine .inl ⟨zero, ?_, ?_⟩
    · simp only [XiosMsg.clipMime, dif_pos known, cleared]
      rfl
    · rw [dispatched _ rfl]
      exact ⟨rfl, rfl, rfl⟩
  · have nonzero : (⟨m.a.toNat, known⟩ : ClipKind) ≠ 0 := fun equal => zero (Fin.mk.inj equal)
    rw [if_neg nonzero] at dispatched
    obtain ⟨mime, typed⟩ := Mime.exists_ofKind nonzero
    have spec := Mime.ofKind_spec typed
    refine .inr ⟨mime, ?_, spec.1, ?_⟩
    · simp only [XiosMsg.clipMime, dif_pos known, typed]
    · rw [dispatched _ rfl, spec.2]
      by_cases continues : m.b = client.lastRxGen
      · -- The record joins what is there.
        have joins : ¬client.BeginsSet m := by simp [ClipClient.BeginsSet, zero, continues]
        have nothing : decide (m.b ≠ client.lastRxGen) = false := by simpa using continues
        simp only [b, if_neg joins, nothing, Bool.false_eq_true, ↓reduceIte]
        exact accept_stores _ i typed nonzero payload _ memory stored lost rfl rfl rfl
      · -- The record begins a set of its own.
        have begins : client.BeginsSet m := .inr continues
        have first : decide (m.b ≠ client.lastRxGen) = true := by simpa using continues
        simp only [b, if_pos begins, first, ↓reduceIte]
        exact accept_stores _ i typed nonzero payload _ memory stored lost rfl rfl rfl

theorem publish_stores (s : ClipHosts) (kind : ClipKind) (data : List UInt8) (origin : CopyOrigin)
    (stored : Bool) (lost : Fin clipMaxClients → Bool) :
    let b' := (s.publish kind data origin stored lost).bridge
    (b'.items = if (s.bridge.items kind).map ClipItem.data = some data then s.bridge.items
      else (s.bridge.itemStore kind data origin stored).items) ∧
      b'.clipItems = s.bridge.clipItems ∧ b'.readers = s.bridge.readers := by
  intro b'
  simp only [b']
  unfold publish
  split
  · exact ⟨rfl, rfl, rfl⟩
  split
  · rename_i refused
    refine ⟨?_, rfl, rfl⟩
    rw [ClipBridge.itemStore, if_pos refused]
  · refine ⟨rfl, ?_, ?_⟩
    · exact itemStore_clipItems s.bridge kind data origin stored
    · exact ClipBridge.itemStore_readers s.bridge kind data origin stored

theorem clipSetText_stores (s : ClipHosts) (text : List UInt8) (sendToApp memory stored : Bool)
    (lost : Fin clipMaxClients → Bool) :
    let b' := (s.clipSetText text sendToApp memory stored lost).bridge
    let data := text.take clipItemMax
    (b'.items = if memory && sendToApp then
        (s.bridge.emptied.itemStore 1 data (.selection s.bridge.selections) stored).items
      else s.bridge.items) ∧
      b'.clipItems = (s.bridge.emptied.clipItemSet Mime.utf8 data memory).2.clipItems ∧
      b'.readers = [] := by
  intro b' data
  have kept : (s.bridge.newSelection.clipClearItems.clipItemSet Mime.utf8 data memory).1 =
      memory := by
    rw [Bool.eq_iff_iff, ClipBridge.clipItemSet_fst]
    exact ⟨fun set => set.2.2, fun there => ⟨rfl, .inr (Nat.zero_lt_succ 15), there⟩⟩
  have emptied : s.bridge.newSelection.clipClearItems.clipItems = s.bridge.emptied.clipItems := rfl
  have same := (ClipBridge.clipItemSet_congr emptied Mime.utf8 data memory).2
  simp only [b']
  unfold clipSetText
  simp only [data] at kept same ⊢
  simp only [kept]
  split
  · -- The set is begun before the text is published, so that it cannot be there already.
    obtain ⟨items, clipItems, readers⟩ := publish_stores (selectionBegin
      { s with bridge := (s.bridge.newSelection.clipClearItems.clipItemSet Mime.utf8
        (text.take clipItemMax) memory).2 } (.selection s.bridge.selections)) 1
      (text.take clipItemMax) (.selection s.bridge.selections) stored lost
    refine ⟨?_, clipItems.trans same, readers.trans ?_⟩
    · rw [items, if_neg (fun there => nomatch there)]
      refine itemStore_congr ?_ _ _ _ _
      rfl
    · exact ClipBridge.clipItemSet_readers _ _ _ _
  · exact ⟨ClipBridge.clipItemSet_items _ _ _ _, same, ClipBridge.clipItemSet_readers _ _ _ _⟩

theorem sourceReadDone_stores {s : ClipHosts} {index : Nat} {reader : SourceRead}
    (opened : s.bridge.readers[index]? = some reader) (data : List UInt8)
    (memory stored : Bool) (lost : Fin clipMaxClients → Bool) :
    let b' := (s.sourceReadDone index data true memory stored lost).bridge
    let kept := s.bridge.clipItemSet reader.mime data memory
    (b'.items = if kept.1 = true ∧ reader.mime.kind ≠ 0 ∧
        (s.bridge.items reader.mime.kind).map ClipItem.data ≠ some data then
        (s.bridge.itemStore reader.mime.kind data (.selection reader.selection) stored).items
      else s.bridge.items) ∧
      b'.clipItems = kept.2.clipItems ∧ b'.readers = s.bridge.readers.eraseIdx index := by
  intro b' kept
  have closed : ({ s.bridge with readers := s.bridge.readers.eraseIdx index } : ClipBridge).clipItems =
      s.bridge.clipItems := rfl
  have same := ClipBridge.clipItemSet_congr closed reader.mime data memory
  simp only [b', kept]
  unfold sourceReadDone
  simp only [opened, ↓reduceIte, same.1]
  split
  · rename_i worked
    simp only [Bool.and_eq_true, bne_iff_ne, ne_eq] at worked
    obtain ⟨items, clipItems, readers⟩ := publish_stores { s with bridge :=
      (ClipBridge.clipItemSet { s.bridge with readers := s.bridge.readers.eraseIdx index }
        reader.mime data memory).2 } reader.mime.kind data (.selection reader.selection) stored lost
    refine ⟨items.trans ?_, clipItems.trans same.2, readers.trans ?_⟩
    · simp only [ClipBridge.clipItemSet_items, worked, true_and, ne_eq, not_false_eq_true,
        ite_not]
      split
      · rfl
      · refine itemStore_congr ?_ _ _ _ _
        exact ClipBridge.clipItemSet_items _ _ _ _
    · exact ClipBridge.clipItemSet_readers _ _ _ _
  · rename_i failed
    simp only [Bool.and_eq_true, bne_iff_ne, ne_eq] at failed
    refine ⟨?_, same.2, ClipBridge.clipItemSet_readers _ _ _ _⟩
    rw [if_neg fun worked => failed ⟨worked.1, worked.2.1⟩]
    exact ClipBridge.clipItemSet_items _ _ _ _

theorem listenDispatch_stores (s : ClipHosts) :
    s.bridge.SameStores s.listenDispatch.bridge := by
  unfold listenDispatch ClipBridge.listenDispatch
  cases (List.finRange clipMaxClients).find? fun i => (s.bridge.clients i).isNone <;>
    exact ⟨rfl, rfl, rfl⟩

end ClipHosts

namespace ClipStores

/-- What holds between steps. -/
structure Coherent (s : ClipStores) : Prop where
  described : s.hosts.bridge.Described
  fresh : s.Fresh
  reading : s.Reading

variable {s : ClipStores}

theorem Coherent.of_same {s' : ClipStores} (coherent : s.Coherent)
    (stores : s.hosts.bridge.SameStores s'.hosts.bridge) (latest : s'.latest = s.latest)
    (origin : s'.origin = s.origin) : s'.Coherent := by
  obtain ⟨items, clipItems, readers⟩ := stores
  refine ⟨coherent.described.of_eq items clipItems, fun entry present => ?_,
    fun reader opened => ?_⟩
  · rw [clipItems] at present
    rw [latest, origin]
    exact coherent.fresh entry present
  · rw [readers] at opened
    rw [latest]
    exact coherent.reading reader opened

theorem coherent_of_emptied (empty : s.hosts.bridge.Empty)
    (clipItems : s.hosts.bridge.clipItems = []) (reading : s.Reading) : s.Coherent := by
  refine ⟨empty.described, fun entry present => ?_, reading⟩
  rw [clipItems] at present
  cases present

variable {memory : Bool}

theorem fresh_write {b : ClipBridge} {mime : Mime} {data : List UInt8} {o : CopyOrigin}
    {origin : Mime → Option CopyOrigin}
    (clipItems : s.hosts.bridge.clipItems = (b.clipItemSet mime data memory).2.clipItems)
    (old : ∀ entry ∈ b.clipItems, origin entry.1 = some o) (latest : s.latest = some o)
    (written : s.origin = Function.update origin mime (some o)) : s.Fresh := by
  intro entry present
  rw [clipItems] at present
  rw [latest, written]
  refine ⟨rfl, ?_⟩
  by_cases same : entry.1 = mime
  · rw [same, Function.update_self]
  · rw [Function.update_of_ne same]
    exact old entry ((ClipBridge.mem_clipItemSet present).resolve_right same)

variable {stored : Bool} {lost : Fin clipMaxClients → Bool}

/-- A record changes the bridge and the store of the compositor in the same way. -/
theorem Coherent.receive (coherent : s.Coherent) {i : Fin clipMaxClients} {m : XiosMsg}
    {payload : List UInt8} {room : Bool} (whole : payload.length = m.length.toNat)
    (condition : s.Condition (.receive i m payload room memory stored lost)) :
    (s.next (.receive i m payload room memory stored lost)).Coherent := by
  cases taken : s.hosts.taken i m room with
  | none =>
    refine coherent.of_same (ClipHosts.receive_refused taken payload memory stored lost) ?_ ?_
    · simp only [next, latestAfter, taken]
    · simp only [next, originAfter, taken]
  | some client =>
    have delivers := (Option.filter_eq_some_iff.mp taken).2
    simp only [decide_eq_true_eq] at delivers
    have small : payload.length ≤ clipItemMax := whole ▸ delivers.2.2.2.2.1
    have latest : (s.next (.receive i m payload room memory stored lost)).latest =
        if client.BeginsSet m then some (.host client.conn m.b) else s.latest := by
      simp only [next, latestAfter, taken]
    rcases ClipHosts.receive_taken taken payload memory stored lost with
      ⟨_, _, items, clipItems, readers⟩ | ⟨mime, typed, clip, items, clipItems, readers⟩
    · -- A clear empties both stores.
      refine coherent_of_emptied (fun kind => congrFun items kind) clipItems fun reader opened => ?_
      change reader ∈ (s.hosts.receive i m payload room memory stored lost).bridge.readers at opened
      rw [readers] at opened
      cases opened
    · have origin : (s.next (.receive i m payload room memory stored lost)).origin =
          Function.update s.origin mime (some (.host client.conn m.b)) := by
        simp only [next, originAfter, taken, typed]
      have checked := condition client taken mime typed
      by_cases begins : client.BeginsSet m
      · -- The stores are written from scratch.
        simp only [if_pos begins] at items clipItems readers latest checked
        have scratch : s.hosts.bridge.emptied.Described :=
          ClipBridge.Empty.described fun _ => rfl
        refine ⟨scratch.record clip small items clipItems ?_,
          fresh_write clipItems (fun entry present => nomatch present) latest origin, ?_⟩
        · cases stored with
          | true => exact ⟨.inr (Nat.zero_lt_succ 15), checked rfl⟩
          | false => exact fun item present => nomatch present
        · intro reader opened
          change reader ∈ (s.hosts.receive i m payload room memory stored lost).bridge.readers
            at opened
          rw [readers] at opened
          cases opened
      · -- The record is one more item of the selection made last.
        simp only [if_neg begins] at items clipItems readers latest checked
        obtain ⟨author, possible⟩ := checked
        refine ⟨coherent.described.record clip small items clipItems possible,
          fresh_write clipItems (fun entry present => ?_) (latest.trans author) origin, ?_⟩
        · exact (coherent.fresh entry present).2.trans author
        · intro reader opened
          change reader ∈ (s.hosts.receive i m payload room memory stored lost).bridge.readers
            at opened
          rw [readers] at opened
          rw [latest]
          exact coherent.reading reader opened

variable {event : ClipHosts.Event}

theorem coherent_of_setText {text : List UInt8}
    {sendToApp : Bool}
    (hosts : s.hosts.next event = s.hosts.clipSetText text sendToApp memory stored lost)
    (latest : s.latestAfter event = some (.selection s.hosts.bridge.selections))
    (origin : s.originAfter event =
      Function.update s.origin Mime.utf8 (some (.selection s.hosts.bridge.selections)))
    (possible : sendToApp = true ∧ memory = true ∨ s.hosts.bridge.Empty) :
    (s.next event).Coherent := by
  obtain ⟨items, clipItems, readers⟩ :=
    ClipHosts.clipSetText_stores s.hosts text sendToApp memory stored lost
  rw [← hosts] at items clipItems readers
  have small : (text.take clipItemMax).length ≤ clipItemMax := List.length_take_le _ _
  have scratch : s.hosts.bridge.emptied.Described := ClipBridge.Empty.described fun _ => rfl
  refine ⟨?_, fresh_write clipItems (fun entry present => nomatch present) latest origin, ?_⟩
  · by_cases both : (memory && sendToApp) = true
    · -- Both stores have the text and nothing else.
      rw [if_pos both] at items
      have utf8 : Mime.utf8.isClip = true := rfl
      refine scratch.record utf8 small items clipItems ?_
      cases stored with
      | true => exact ⟨.inr (Nat.zero_lt_succ 15), (Bool.and_eq_true_iff.mp both).1⟩
      | false => exact fun item present => nomatch present
    · rw [if_neg both] at items
      have empty := possible.resolve_left fun sent => both (by simp [sent])
      refine ClipBridge.Empty.described fun kind => ?_
      change (s.hosts.next event).bridge.items kind = none
      rw [items]
      exact empty kind
  · intro reader opened
    change reader ∈ (s.hosts.next event).bridge.readers at opened
    rw [readers] at opened
    cases opened

theorem coherent_of_ingest {mimes : List (Mime × Bool)}
    (hosts : s.hosts.next event = s.hosts.clipIngestSource mimes)
    (latest : s.latestAfter event = some (.selection s.hosts.bridge.selections)) :
    (s.next event).Coherent := by
  have bridge : (s.next event).hosts.bridge = s.hosts.bridge.clipIngestSource mimes :=
    congrArg ClipHosts.bridge hosts
  refine coherent_of_emptied ?_ ?_ fun reader opened => ?_
  · rw [bridge]
    exact fun _ => rfl
  · rw [bridge]
    rfl
  · rw [bridge] at opened
    rw [show (s.next event).latest = _ from latest, ClipBridge.openReaders_selection opened]

theorem Coherent.sourceReadDone (coherent : s.Coherent) {index : Nat} {data : List UInt8}
    {keep : Bool} (small : keep = true → data.length ≤ clipItemMax)
    (condition : s.Condition (.readDone index data keep memory stored lost)) :
    (s.next (.readDone index data keep memory stored lost)).Coherent := by
  cases opened : s.hosts.bridge.readers[index]? with
  | none =>
    refine coherent.of_same ?_ rfl ?_
    · simp only [next, ClipHosts.next, ClipHosts.sourceReadDone, opened]
      exact ⟨rfl, rfl, rfl⟩
    · simp only [next, originAfter, opened]
  | some reader =>
    have author := coherent.reading reader (List.mem_of_getElem? opened)
    have reading : ∀ readers, readers = s.hosts.bridge.readers.eraseIdx index →
        ∀ r ∈ readers, s.latest = some (.selection r.selection) := by
      rintro _ rfl r still
      exact coherent.reading r (List.mem_of_mem_eraseIdx still)
    cases keep with
    | false =>
      -- A pipe that failed is only closed.
      have stores : (s.next (.readDone index data false memory stored lost)).hosts.bridge =
          { s.hosts.bridge with readers := s.hosts.bridge.readers.eraseIdx index } := by
        simp only [next, ClipHosts.next, ClipHosts.sourceReadDone, opened, Bool.false_eq_true,
          ↓reduceIte]
      have origin : (s.next (.readDone index data false memory stored lost)).origin = s.origin := by
        simp only [next, originAfter, opened, Bool.false_eq_true, ↓reduceIte]
      refine ⟨coherent.described.of_eq ?_ ?_, fun entry present => ?_, fun r still => ?_⟩
      · rw [stores]
      · rw [stores]
      · rw [stores] at present
        rw [origin]
        exact coherent.fresh entry present
      · rw [stores] at still
        exact reading _ rfl r still
    | true =>
      obtain ⟨items, clipItems, readers⟩ :=
        ClipHosts.sourceReadDone_stores opened data memory stored lost
      have origin : (s.next (.readDone index data true memory stored lost)).origin =
          Function.update s.origin reader.mime (some (.selection reader.selection)) := by
        simp only [next, originAfter, opened, ↓reduceIte]
      refine ⟨?_, ?_, fun r still => reading _ readers r still⟩
      · exact coherent.described.delivered (small rfl) items clipItems
          (condition reader opened rfl)
      · refine fresh_write clipItems (fun entry present => ?_) author origin
        exact (coherent.fresh entry present).2.trans author

/-- Steps that meet the condition keep the stores together. -/
theorem Coherent.next (coherent : s.Coherent) (allowed : machine.enabled s event)
    (condition : s.Condition event) : (s.next event).Coherent := by
  cases event with
  | connect => exact coherent.of_same (ClipHosts.listenDispatch_stores s.hosts) rfl rfl
  | hangUp i => exact coherent.of_same ⟨rfl, rfl, rfl⟩ rfl rfl
  | flush i n => exact coherent.of_same ⟨rfl, rfl, rfl⟩ rfl rfl
  | receive i m payload room memory stored lost => exact coherent.receive allowed.1 condition
  | setText text sendToApp memory stored lost => exact coherent_of_setText rfl rfl rfl condition
  | dataDevice source lost =>
    match source with
    | none =>
      refine coherent_of_emptied (fun _ => rfl) rfl fun reader opened => ?_
      cases opened
    | some [] =>
      -- The request is ignored, which is right where there was nothing.
      obtain ⟨clipItems, readers⟩ := condition
      refine ⟨coherent.described, fun entry present => ?_, fun reader opened => ?_⟩
      · change entry ∈ s.hosts.bridge.clipItems at present
        rw [clipItems] at present
        cases present
      · change reader ∈ s.hosts.bridge.readers at opened
        rw [readers] at opened
        cases opened
    | some (_ :: _) => exact coherent_of_ingest rfl rfl
  | dataControl source memory stored lost =>
    match source with
    | none => exact coherent_of_setText rfl rfl rfl (condition.imp_left fun there => ⟨rfl, there⟩)
    | some [] =>
      refine coherent_of_emptied condition rfl fun reader opened => ?_
      cases opened
    | some (_ :: _) => exact coherent_of_ingest rfl rfl
  | readDone index data keep memory stored lost =>
    exact coherent.sourceReadDone allowed.2 condition

theorem coherent_empty : Coherent {} :=
  ⟨ClipBridge.Empty.described fun _ => rfl, fun _ present => (nomatch present),
    fun _ opened => (nomatch opened)⟩

/--
Where every step meets the condition, the two stores agree.

What the compositor has then stems from the copy that was selected last, and so will what the pipes
still deliver.
-/
theorem stores_agree {trace : List ClipHosts.Event} {s : ClipStores}
    (run : (machine.restrict Condition).Run trace s) :
    s.hosts.bridge.Described ∧ s.Fresh ∧ s.Reading := by
  have coherent : s.Coherent := by
    refine run.invariant (fun _ s => s.Coherent) ?_ ?_
    · rintro _ rfl
      exact coherent_empty
    · intro _ s event coherent allowed
      exact coherent.next allowed.1 allowed.2
  exact ⟨coherent.described, coherent.fresh, coherent.reading⟩

instance (s : ClipStores) : ∀ event, Decidable (machine.enabled s event)
  | .readDone .. => inferInstanceAs (Decidable (True ∧ (_ → _)))
  | .receive .. => inferInstanceAs (Decidable (_ = _ ∧ True))
  | .connect | .hangUp _ | .flush .. | .setText .. | .dataDevice .. | .dataControl .. =>
    .isTrue ⟨trivial, trivial⟩

def textCopied : List ClipHosts.Event :=
  [.dataDevice (some [(.utf8String, true), (.plain, true)]) fun _ => false,
    .readDone 1 [104] true true true fun _ => false,
    .readDone 0 [104] true true true fun _ => false]

def imageCopied : List ClipHosts.Event :=
  [.connect, .receive 0 XiosMsg.hello [] true true true fun _ => false,
    ClipHosts.sends 0 3#32 137 true]

theorem stores_agree_image :
    let s := (textCopied ++ imageCopied).foldl next {}
    s.hosts.bridge.Described ∧ s.Fresh ∧ s.Reading :=
  stores_agree
    (Machine.Run.of_script (m := machine.restrict Condition) (s := {}) rfl
      (textCopied ++ imageCopied) (by decide))

/--
The two stores do not always agree.

An empty selection of a clipboard manager is only taken away from the compositor's store.
An empty selection of another client is ignored, so that the old items stay.
-/
theorem not_stores_agree :
    (¬∀ (trace : List ClipHosts.Event) (s : ClipStores), machine.Run trace s →
      s.hosts.bridge.Described) ∧
    ¬∀ (trace : List ClipHosts.Event) (s : ClipStores), machine.Run trace s → s.Fresh := by
  constructor
  · intro always
    have run : machine.Run _ _ :=
      .of_script (m := machine) (s := {}) rfl
        (textCopied ++ [.dataControl (some []) true true fun _ => false]) (by decide)
    have absent := (always _ _ run).absent 1 (fun _ present => nomatch present)
    exact absurd absent (by decide)
  · intro always
    have run : machine.Run _ _ :=
      .of_script (m := machine) (s := {}) rfl
        (textCopied ++ [.dataDevice (some []) fun _ => false]) (by decide)
    have fresh := always _ _ run (.plain, [104]) (by decide)
    exact absurd fresh (by decide)

end ClipStores

end Xios
