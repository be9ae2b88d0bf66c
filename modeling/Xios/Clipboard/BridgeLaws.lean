import Xios.Clipboard.Bridge

/-! Which copy the items of the bridge's store stem from. -/

namespace Xios

/-- A record that adds an item to the generation a host sent last. -/
def ClipClient.Continues (client : ClipClient) (m : XiosMsg) : Prop :=
  client.handshaken = true ∧ m.magic = msgMagic ∧ m.type = msgClipboard ∧ m.windowId = 0#32 ∧
    0 < m.a.toNat ∧ m.a.toNat < 5 ∧ m.b ≠ 0#32 ∧ m.b = client.lastRxGen ∧ m.c = 0#32 ∧ m.d = 0#32

namespace ClipBridge

/-- All items of the store stem from one copy. -/
def SingleOrigin (s : ClipBridge) : Prop :=
  ∀ kind kind' item item', s.items kind = some item → s.items kind' = some item' →
    item.origin = item'.origin

/-- No item of the store stems from another copy than the one the generation was begun for. -/
def Current (s : ClipBridge) : Prop :=
  ∀ kind item, s.items kind = some item → s.setOrigin = some item.origin

/-- Every open pipe belongs to the copy the generation was begun for. -/
def Reading (s : ClipBridge) : Prop :=
  ∀ reader ∈ s.readers, s.setOrigin = some (.selection reader.selection)

/-- A host continues its last generation only while that generation is the current set. -/
def Ordered (s : ClipBridge) : Event → Prop
  | .receive i m _ _ _ _ _ =>
    ∀ client, s.clients i = some client → client.Continues m →
      s.setOrigin = some (.host client.conn m.b)
  | _ => True

variable {s : ClipBridge}

theorem Current.singleOrigin (current : s.Current) : s.SingleOrigin := by
  intro kind kind' item item' stored stored'
  have first := current kind item stored
  have second := current kind' item' stored'
  rw [first] at second
  exact Option.some.inj second

variable {s' : ClipBridge}

theorem Current.of_eq (current : s.Current) (items : s'.items = s.items)
    (origin : s'.setOrigin = s.setOrigin) : s'.Current := by
  intro kind item stored
  rw [items] at stored
  rw [origin]
  exact current kind item stored

theorem Reading.of_eq (reading : s.Reading) (readers : s'.readers = s.readers)
    (origin : s'.setOrigin = s.setOrigin) : s'.Reading := by
  intro reader member
  rw [readers] at member
  rw [origin]
  exact reading reader member

theorem current_of_empty (empty : ∀ kind, s.items kind = none) : s.Current := by
  intro kind item stored
  rw [empty kind] at stored
  cases stored

theorem Current.itemStore (current : s.Current) (kind : ClipKind) (data : List UInt8)
    {origin : CopyOrigin} (memory : Bool) (begun : s.setOrigin = some origin) :
    (s.itemStore kind data origin memory).Current := by
  unfold ClipBridge.itemStore
  split
  · exact current
  · intro other item stored
    -- Either the item is the new one, or it was there before.
    by_cases same : other = kind
    · subst same
      simp only [Function.update_self, Option.some.injEq] at stored
      rw [← stored]
      exact begun
    · simp only [Function.update_of_ne same] at stored
      exact current other item stored

@[simp]
theorem itemStore_setOrigin (s : ClipBridge) (kind : ClipKind) (data : List UInt8)
    (origin : CopyOrigin) (memory : Bool) :
    (s.itemStore kind data origin memory).setOrigin = s.setOrigin := by
  unfold itemStore
  split <;> rfl

@[simp]
theorem itemStore_readers (s : ClipBridge) (kind : ClipKind) (data : List UInt8)
    (origin : CopyOrigin) (memory : Bool) :
    (s.itemStore kind data origin memory).readers = s.readers := by
  unfold itemStore
  split <;> rfl

@[simp]
theorem clipItemSet_items (s : ClipBridge) (mime : Mime) (data : List UInt8) (memory : Bool) :
    (s.clipItemSet mime data memory).2.items = s.items := by
  unfold clipItemSet
  grind

@[simp]
theorem clipItemSet_setOrigin (s : ClipBridge) (mime : Mime) (data : List UInt8)
    (memory : Bool) : (s.clipItemSet mime data memory).2.setOrigin = s.setOrigin := by
  unfold clipItemSet
  grind

@[simp]
theorem clipItemSet_readers (s : ClipBridge) (mime : Mime) (data : List UInt8) (memory : Bool) :
    (s.clipItemSet mime data memory).2.readers = s.readers := by
  unfold clipItemSet
  grind

theorem Current.publish (current : s.Current) (kind : ClipKind) (data : List UInt8)
    {origin : CopyOrigin} (memory : Bool) (lost : Fin clipMaxClients → Bool)
    (begun : s.setOrigin = some origin) : (s.publish kind data origin memory lost).Current := by
  unfold ClipBridge.publish
  split
  · exact current
  · split
    · exact current
    · exact (current.itemStore kind data memory begun).of_eq rfl rfl

theorem Reading.publish (reading : s.Reading) (kind : ClipKind) (data : List UInt8)
    (origin : CopyOrigin) (memory : Bool) (lost : Fin clipMaxClients → Bool) :
    (s.publish kind data origin memory lost).Reading := by
  unfold ClipBridge.publish
  split
  · exact reading
  · split
    · exact reading
    · refine reading.of_eq ?_ ?_
      · exact itemStore_readers s kind data origin memory
      · exact itemStore_setOrigin s kind data origin memory

/-- What a whole history of the clipboard maintains. -/
structure Coherent (s : ClipBridge) : Prop where
  -- The items stem from the copy the set was begun for.
  current : s.Current
  -- The pipes still open belong to that copy.
  reading : s.Reading

theorem coherent_empty : Coherent {} := by
  refine ⟨current_of_empty fun _ => rfl, ?_⟩
  intro reader member
  cases member

theorem Coherent.setClient (coherent : s.Coherent) (i : Fin clipMaxClients)
    (client : Option ClipClient) : (s.setClient i client).Coherent :=
  ⟨coherent.current.of_eq rfl rfl, coherent.reading.of_eq rfl rfl⟩

theorem Coherent.listenDispatch (coherent : s.Coherent) : s.listenDispatch.Coherent := by
  unfold ClipBridge.listenDispatch
  split
  · exact coherent
  · exact ⟨coherent.current.of_eq rfl rfl, coherent.reading.of_eq rfl rfl⟩

theorem Current.clipClearItems (current : s.Current) : s.clipClearItems.Coherent := by
  refine ⟨current.of_eq rfl rfl, ?_⟩
  intro reader member
  cases member

theorem Current.clipboardFromApp (current : s.Current) (kind : ClipKind) (data : List UInt8)
    {first : Bool} (memory : Bool) (reading : first = false → s.Reading) :
    (s.clipboardFromApp kind data first memory).Coherent := by
  have started : (if first then s.clipClearItems else s).Coherent := by
    cases first with
    | true => exact current.clipClearItems
    | false => exact ⟨current, reading rfl⟩
  unfold ClipBridge.clipboardFromApp
  generalize (if first then s.clipClearItems else s) = s' at started
  simp only
  split
  · exact started
  · split
    · exact started
    · exact ⟨started.current.of_eq (by simp) (by simp), started.reading.of_eq (by simp) (by simp)⟩

/-- An accepted record replaces the set or continues it, and the set has one origin. -/
theorem Coherent.rxDispatch (coherent : s.Coherent) {i : Fin clipMaxClients} {client : ClipClient}
    {m : XiosMsg} {payload : List UInt8} {memory stored : Bool} {lost : Fin clipMaxClients → Bool}
    (magic : m.magic = msgMagic) (type : m.type = msgClipboard)
    (ordered : client.Continues m → s.setOrigin = some (.host client.conn m.b))
    (accepted : s.rxDispatch i client m payload memory stored lost = some s') : s'.Coherent := by
  unfold ClipBridge.rxDispatch at accepted
  split at accepted
  · cases accepted
  · rename_i formed
    simp only [not_or, Bool.not_eq_false, ne_eq, not_not] at formed
    obtain ⟨handshaken, window, numbered, noC, noD⟩ := formed
    split at accepted
    · rename_i known
      simp only at accepted
      split at accepted
      · split at accepted
        · cases accepted
        · -- A cleared clipboard is a new set without items.
          cases accepted
          refine Current.clipboardFromApp ?_ 0 [] memory (fun same => by cases same)
          exact current_of_empty fun _ => rfl
      · rename_i nonzero
        cases accepted
        by_cases continues : m.b = client.lastRxGen
        · -- The item joins the set that was begun for the same generation.
          have begun : s.setOrigin = some (.host client.conn m.b) := by
            refine ordered ⟨handshaken, magic, type, window, ?_, known, numbered, continues, noC,
              noD⟩
            have : m.a.toNat ≠ 0 := fun zero => nonzero (Fin.ext zero)
            omega
          simp only [continues, ne_eq, not_true_eq_false, decide_false, Bool.false_eq_true,
            if_false] at begun ⊢
          refine Current.clipboardFromApp ?_ _ payload memory fun _ => ?_
          · have moved := (coherent.setClient i (some { client with
              lastRxGen := client.lastRxGen })).current
            exact (moved.itemStore _ payload stored begun).of_eq rfl rfl
          · exact coherent.reading.of_eq (itemStore_readers _ _ _ _ _)
              (itemStore_setOrigin _ _ _ _ _)
        · -- The record starts a set of its own, and closes the pipes of any selection.
          simp only [continues, ne_eq, not_false_eq_true, decide_true, if_true]
          refine Current.clipboardFromApp ?_ _ payload memory (fun same => by cases same)
          have begun : ((s.setClient i (some { client with lastRxGen := m.b })).selectionBegin
            (.host client.conn m.b)).Current := current_of_empty fun _ => rfl
          exact (begun.itemStore _ payload stored rfl).of_eq rfl rfl
    · cases accepted

theorem Coherent.receive (coherent : s.Coherent) (i : Fin clipMaxClients) (m : XiosMsg)
    (payload : List UInt8) (room memory stored : Bool) (lost : Fin clipMaxClients → Bool)
    (ordered : s.Ordered (.receive i m payload room memory stored lost)) :
    (s.receive i m payload room memory stored lost).Coherent := by
  unfold ClipBridge.receive
  split
  · exact coherent
  · rename_i client connected
    split
    · exact coherent.setClient i none
    · rename_i magic
      split
      · split
        · exact coherent.setClient i _
        · exact coherent.setClient i none
      · split
        · exact coherent.setClient i none
        · rename_i typed
          simp only [not_or, ne_eq, not_not] at magic typed
          split
          · rename_i accepted
            exact coherent.rxDispatch magic typed.1 (ordered client connected) accepted
          · exact coherent.setClient i none

theorem Coherent.clipSetText (coherent : s.Coherent) (text : List UInt8)
    (sendToApp memory stored : Bool) (lost : Fin clipMaxClients → Bool) :
    (s.clipSetText text sendToApp memory stored lost).Coherent := by
  have numbered : s.newSelection.Current := coherent.current.of_eq rfl rfl
  have cleared : s.newSelection.clipClearItems.Coherent := numbered.clipClearItems
  have kept := clipItemSet_readers s.newSelection.clipClearItems Mime.utf8
    (text.take clipItemMax) memory
  have same := clipItemSet_items s.newSelection.clipClearItems Mime.utf8
    (text.take clipItemMax) memory
  have origin := clipItemSet_setOrigin s.newSelection.clipClearItems Mime.utf8
    (text.take clipItemMax) memory
  unfold ClipBridge.clipSetText
  simp only
  generalize s.newSelection.clipClearItems.clipItemSet Mime.utf8 (text.take clipItemMax) memory
    = result at kept same origin
  obtain ⟨worked, s'⟩ := result
  simp only at kept same origin ⊢
  split
  · refine ⟨(current_of_empty fun _ => rfl).publish _ _ stored lost rfl, Reading.publish ?_ _ _ _ _ _⟩
    intro reader member
    rw [show (s'.selectionBegin _).readers = s'.readers from rfl, kept] at member
    cases member
  · exact ⟨cleared.current.of_eq same origin, cleared.reading.of_eq kept origin⟩

theorem openReaders_selection {selection : Nat} {mimes : List (Mime × Bool)} {reader : SourceRead}
    (member : reader ∈ openReaders selection mimes) : reader.selection = selection := by
  -- The induction is on the types the selection offers.
  induction mimes with
  | nil => cases member
  | cons offer rest ih =>
    obtain ⟨mime, piped⟩ := offer
    simp only [openReaders, List.mem_append] at member
    cases member with
    | inl later => exact ih later
    | inr here =>
      cases piped with
      | true =>
        simp only [if_true, List.mem_singleton] at here
        rw [here]
      | false => cases here

theorem coherent_clipIngestSource (s : ClipBridge) (mimes : List (Mime × Bool)) :
    (s.clipIngestSource mimes).Coherent := by
  refine ⟨current_of_empty fun _ => rfl, ?_⟩
  intro reader member
  rw [openReaders_selection member]
  rfl

theorem Coherent.sourceReadDone (coherent : s.Coherent) (index : Nat) (data : List UInt8)
    (keep memory stored : Bool) (lost : Fin clipMaxClients → Bool) :
    (s.sourceReadDone index data keep memory stored lost).Coherent := by
  unfold ClipBridge.sourceReadDone
  split
  · exact coherent
  · rename_i reader found
    have begun : s.setOrigin = some (.selection reader.selection) :=
      coherent.reading reader (List.mem_of_getElem? found)
    have reading : Reading { s with readers := s.readers.eraseIdx index } := by
      intro other member
      exact coherent.reading other (List.mem_of_mem_eraseIdx member)
    simp only
    split
    · have current : ({ s with readers := s.readers.eraseIdx index }.clipItemSet reader.mime data
          memory).2.Current := coherent.current.of_eq (by simp) (by simp)
      have kept : ({ s with readers := s.readers.eraseIdx index }.clipItemSet reader.mime data
          memory).2.Reading := reading.of_eq (by simp) (by simp)
      split
      · exact ⟨current.publish _ data stored lost (by simpa using begun), kept.publish _ _ _ _ _⟩
      · exact ⟨current, kept⟩
    · exact ⟨coherent.current.of_eq rfl rfl, reading⟩

theorem Coherent.dataDeviceSetSelection (coherent : s.Coherent)
    (source : Option (List (Mime × Bool))) (lost : Fin clipMaxClients → Bool) :
    (s.dataDeviceSetSelection source lost).Coherent := by
  unfold ClipBridge.dataDeviceSetSelection
  split
  · refine ⟨current_of_empty fun _ => rfl, ?_⟩
    intro reader member
    cases member
  · exact coherent
  · exact coherent_clipIngestSource s _

theorem Coherent.dataControlSetSelection (coherent : s.Coherent)
    (source : Option (List (Mime × Bool))) (memory stored : Bool)
    (lost : Fin clipMaxClients → Bool) :
    (s.dataControlSetSelection source memory stored lost).Coherent := by
  unfold ClipBridge.dataControlSetSelection
  split
  · exact coherent.clipSetText [] true memory stored lost
  · exact coherent.current.clipClearItems
  · exact coherent_clipIngestSource s _

/-- Each event keeps the store coherent if no host continues an older copy. -/
theorem Coherent.next (coherent : s.Coherent) (event : Event) (ordered : s.Ordered event) :
    (s.next event).Coherent := by
  cases event with
  | connect => exact coherent.listenDispatch
  | hangUp i => exact coherent.setClient i none
  | receive i m payload room memory stored lost =>
    exact coherent.receive i m payload room memory stored lost ordered
  | setText text sendToApp memory stored lost =>
    exact coherent.clipSetText text sendToApp memory stored lost
  | dataDevice source lost => exact coherent.dataDeviceSetSelection source lost
  | dataControl source memory stored lost =>
    exact coherent.dataControlSetSelection source memory stored lost
  | readDone index data keep memory stored lost =>
    exact coherent.sourceReadDone index data keep memory stored lost

/--
The store holds the items of a single copy.

In every history in which hosts continue a generation only while it is the current set, all items
stem from one copy, which is the one the outbound generation was begun for.
-/
theorem single_origin {trace : List Event} {s : ClipBridge}
    (run : (machine.restrict Ordered).Run trace s) : s.SingleOrigin ∧ s.Current := by
  have coherent : s.Coherent := by
    refine run.invariant (fun _ s => s.Coherent) ?_ ?_
    · intro s begun
      have empty : s = {} := begun
      rw [empty]
      exact coherent_empty
    · intro _ s event coherent allowed
      exact coherent.next event allowed.2
  exact ⟨coherent.current.singleOrigin, coherent.current⟩

def clipRecord (kind gen : BitVec 32) (length : BitVec 32) : XiosMsg :=
  ⟨msgMagic, msgClipboard, 0#32, length, kind, gen, 0#32, 0#32⟩

def firstItem : List Event :=
  [.connect, .receive 0 XiosMsg.hello [] true true true (fun _ => false),
    .receive 0 (clipRecord 1#32 1#32 2#32) [104, 105] true true true (fun _ => false)]

def secondItem : Event :=
  .receive 0 (clipRecord 3#32 1#32 1#32) [137] true true true (fun _ => false)

theorem single_origin_two_items :
    ((firstItem ++ [secondItem]).foldl next {}).items 3 = some ⟨[137], .host 0 1#32⟩ ∧
      ((firstItem ++ [secondItem]).foldl next {}).SingleOrigin := by
  have run : (machine.restrict Ordered).Run (firstItem ++ [secondItem]).reverse
      ((firstItem ++ [secondItem]).foldl next {}) := by
    refine .of_script (m := machine.restrict Ordered) (s := {}) rfl _
      ⟨⟨trivial, trivial⟩, ⟨rfl, ?_⟩, ⟨rfl, ?_⟩, ⟨rfl, ?_⟩, trivial⟩
    · -- Before the opening record nothing can be continued.
      intro client connected continues
      cases connected
      exact absurd continues.1 (by decide)
    · -- Generation one is new to this connection.
      intro client connected continues
      cases connected
      exact absurd continues.2.2.2.2.2.2.2.1 (by decide)
    · intro client connected _
      cases connected
      rfl
  exact ⟨by decide, (single_origin run).1⟩

def interruptedCopy : List Event :=
  firstItem ++ [.setText [120] true true true (fun _ => false), secondItem]

/-- The second item of the older copy joins the newer text. -/
theorem not_single_origin :
    ¬∀ (trace : List Event) (s : ClipBridge), machine.Run trace s → s.SingleOrigin := by
  intro single
  have run : machine.Run interruptedCopy.reverse (interruptedCopy.foldl next {}) :=
    .of_script (m := machine) (s := {}) rfl interruptedCopy
      ⟨trivial, rfl, rfl, trivial, rfl, trivial⟩
  have text : (interruptedCopy.foldl next {}).items 1 = some ⟨[120], .selection 0⟩ := by decide
  have image : (interruptedCopy.foldl next {}).items 3 = some ⟨[137], .host 0 1#32⟩ := by decide
  have same := single _ _ run 1 3 _ _ text image
  cases same

end ClipBridge

end Xios
