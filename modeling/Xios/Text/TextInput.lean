import Xios.Lib.Alternation
import Xios.Lib.Machine
import Xios.Lib.SwapTable

/-! Text fields, the input method and the keyboard of the host, as `iosc_text_input.c` has them. -/

namespace Xios

def maxTextInputs : Nat := 64

def maxInputPopups : Nat := 8

def swapRemove {α : Type} (found : α → Bool) (entries : List α) : List α :=
  match entries.findIdx? found, entries.getLast? with
  | some index, some last => (entries.set index last).dropLast
  | _, _ => entries

theorem swapRemove_perm {α : Type} (found : α → Bool) (entries : List α) :
    (swapRemove found entries).Perm (entries.eraseP found) := by
  rw [List.eraseP_eq_eraseIdx]
  unfold swapRemove
  cases located : entries.findIdx? found with
  | none => exact .refl _
  | some index =>
    have inside : index < entries.length := (List.findIdx?_eq_some_iff_getElem.mp located).1
    have nonempty : entries ≠ [] := List.ne_nil_of_length_pos (by omega)
    have ends := List.getLast?_eq_some_getLast nonempty
    have moved := perm_set_getLast_dropLast (List.getElem?_eq_getElem inside) ends
    rw [ends]
    exact (List.perm_cons _).mp (moved.symm.trans (List.getElem_cons_eraseIdx_perm inside).symm)

theorem mem_of_swapRemove {α : Type} {found : α → Bool} {entries : List α} {entry : α}
    (member : entry ∈ swapRemove found entries) : entry ∈ entries :=
  List.mem_of_mem_eraseP ((swapRemove_perm found entries).mem_iff.mp member)

/-- What a text input is told. -/
inductive TextInputEvent where
  | enter (surface : Nat)
  -- It can no longer be used on a surface.
  | leave (surface : Nat)
  -- Text is replaced, entered or being composed.
  | deleteSurroundingText (before after : BitVec 32)
  | commitString (text : List UInt8)
  | preeditString (text : List UInt8) (first last : BitVec 32)
  -- The changes since the last such event are to be applied.
  | done (serial : BitVec 32)
  deriving DecidableEq

def TextInputEvent.focus? : TextInputEvent → Option (Visit Nat)
  | .enter surface => some (.enter surface)
  | .leave surface => some (.leave surface)
  | _ => none

/-- What a client has told about the field it edits. -/
structure FieldState where
  -- The text around the cursor, if it was given.
  surrounding : Option (List UInt8) := none
  -- The cursor and the other end of the selection.
  cursor : BitVec 32 := 0
  anchor : BitVec 32 := 0
  -- What changed the text last, which is the input method unless told otherwise.
  changeCause : BitVec 32 := 0
  -- The kind of text that is expected.
  contentHint : BitVec 32 := 0
  contentPurpose : BitVec 32 := 0
  -- The area of the cursor.
  rectX : BitVec 32 := 0
  rectY : BitVec 32 := 0
  rectW : BitVec 32 := 0
  rectH : BitVec 32 := 0
  deriving DecidableEq

/-- A text input object. -/
structure TextInput where
  resource : Nat
  client : Nat
  focusSurface : Option Nat := none
  -- It is enabled by the next commit.
  pendingEnabled : Bool := false
  enabled : Bool := false
  field : FieldState := {}
  -- Number of commits.
  serial : BitVec 32 := 0
  -- What it has been told, newest first.
  sent : List TextInputEvent := []
  deriving DecidableEq

namespace TextInput

def tell (ti : TextInput) (event : TextInputEvent) : TextInput :=
  { ti with sent := event :: ti.sent }

def focusEvents (ti : TextInput) : List (Visit Nat) :=
  ti.sent.filterMap TextInputEvent.focus?

/-- Forget what the client told about the field. -/
def resetState (ti : TextInput) : TextInput :=
  { ti with pendingEnabled := false, enabled := false, field := {} }

def leaveSurface (ti : TextInput) (old : Nat) : TextInput :=
  { ti.tell (.leave old) with focusSurface := none }.resetState

def enterSurface (ti : TextInput) (next : Nat) : TextInput :=
  { ti with focusSurface := some next }.tell (.enter next)

end TextInput

/-- What the input method is told. -/
inductive InputMethodEvent where
  -- There is a field to edit.
  | activate
  | deactivate
  -- The field, as its client describes it.
  | surroundingText (text : List UInt8) (cursor anchor : BitVec 32)
  | textChangeCause (cause : BitVec 32)
  | contentType (hint purpose : BitVec 32)
  -- The changes since the last such event are to be applied.
  | done
  -- The area of the cursor, for one of its popups.
  | textInputRectangle (popup : Nat) (x y w h : BitVec 32)
  deriving DecidableEq

def InputMethodEvent.activation? : InputMethodEvent → Option (Visit Unit)
  | .activate => some (.enter ())
  | .deactivate => some (.leave ())
  | _ => none

/-- What an input method is about to change in the field. -/
structure PendingText where
  -- Text to be entered and to be composed.
  commitText : Option (List UInt8) := none
  preeditText : Option (List UInt8) := none
  preeditBegin : BitVec 32 := 0
  preeditEnd : BitVec 32 := 0
  -- Text to be deleted on both sides of the cursor.
  deleteBefore : BitVec 32 := 0
  deleteAfter : BitVec 32 := 0
  deriving DecidableEq

def PendingText.changes (p : PendingText) : List TextInputEvent :=
  let deleted := if p.deleteBefore ≠ 0 ∨ p.deleteAfter ≠ 0 then
    [.deleteSurroundingText p.deleteBefore p.deleteAfter] else []
  let entered := match p.commitText with
    | some (byte :: text) => [.commitString (byte :: text)]
    | _ => []
  let composed := match p.preeditText with
    | some text => [.preeditString text p.preeditBegin p.preeditEnd]
    | none => []
  deleted ++ entered ++ composed

def PendingText.events (p : PendingText) (serial : BitVec 32) : List TextInputEvent :=
  if p.changes = [] then [] else p.changes ++ [.done serial]

/-- The input method object. -/
structure InputMethod where
  resource : Nat
  active : Bool := false
  -- Number of times it was told that changes are complete.
  doneCount : BitVec 32 := 0
  -- What it is about to change.
  pending : PendingText := {}
  popups : List Nat := []
  -- What it has been told, newest first.
  sent : List InputMethodEvent := []
  deriving DecidableEq

namespace InputMethod

def tell (im : InputMethod) (event : InputMethodEvent) : InputMethod :=
  { im with sent := event :: im.sent }

def activations (im : InputMethod) : List (Visit Unit) :=
  im.sent.filterMap InputMethodEvent.activation?

def clearPending (im : InputMethod) : InputMethod :=
  { im with pending := {} }

def sendDone (im : InputMethod) : InputMethod :=
  { im.tell .done with doneCount := im.doneCount + 1 }

def sendRectangles (im : InputMethod) (field : FieldState) : InputMethod :=
  im.popups.foldl (fun im popup => im.tell
    (.textInputRectangle popup field.rectX field.rectY field.rectW field.rectH)) im

/-- Describe the field of a text input, after turning the input method on where needed. -/
def sendState (im : InputMethod) (ti : TextInput) (activate : Bool) : InputMethod :=
  let im := if activate then im.tell .activate else im
  let im := im.tell (.surroundingText (ti.field.surrounding.getD []) ti.field.cursor
    ti.field.anchor)
  let im := im.tell (.textChangeCause ti.field.changeCause)
  let im := im.tell (.contentType ti.field.contentHint ti.field.contentPurpose)
  im.sendDone.sendRectangles ti.field

def updateActive (im : InputMethod) : Option TextInput → InputMethod
  | some ti => { im.sendState ti (!im.active) with active := true }
  | none =>
    if im.active then
      { (im.tell .deactivate).sendDone with active := false }.clearPending
    else im

end InputMethod

/-- The record that tells the host's keyboard about the field. -/
structure Traits where
  -- The kind of text that is expected.
  hint : BitVec 32 := 0
  purpose : BitVec 32 := 0
  enabled : BitVec 32 := 0
  deriving DecidableEq

def TextInput.traits : Option TextInput → Traits
  | some ti => ⟨ti.field.contentHint, ti.field.contentPurpose, if ti.enabled then 1 else 0⟩
  | none => {}

/-- The text inputs, the input method and the keyboard focus. -/
structure TextState where
  -- The client of every surface, by the address of the surface.
  clientOf : Nat → Nat := fun _ => 0
  -- The surface with the keyboard focus.
  kbdFocus : Option Nat := none
  textInputs : List TextInput := []
  inputMethod : Option InputMethod := none
  -- The traits last pushed by a proxy of another input method, while there is one.
  improxy : Option Traits := none
  -- The traits sent to the hosts, newest first.
  broadcasts : List Traits := []

namespace TextState

def focusClient (st : TextState) : Option Nat :=
  st.kbdFocus.map st.clientOf

def focused (st : TextState) (ti : TextInput) : Bool :=
  st.kbdFocus.isSome && st.focusClient = some ti.client && ti.focusSurface = st.kbdFocus &&
    ti.enabled

def textInputForFocus (st : TextState) : Option TextInput :=
  st.textInputs.find? st.focused

def textInputFocusTraits (st : TextState) : Traits :=
  TextInput.traits st.textInputForFocus

def inputMethodUpdateActive (st : TextState) : TextState :=
  { st with inputMethod := st.inputMethod.map (InputMethod.updateActive · st.textInputForFocus) }

/-- Tell the hosts about the field with the keyboard focus, or what a proxy told. -/
def inputClientsSendTraits (st : TextState) : TextState :=
  { st with broadcasts := st.improxy.getD st.textInputFocusTraits :: st.broadcasts }

/-- Tell the input method and the hosts about the field with the keyboard focus. -/
def announce (st : TextState) : TextState :=
  st.inputMethodUpdateActive.inputClientsSendTraits

def moveFocus (st : TextState) (old next : Option Nat) (ti : TextInput) : TextInput :=
  let ti := match old with
    | some o =>
      if ti.focusSurface = some o ∧ ti.client = st.clientOf o then ti.leaveSurface o else ti
    | none => ti
  match next with
  | some n => if ti.client = st.clientOf n then ti.enterSurface n else ti
  | none => ti

def textInputFocusSurface (st : TextState) (old next : Option Nat) : TextState :=
  { st with textInputs := st.textInputs.map (st.moveFocus old next) }.announce

/-- Move the keyboard focus, once locks and grabs have decided where to. -/
def keyboardSetFocus (st : TextState) (s : Option Nat) : TextState :=
  if st.kbdFocus = s then st
  -- The text inputs hear of the new focus before it is stored.
  else { st.textInputFocusSurface st.kbdFocus s with kbdFocus := s }

def modify (st : TextState) (r : Nat) (f : TextInput → TextInput) : TextState :=
  { st with textInputs := st.textInputs.map fun ti => if ti.resource = r then f ti else ti }

def modifyField (st : TextState) (r : Nat) (f : FieldState → FieldState) : TextState :=
  st.modify r fun ti => { ti with field := f ti.field }

def textInputEnable (st : TextState) (r : Nat) : TextState :=
  st.modify r fun ti => { ti with pendingEnabled := true }

def textInputDisable (st : TextState) (r : Nat) : TextState :=
  st.modify r fun ti => { ti with pendingEnabled := false }

def textInputSetSurroundingText (st : TextState) (r : Nat) (text : List UInt8)
    (cursor anchor : BitVec 32) : TextState :=
  st.modifyField r fun field => { field with surrounding := some text, cursor, anchor }

def textInputSetTextChangeCause (st : TextState) (r : Nat) (changeCause : BitVec 32) : TextState :=
  st.modifyField r fun field => { field with changeCause }

def textInputSetContentType (st : TextState) (r : Nat) (hint purpose : BitVec 32) : TextState :=
  st.modifyField r fun field => { field with contentHint := hint, contentPurpose := purpose }

def textInputSetCursorRectangle (st : TextState) (r : Nat) (rectX rectY rectW rectH : BitVec 32) :
    TextState :=
  st.modifyField r fun field => { field with rectX, rectY, rectW, rectH }

def textInputCommit (st : TextState) (r : Nat) : TextState :=
  (st.modify r fun ti =>
    { ti.tell (.done (ti.serial + 1)) with
      enabled := ti.pendingEnabled, serial := ti.serial + 1 }).announce

def textInputResourceDestroy (st : TextState) (r : Nat) : TextState :=
  { st with textInputs := swapRemove (·.resource = r) st.textInputs }.announce

def textInputManagerGetTextInput (st : TextState) (client r : Nat) : TextState :=
  if maxTextInputs ≤ st.textInputs.length then st
  else
    let ti : TextInput := { resource := r, client }
    let ti := match st.kbdFocus with
      | some s => if st.clientOf s = client then ti.enterSurface s else ti
      | none => ti
    { st with textInputs := st.textInputs ++ [ti] }

/-- The host's keyboard enters text into the field with the keyboard focus. -/
def textInputCommitText (st : TextState) (text : List UInt8) : TextState :=
  match st.textInputForFocus with
  | some field =>
    if text = [] then st
    else
      st.modify field.resource fun ti => (ti.tell (.commitString text)).tell (.done ti.serial)
  | none => st

def inputMethodManagerGetInputMethod (st : TextState) (r : Nat) : TextState :=
  -- A further one is told that it is unavailable, and nothing else ever.
  if st.inputMethod.isSome then st
  else { st with inputMethod := some { resource := r } }.inputMethodUpdateActive

def inputMethodResourceDestroy (st : TextState) (r : Nat) : TextState :=
  { st with inputMethod := st.inputMethod.filter fun im => im.resource ≠ r }

def modifyMethod (st : TextState) (r : Nat) (f : InputMethod → InputMethod) : TextState :=
  { st with inputMethod := st.inputMethod.map fun im => if im.resource = r then f im else im }

def inputMethodCommitString (st : TextState) (r : Nat) (text : List UInt8) : TextState :=
  st.modifyMethod r fun im => { im with pending := { im.pending with commitText := some text } }

def inputMethodSetPreeditString (st : TextState) (r : Nat) (text : List UInt8)
    (first last : BitVec 32) : TextState :=
  st.modifyMethod r fun im => { im with
    pending := { im.pending with
      preeditText := some text, preeditBegin := first, preeditEnd := last } }

def inputMethodDeleteSurroundingText (st : TextState) (r : Nat) (before after : BitVec 32) :
    TextState :=
  st.modifyMethod r fun im => { im with
    pending := { im.pending with deleteBefore := before, deleteAfter := after } }

def inputMethodCommit (st : TextState) (r : Nat) (serial : BitVec 32) : TextState :=
  let st' := st.modifyMethod r InputMethod.clearPending
  match st.inputMethod, st.textInputForFocus with
  | some im, some field =>
    if im.resource = r ∧ im.active = true ∧ serial = im.doneCount then
      st'.modify field.resource fun ti =>
        (PendingText.events im.pending ti.serial).foldl TextInput.tell ti
    else st'
  | _, _ => st'

def inputMethodGetPopupSurface (st : TextState) (r popup : Nat) : TextState :=
  st.modifyMethod r fun im =>
    if maxInputPopups ≤ im.popups.length then im else { im with popups := im.popups ++ [popup] }

def inputPopupResourceDestroy (st : TextState) (r popup : Nat) : TextState :=
  st.modifyMethod r fun im => { im with popups := swapRemove (· = popup) im.popups }

/-- A proxy of another input method pushes its traits. -/
def improxyTraits (st : TextState) (traits : Traits) : TextState :=
  { st with improxy := some traits }.inputClientsSendTraits

def improxyGone (st : TextState) : TextState :=
  if st.improxy.isSome then { st with improxy := none }.inputClientsSendTraits else st

def createSurface (st : TextState) (s client : Nat) : TextState :=
  { st with clientOf := Function.update st.clientOf s client }

/-- What can happen to the text inputs. -/
inductive Event where
  | createSurface (s client : Nat)
  -- The keyboard focus moves.
  | focus (s : Option Nat)
  -- A text input is created, used and destroyed.
  | getTextInput (client r : Nat)
  | enable (r : Nat)
  | disable (r : Nat)
  | setSurroundingText (r : Nat) (text : List UInt8) (cursor anchor : BitVec 32)
  | setTextChangeCause (r : Nat) (cause : BitVec 32)
  | setContentType (r : Nat) (hint purpose : BitVec 32)
  | setCursorRectangle (r : Nat) (x y w h : BitVec 32)
  | commit (r : Nat)
  | textInputDestroyed (r : Nat)
  -- Text comes from the keyboard of the host.
  | text (text : List UInt8)
  -- An input method is created, used and destroyed.
  | getInputMethod (r : Nat)
  | commitString (r : Nat) (text : List UInt8)
  | setPreeditString (r : Nat) (text : List UInt8) (first last : BitVec 32)
  | deleteSurroundingText (r : Nat) (before after : BitVec 32)
  | commitMethod (r : Nat) (serial : BitVec 32)
  | getPopupSurface (r popup : Nat)
  | popupDestroyed (r popup : Nat)
  | inputMethodDestroyed (r : Nat)
  -- A proxy pushes traits or goes away.
  | proxyTraits (traits : Traits)
  | proxyGone
  | hostConnected

def next (st : TextState) : Event → TextState
  | .createSurface s client => st.createSurface s client
  | .focus s => st.keyboardSetFocus s
  | .getTextInput client r => st.textInputManagerGetTextInput client r
  | .enable r => st.textInputEnable r
  | .disable r => st.textInputDisable r
  | .setSurroundingText r text cursor anchor =>
    st.textInputSetSurroundingText r text cursor anchor
  | .setTextChangeCause r cause => st.textInputSetTextChangeCause r cause
  | .setContentType r hint purpose => st.textInputSetContentType r hint purpose
  | .setCursorRectangle r x y w h => st.textInputSetCursorRectangle r x y w h
  | .commit r => st.textInputCommit r
  | .textInputDestroyed r => st.textInputResourceDestroy r
  | .text text => st.textInputCommitText text
  | .getInputMethod r => st.inputMethodManagerGetInputMethod r
  | .commitString r text => st.inputMethodCommitString r text
  | .setPreeditString r text first last => st.inputMethodSetPreeditString r text first last
  | .deleteSurroundingText r before after => st.inputMethodDeleteSurroundingText r before after
  | .commitMethod r serial => st.inputMethodCommit r serial
  | .getPopupSurface r popup => st.inputMethodGetPopupSurface r popup
  | .popupDestroyed r popup => st.inputPopupResourceDestroy r popup
  | .inputMethodDestroyed r => st.inputMethodResourceDestroy r
  | .proxyTraits traits => st.improxyTraits traits
  | .proxyGone => st.improxyGone
  | .hostConnected => st.inputClientsSendTraits

/-- A surface is created where there is none, which the focus has left before. -/
def Allowed (st : TextState) : Event → Prop
  | .createSurface s _ => st.kbdFocus ≠ some s
  | _ => True

instance decidableAllowed (st : TextState) (event : Event) : Decidable (st.Allowed event) := by
  unfold Allowed
  induction event using Event.casesOn <;> infer_instance

/-- All histories of the text inputs, from the start of the compositor on. -/
def machine : Machine TextState Event where
  start st := st = {}
  enabled := Allowed
  next := next

instance (st : TextState) (event : Event) : Decidable (machine.enabled st event) :=
  inferInstanceAs (Decidable (st.Allowed event))

end TextState

end Xios
