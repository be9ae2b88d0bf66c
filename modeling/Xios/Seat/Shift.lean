import Xios.Lib.Machine

/-! Keys passed on to the focused client by `iosc.c`, with the Shift key that shifted symbols
need. -/

namespace Xios

/-- Where a symbol is on the keyboard. -/
structure KeymapEntry where
  -- The code of its key.
  evdev : Nat
  -- The symbol is on the shifted level of the key.
  shift : Bool
  deriving DecidableEq

/-- The bits that stand for modifiers in the keymap. -/
structure ModMasks where
  shift : BitVec 32
  ctrl : BitVec 32
  alt : BitVec 32
  super : BitVec 32
  caps : BitVec 32
  num : BitVec 32
  deriving DecidableEq

/-- The keyboard as it was set up. -/
structure Keymap where
  -- The place of a symbol, if the keyboard has the symbol.
  lookup : Nat → Option KeymapEntry
  mods : ModMasks

/-- A key record. -/
structure KeyRecord where
  keysym : Nat
  -- Not zero for a press.
  state : BitVec 32
  -- Modifiers held by the user.
  appmods : BitVec 32
  deriving DecidableEq

/-- Records about keys, and what the focused client is sent. -/
inductive KeyTrace where
  | record (record : KeyRecord)
  -- Modifiers held down and locked.
  | mods (depressed locked : BitVec 32)
  -- A key of the user goes down or up.
  | key (evdev : Nat) (pressed : Bool)
  -- The left Shift key goes down or up without the user.
  | shift (pressed : Bool)
  deriving DecidableEq

/-- The keyboard focus and what the focused client was told. -/
structure FocusedKeyboard where
  -- The surface with the keyboard.
  kbdFocus : Option Nat := none
  -- An input method has grabbed the keyboard.
  grabbed : Bool := false
  -- The modifiers sent last.
  modsDepressed : BitVec 32 := 0#32
  modsLocked : BitVec 32 := 0#32
  -- All records and all that was sent, newest first and for reference only.
  log : List KeyTrace := []

namespace FocusedKeyboard

/-- Tell the focused client about modifiers that have changed. -/
def keyboardSendMods (k : FocusedKeyboard) (depressed locked : BitVec 32) : FocusedKeyboard :=
  if k.kbdFocus = none ∨ (depressed = k.modsDepressed ∧ locked = k.modsLocked) then k
  else
    { k with
      modsDepressed := depressed
      modsLocked := locked
      log := .mods depressed locked :: k.log }

def keyboardSendRawKey (k : FocusedKeyboard) (evdev : Nat) (pressed : Bool) : FocusedKeyboard :=
  if k.kbdFocus = none then k else { k with log := .key evdev pressed :: k.log }

def keyboardSendShift (k : FocusedKeyboard) (pressed : Bool) : FocusedKeyboard :=
  if k.kbdFocus = none then k else { k with log := .shift pressed :: k.log }

end FocusedKeyboard

/-- The modifiers of the keymap for those held by the user. -/
def keyboardMasksFromApp (m : ModMasks) (appmods : BitVec 32) (needsShift : Bool) :
    BitVec 32 × BitVec 32 :=
  let on (bit : Nat) (mask : BitVec 32) : BitVec 32 := if appmods.getLsbD bit then mask else 0#32
  ((if needsShift ∨ appmods.getLsbD 0 then m.shift else 0#32) ||| on 1 m.ctrl ||| on 2 m.alt |||
      on 3 m.super,
    on 4 m.caps ||| on 5 m.num)

namespace FocusedKeyboard

variable (keymap : Keymap)

def handleKey (k : FocusedKeyboard) (record : KeyRecord) : FocusedKeyboard :=
  if k.kbdFocus = none then k
  else
    match keymap.lookup record.keysym with
    | none => k
    | some entry =>
      let pressed : Bool := record.state ≠ 0#32
      let masks := keyboardMasksFromApp keymap.mods record.appmods (pressed && entry.shift)
      -- An input method that has grabbed the keyboard gets the key instead.
      if k.grabbed then k
      else if pressed then
        let k := k.keyboardSendMods masks.1 masks.2
        let k := if entry.shift then k.keyboardSendShift true else k
        k.keyboardSendRawKey entry.evdev true
      else
        let k := k.keyboardSendRawKey entry.evdev false
        let k := if entry.shift then k.keyboardSendShift false else k
        k.keyboardSendMods masks.1 masks.2

def next (k : FocusedKeyboard) (record : KeyRecord) : FocusedKeyboard :=
  handleKey keymap { k with log := .record record :: k.log } record

/-- A client has the keyboard, no input method has grabbed it, and no key has been used yet. -/
structure Focused (k : FocusedKeyboard) : Prop where
  focus : k.kbdFocus.isSome
  grabbed : k.grabbed = false
  log : k.log = []

/-- The keys of the user while one client has the keyboard. -/
def machine : Machine FocusedKeyboard KeyRecord where
  start := Focused
  enabled _ _ := True
  next := next keymap

end FocusedKeyboard

/-- Keys after a record about one of them, each with whether its newest press needs Shift. -/
def KeyRecord.note (keymap : Keymap) (record : KeyRecord) (held : List KeymapEntry) :
    List KeymapEntry :=
  match keymap.lookup record.keysym with
  | none => held
  | some entry =>
    let others := held.filter fun other => other.evdev ≠ entry.evdev
    if record.state ≠ 0#32 then entry :: others else others

/-- Keys that have been pressed and not released since, each with its newest press. -/
def heldKeys (keymap : Keymap) : List KeyTrace → List KeymapEntry
  | [] => []
  | .record record :: earlier => record.note keymap (heldKeys keymap earlier)
  | _ :: earlier => heldKeys keymap earlier

/-- How often the Shift key went down or up without the user. -/
def shiftCount (pressed : Bool) (log : List KeyTrace) : Nat :=
  log.count (.shift pressed)

/-- Whenever the Shift key went up without the user, no key was held that needed it. -/
def ShiftKept (keymap : Keymap) : List KeyTrace → Prop
  | [] => True
  | .shift false :: earlier =>
    (∀ entry ∈ heldKeys keymap earlier, entry.shift = false) ∧ ShiftKept keymap earlier
  | _ :: earlier => ShiftKept keymap earlier

/-- Once all keys are released, the Shift key went down as often as it went up. -/
def ShiftBalanced (keymap : Keymap) (log : List KeyTrace) : Prop :=
  heldKeys keymap log = [] → shiftCount true log = shiftCount false log

/-- A record agrees with the keys that are held on when Shift is needed. -/
def KeyRecord.Agrees (keymap : Keymap) (held : List KeymapEntry) (record : KeyRecord) : Prop :=
  ∀ entry, keymap.lookup record.keysym = some entry →
    if record.state ≠ 0#32 then
      -- A key that is held and needs Shift is not pressed again.
      ∀ other ∈ held, other.evdev = entry.evdev → other.shift = false
    else
      -- The symbol of a release needs Shift exactly if that of the newest press did,
      (entry.shift = true ↔ ∃ other ∈ held, other.evdev = entry.evdev ∧ other.shift = true) ∧
        -- and then no other key does.
        (entry.shift = true → ∀ other ∈ held, other.evdev ≠ entry.evdev → other.shift = false)
  deriving Decidable

end Xios
