import Mathlib.Data.List.Nodup
import Xios.Seat.Held

/-! What a client of the input socket holds is released once when it goes away. -/

namespace Xios

section

variable {α κ : Type} {key : α → κ}

theorem keys_sweep (key : α → κ) (gone : κ → Bool) (entries : List α) :
    ((SwapTable.sweep (fun a => gone (key a)) entries 0).2.map key).Perm
      ((entries.map key).filter fun k => !gone k) := by
  rw [List.filter_map]
  exact (SwapTable.sweep_perm _ entries).2.map key

variable [DecidableEq κ]

theorem keys_swapRemove (k : κ) (entries : List α) :
    ((swapRemove (fun a => decide (key a = k)) entries).map key).Perm
      ((entries.map key).erase k) := by
  have same : (entries.map key).erase k =
      (entries.eraseP fun a => decide (key a = k)).map key := by
    rw [List.erase_eq_eraseP', List.eraseP_map]
    rfl
  rw [same]
  exact (swapRemove_perm _ entries).map key

/--
A key that goes down is there once, and one that goes up is not there.

Its entry may be changed, removed or added, and the other keys stay.
-/
theorem keys_note {entries entries' : List α} {k : κ} {down : Bool}
    (once : (entries.map key).Nodup)
    (present : k ∈ entries.map key → (entries'.map key).Perm
      (if down then entries.map key else (entries.map key).erase k))
    (absent : k ∉ entries.map key → entries'.map key =
      entries.map key ++ if down then [k] else []) :
    (entries'.map key).Nodup ∧
      ∀ k', k' ∈ entries'.map key ↔ if k' = k then down = true else k' ∈ entries.map key := by
  by_cases there : k ∈ entries.map key
  · have perm := present there
    cases down with
    | true =>
      rw [if_pos rfl] at perm
      refine ⟨perm.nodup_iff.mpr once, fun k' => ?_⟩
      rw [perm.mem_iff]
      split
      · rename_i same
        exact iff_of_true (same ▸ there) rfl
      · exact Iff.rfl
    | false =>
      rw [if_neg Bool.false_ne_true] at perm
      refine ⟨perm.nodup_iff.mpr (once.erase k), fun k' => ?_⟩
      rw [perm.mem_iff, once.mem_erase_iff]
      split
      · rename_i same
        simp [same]
      · rename_i other
        simp [other]
  · have same := absent there
    cases down with
    | true =>
      rw [if_pos rfl] at same
      rw [same]
      refine ⟨?_, fun k' => ?_⟩
      · rw [(List.perm_append_singleton k _).nodup_iff]
        exact List.nodup_cons.mpr ⟨there, once⟩
      · by_cases here : k' = k <;> simp [here]
    | false =>
      rw [if_neg Bool.false_ne_true, List.append_nil] at same
      rw [same]
      refine ⟨once, fun k' => ?_⟩
      by_cases here : k' = k
      · rw [if_pos here, here]
        exact iff_of_false there Bool.false_ne_true
      · rw [if_neg here]

end

theorem countP_sweep {α κ : Type} [DecidableEq κ] (key : α → κ) {gone counted : α → Bool}
    {entries : List α} {k : κ} (once : (entries.map key).Nodup) (member : k ∈ entries.map key)
    (same : ∀ a ∈ entries, (counted a && gone a) = true ↔ key a = k) :
    (SwapTable.sweep gone entries 0).1.countP counted = 1 :=
  calc
    (SwapTable.sweep gone entries 0).1.countP counted
      = (entries.filter gone).countP counted := (SwapTable.sweep_perm gone entries).1.countP_eq _
    _ = entries.countP fun a => key a == k := by
        rw [List.countP_filter]
        exact List.countP_congr fun a member => (same a member).trans beq_iff_eq.symm
    _ = (entries.map key).count k := by
        rw [List.count, List.countP_map]
        rfl
    _ = 1 := List.nodup_iff_count_eq_one.mp once k member

def HeldButton.key (held : HeldButton) : Nat × Nat :=
  (held.client, held.code)

def HeldKey.key (held : HeldKey) : Nat × Nat :=
  (held.client, held.evdev)

theorem le_wireButtonCode (btn : Int) : btnLeft ≤ wireButtonCode btn := by
  unfold wireButtonCode
  split
  · decide
  · split
    · decide
    · split
      · omega
      · exact Nat.le_refl _

theorem wireButtonCode_eq {code : Nat} (button : btnLeft ≤ code) : wireButtonCode code = code := by
  have large : 3 < (code : Int) := by
    have : 3 < btnLeft := by decide
    omega
  unfold wireButtonCode
  rw [if_neg (by omega), if_neg (by omega), if_pos (by omega)]
  rfl

namespace HeldInput

variable {s : HeldInput} {trace : List HeldEvent}
/-- The noted buttons are those that are held. -/
structure ButtonsKept (trace : List HeldEvent) (buttons : List HeldButton) : Prop where
  held : ∀ client code,
    (client, code) ∈ buttons.map HeldButton.key ↔ holdsButton client code trace = true
  -- Each is noted once, with the code of a button.
  once : (buttons.map HeldButton.key).Nodup
  codes : ∀ held ∈ buttons, btnLeft ≤ held.code

/-- The noted keys are those that are held. -/
structure KeysKept (keymap : Nat → Option Nat) (trace : List HeldEvent) (keys : List HeldKey) :
    Prop where
  held : ∀ client evdev,
    (client, evdev) ∈ keys.map HeldKey.key ↔ holdsKey keymap client evdev trace = true
  -- Each is noted once, with a symbol of the key.
  once : (keys.map HeldKey.key).Nodup
  symbols : ∀ held ∈ keys, keymap held.keysym = some held.evdev

/-- Touch points and strokes are released for those who started them. -/
structure OwnersKept (s : HeldInput) : Prop where
  touch : ∀ i, (s.touchPoints i).active = true →
    (s.touchPoints i).startedBy = (s.touchPoints i).inputClient
  -- Active touch points have different numbers.
  apart : ∀ i j, (s.touchPoints i).active = true → (s.touchPoints j).active = true →
    (s.touchPoints i).id = (s.touchPoints j).id → i = j
  pen : s.penFocus.isSome = true → s.penStartedBy = s.penClient

/-- There is room to note that a button goes down. -/
def ButtonFits (s : HeldInput) (client : Nat) (btn : Int) : Prop :=
  ⟨client, wireButtonCode btn⟩ ∈ s.heldButtons ∨ s.heldButtons.length < maxHeldButtons

/-- There is room to note that a key goes down. -/
def KeyFits (keymap : Nat → Option Nat) (s : HeldInput) (client keysym : Nat) : Prop :=
  ∀ evdev, keymap keysym = some evdev →
    (∃ held ∈ s.heldKeys, held.client = client ∧ held.evdev = evdev) ∨
      s.heldKeys.length < maxHeldKeys

/-- A noted button is held by the client that pressed it, and by no other. -/
theorem ButtonsKept.note (kept : ButtonsKept trace s.heldButtons) (client : Nat) (btn : Int)
    (state : Nat) (fits : state ≠ 0 → s.ButtonFits client btn) :
    ButtonsKept (.button client btn state :: trace)
      (s.heldButtonNote client btn (state ≠ 0)).heldButtons := by
  have same : (fun held : HeldButton => decide (held.client = client ∧
      held.code = wireButtonCode btn)) =
      fun held => decide (held.key = (client, wireButtonCode btn)) := by
    funext held
    simp [HeldButton.key]
  have there : (s.heldButtons.any fun held => decide (held.key = (client, wireButtonCode btn))) =
      true ↔ (client, wireButtonCode btn) ∈ s.heldButtons.map HeldButton.key := by
    rw [List.any_eq_true, List.mem_map]
    simp
  -- A button that is not noted yet has room if it goes down.
  have room : state ≠ 0 → (client, wireButtonCode btn) ∉ s.heldButtons.map HeldButton.key →
      s.heldButtons.length < maxHeldButtons := by
    intro down absent
    refine (fits down).resolve_left fun member => absent ?_
    exact List.mem_map_of_mem (f := HeldButton.key) member
  obtain ⟨once, held⟩ : ((s.heldButtonNote client btn (state ≠ 0)).heldButtons.map
      HeldButton.key).Nodup ∧ ∀ k, k ∈ (s.heldButtonNote client btn (state ≠ 0)).heldButtons.map
      HeldButton.key ↔ if k = (client, wireButtonCode btn) then decide (state ≠ 0) = true
        else k ∈ s.heldButtons.map HeldButton.key := by
    refine keys_note kept.once ?_ ?_
    · intro present
      unfold heldButtonNote
      simp only [same, there.mpr present, if_true]
      by_cases down : state ≠ 0
      · simp [down]
      · simp only [down, decide_false, Bool.false_eq_true, if_false]
        exact keys_swapRemove _ _
    · intro absent
      unfold heldButtonNote
      simp only [same, mt there.mp absent]
      by_cases down : state ≠ 0
      · simp [down, room down absent, HeldButton.key]
      · simp [down]
  refine ⟨fun client' code => ?_, once, ?_⟩
  · rw [held, kept.held, holdsButton]
    by_cases here : client = client' ∧ wireButtonCode btn = code
    · rw [if_pos here, if_pos (by rw [here.1, here.2])]
    · rw [if_neg here, if_neg fun equal => here ?_]
      rw [Prod.mk.injEq] at equal
      exact ⟨equal.1.symm, equal.2.symm⟩
  · unfold heldButtonNote
    dsimp only
    split
    · split
      · exact kept.codes
      · exact fun held member => kept.codes held (mem_of_swapRemove member)
    · split
      · intro held member
        obtain earlier | new := List.mem_append.mp member
        · exact kept.codes held earlier
        · rw [List.mem_singleton.mp new]
          exact le_wireButtonCode btn
      · exact kept.codes

/-- A noted key is held by the client that pressed it, and by no other. -/
theorem KeysKept.note {keymap : Nat → Option Nat} (kept : KeysKept keymap trace s.heldKeys)
    (client keysym state mods : Nat) (fits : state ≠ 0 → s.KeyFits keymap client keysym) :
    KeysKept keymap (.key client keysym state mods :: trace)
      (s.heldKeyNote keymap client keysym (state ≠ 0)).heldKeys := by
  cases mapped : keymap keysym with
  | none =>
    -- A symbol that no key has is not noted.
    have unchanged : s.heldKeyNote keymap client keysym (state ≠ 0) = s := by
      simp [heldKeyNote, mapped]
    rw [unchanged]
    refine ⟨fun client' evdev => ?_, kept.once, kept.symbols⟩
    rw [kept.held, holdsKey, if_neg (by simp [mapped])]
  | some evdev =>
    have same : (fun held : HeldKey => decide (held.client = client ∧ held.evdev = evdev)) =
        fun held => decide (held.key = (client, evdev)) := by
      funext held
      simp [HeldKey.key]
    have there : (s.heldKeys.any fun held => decide (held.key = (client, evdev))) = true ↔
        (client, evdev) ∈ s.heldKeys.map HeldKey.key := by
      rw [List.any_eq_true, List.mem_map]
      simp
    -- A key that is not noted yet has room if it goes down.
    have room : state ≠ 0 → (client, evdev) ∉ s.heldKeys.map HeldKey.key →
        s.heldKeys.length < maxHeldKeys := by
      intro down absent
      refine (fits down evdev mapped).resolve_left ?_
      rintro ⟨held, member, rfl, rfl⟩
      exact absent (List.mem_map_of_mem (f := HeldKey.key) member)
    -- A key that is pressed again is noted with the new symbol.
    have pressed : (s.heldKeys.modify
        (s.heldKeys.findIdx fun held => decide (held.key = (client, evdev)))
          fun held => { held with keysym }) =
        s.heldKeys.map fun held =>
          if held.key = (client, evdev) then { held with keysym } else held := by
      rw [modify_findIdx_eq_map]
      · simp
      · have single := kept.once
        unfold List.Nodup at single
        rw [List.pairwise_map] at single
        refine single.imp fun differ both => differ ?_
        simp only [decide_eq_true_eq] at both
        exact both.1.trans both.2.symm
    obtain ⟨once, held⟩ : ((s.heldKeyNote keymap client keysym (state ≠ 0)).heldKeys.map
        HeldKey.key).Nodup ∧ ∀ k, k ∈ (s.heldKeyNote keymap client keysym
        (state ≠ 0)).heldKeys.map HeldKey.key ↔ if k = (client, evdev) then
          decide (state ≠ 0) = true else k ∈ s.heldKeys.map HeldKey.key := by
      refine keys_note kept.once ?_ ?_
      · intro present
        unfold heldKeyNote
        simp only [mapped, same, there.mpr present, if_true]
        by_cases down : state ≠ 0
        · simp only [decide_eq_true down, if_true, pressed, List.map_map]
          refine .of_eq (List.map_congr_left fun held _ => ?_)
          simp only [Function.comp_apply]
          split <;> rfl
        · simp only [down, decide_false, Bool.false_eq_true, if_false]
          exact keys_swapRemove _ _
      · intro absent
        unfold heldKeyNote
        simp only [mapped, same, mt there.mp absent]
        by_cases down : state ≠ 0
        · simp [down, room down absent, HeldKey.key]
        · simp [down]
    refine ⟨fun client' evdev' => ?_, once, ?_⟩
    · rw [held, kept.held, holdsKey, mapped]
      by_cases here : client = client' ∧ evdev = evdev'
      · rw [if_pos (by simp [here.1, here.2]), if_pos (by simp [here.1, here.2])]
      · rw [if_neg (by simpa [eq_comm] using here), if_neg (by simpa using here)]
    · unfold heldKeyNote
      simp only [mapped, same]
      split
      · split
        · intro held member
          rw [pressed, List.mem_map] at member
          obtain ⟨before, member, rfl⟩ := member
          split
          · rename_i here
            have code : before.evdev = evdev := congrArg Prod.snd here
            rw [code]
            exact mapped
          · exact kept.symbols before member
        · exact fun held member => kept.symbols held (mem_of_swapRemove member)
      · split
        · intro held member
          obtain earlier | new := List.mem_append.mp member
          · exact kept.symbols held earlier
          · rw [List.mem_singleton.mp new]
            exact mapped
        · exact kept.symbols

/-- Nothing but touch points changes, of which some may end. -/
structure Ends (s s' : HeldInput) : Prop where
  points : ∀ i, s'.touchPoints i = s.touchPoints i ∨
    s'.touchPoints i = { s.touchPoints i with active := false }
  buttons : s'.heldButtons = s.heldButtons
  keys : s'.heldKeys = s.heldKeys
  calls : s'.calls = s.calls
  pen : s'.penFocus = s.penFocus ∧ s'.penStartedBy = s.penStartedBy ∧ s'.penClient = s.penClient

theorem Ends.refl (s : HeldInput) : Ends s s :=
  ⟨fun _ => Or.inl rfl, rfl, rfl, rfl, rfl, rfl, rfl⟩

theorem Ends.trans {s s' s'' : HeldInput} (first : Ends s s') (second : Ends s' s'') :
    Ends s s'' where
  points i := by
    have before := first.points i
    have after := second.points i
    grind
  buttons := second.buttons.trans first.buttons
  keys := second.keys.trans first.keys
  calls := second.calls.trans first.calls
  pen := ⟨second.pen.1.trans first.pen.1, second.pen.2.1.trans first.pen.2.1,
    second.pen.2.2.trans first.pen.2.2⟩

theorem Ends.active {s s' : HeldInput} (ends : Ends s s') {i : Fin maxTouchPoints}
    (active : (s'.touchPoints i).active = true) : s'.touchPoints i = s.touchPoints i := by
  obtain same | ended := ends.points i
  · exact same
  · rw [ended] at active
    cases active

theorem ends_endPoints (s : HeldInput) (ended : TouchPoint → Bool) : Ends s (s.endPoints ended) := by
  refine ⟨fun i => ?_, rfl, rfl, rfl, rfl, rfl, rfl⟩
  unfold endPoints
  dsimp only
  split
  · exact Or.inr rfl
  · exact Or.inl rfl

theorem ends_setPoint (s : HeldInput) (i : Fin maxTouchPoints) :
    Ends s (s.setPoint i fun point => { point with active := false }) := by
  refine ⟨fun j => ?_, rfl, rfl, rfl, rfl, rfl, rfl⟩
  unfold setPoint
  by_cases here : j = i
  · subst here
    exact Or.inr (Function.update_self ..)
  · exact Or.inl (Function.update_of_ne here ..)

theorem OwnersKept.ends {s s' : HeldInput} (kept : OwnersKept s) (ends : Ends s s') :
    OwnersKept s' where
  touch i active := by
    have same := ends.active active
    rw [same] at active ⊢
    exact kept.touch i active
  apart i j first second equal := by
    have sameI := ends.active first
    have sameJ := ends.active second
    rw [sameI] at first equal
    rw [sameJ] at second equal
    exact kept.apart i j first second equal
  pen := by
    rw [ends.pen.1, ends.pen.2.1, ends.pen.2.2]
    exact kept.pen

theorem OwnersKept.penLeave (kept : OwnersKept s) : OwnersKept s.penLeave :=
  ⟨kept.touch, kept.apart, nofun⟩

section

variable (owner : Nat → Nat)

theorem ends_releasePoint (client : Nat) (s : HeldInput) (i : Fin maxTouchPoints) :
    Ends s (releasePoint owner client s i) := by
  unfold releasePoint
  dsimp only
  split
  · split
    · exact ends_setPoint s i
    · exact ends_endPoints s _
  · exact .refl s

theorem inputClient_releasePoint (client : Nat) (s : HeldInput) (i : Fin maxTouchPoints)
    (active : ((releasePoint owner client s i).touchPoints i).active = true) :
    ((releasePoint owner client s i).touchPoints i).inputClient ≠ client := by
  have same := (ends_releasePoint owner client s i).active active
  intro mine
  have here : (s.touchPoints i).active ∧ (s.touchPoints i).inputClient = client := by
    rw [same] at active mine
    exact ⟨active, mine⟩
  unfold releasePoint at active
  simp only [if_pos here] at active
  cases on : (s.touchPoints i).surface with
  | none =>
    simp [on, setPoint] at active
  | some surface =>
    simp [on, endPoints] at active

theorem foldl_releasePoint (client : Nat) (s : HeldInput) (places : List (Fin maxTouchPoints)) :
    Ends s (places.foldl (releasePoint owner client) s) ∧
      ∀ i ∈ places, ((places.foldl (releasePoint owner client) s).touchPoints i).active = true →
        ((places.foldl (releasePoint owner client) s).touchPoints i).inputClient ≠ client := by
  induction places generalizing s with
  | nil => exact ⟨.refl s, nofun⟩
  | cons i places ih =>
    obtain ⟨ends, released⟩ := ih (releasePoint owner client s i)
    refine ⟨(ends_releasePoint owner client s i).trans ends, fun j member active => ?_⟩
    obtain rfl | later := List.mem_cons.mp member
    · have same := ends.active active
      rw [List.foldl_cons] at active ⊢
      rw [same] at active ⊢
      exact inputClient_releasePoint owner client s j active
    · exact released j later active

end

theorem touchPointById_some {id : Int} {i : Fin maxTouchPoints}
    (found : s.touchPointById id = some i) :
    (s.touchPoints i).active = true ∧ (s.touchPoints i).id = id := by
  have here := List.find?_some found
  simpa using here

theorem touchPointById_none {id : Int} (missing : s.touchPointById id = none)
    {i : Fin maxTouchPoints} (active : (s.touchPoints i).active = true) :
    (s.touchPoints i).id ≠ id := by
  have absent := List.find?_eq_none.mp missing i (List.mem_finRange i)
  simpa [active] using absent

/-- A touch that misses every surface is not mistaken for one of another client. -/
def TouchFits (s : HeldInput) (client : Nat) (id : Int) (hit : Option Nat) : Prop :=
  hit = none → ∀ i, s.touchPointById id = some i → (s.touchPoints i).inputClient = client

theorem touchPoints_setPoint (s : HeldInput) (i j : Fin maxTouchPoints)
    (f : TouchPoint → TouchPoint) :
    (s.setPoint i f).touchPoints j = if j = i then f (s.touchPoints i) else s.touchPoints j := by
  unfold setPoint
  dsimp only
  by_cases here : j = i
  · subst here
    rw [Function.update_self, if_pos rfl]
  · rw [Function.update_of_ne here, if_neg here]

theorem OwnersKept.elsewhere (kept : OwnersKept s) {id : Int} {free : Option (Fin maxTouchPoints)}
    {i j : Fin maxTouchPoints} (chosen : (s.touchPointById id).or free = some i) (other : j ≠ i)
    (active : (s.touchPoints j).active = true) : (s.touchPoints j).id ≠ id := by
  intro same
  cases found : s.touchPointById id with
  | none => exact touchPointById_none found active same
  | some k =>
    rw [found, Option.some_or, Option.some.injEq] at chosen
    subst chosen
    have there := touchPointById_some found
    exact other (kept.apart j k active there.1 (same.trans there.2.symm))

theorem OwnersKept.setInputClient {i : Fin maxTouchPoints} {client : Nat}
    (apart : ∀ i j, (s.touchPoints i).active = true → (s.touchPoints j).active = true →
      (s.touchPoints i).id = (s.touchPoints j).id → i = j)
    (pen : s.penFocus.isSome = true → s.penStartedBy = s.penClient)
    (mine : (s.touchPoints i).startedBy = client)
    (others : ∀ j, j ≠ i → (s.touchPoints j).active = true →
      (s.touchPoints j).startedBy = (s.touchPoints j).inputClient) :
    OwnersKept (s.setPoint i fun point => { point with inputClient := client }) := by
  refine ⟨fun j active => ?_, fun j k first second equal => ?_, pen⟩
  · rw [touchPoints_setPoint] at active ⊢
    split
    · exact mine
    · rename_i other
      rw [if_neg other] at active
      exact others j other active
  · rw [touchPoints_setPoint] at first second equal
    rw [touchPoints_setPoint] at equal
    refine apart j k ?_ ?_ ?_ <;> grind

theorem OwnersKept.touchDown (kept : OwnersKept s) (client : Nat) (id : Int) (hit : Nat) :
    OwnersKept (match (s.touchDown client id hit).touchPointById id with
      | none => s.touchDown client id hit
      | some i => (s.touchDown client id hit).setPoint i fun point =>
        { point with inputClient := client }) := by
  unfold HeldInput.touchDown
  dsimp only
  generalize (List.finRange maxTouchPoints).find? (fun i => !(s.touchPoints i).active) = free
  cases chosen : (s.touchPointById id).or free with
  | none =>
    -- All places are taken by touch points with other numbers.
    rw [(Option.or_eq_none_iff.mp chosen).1]
    exact kept
  | some i =>
    generalize start : (fun point : TouchPoint =>
      { point with active := true, id := id, surface := some hit, startedBy := client }) = f
    have begun : (f (s.touchPoints i)).active = true ∧ (f (s.touchPoints i)).id = id ∧
        (f (s.touchPoints i)).startedBy = client := by
      subst start
      exact ⟨rfl, rfl, rfl⟩
    have located : (s.setPoint i f).touchPointById id = some i := by
      cases found : (s.setPoint i f).touchPointById id with
      | none =>
        have here : ((s.setPoint i f).touchPoints i) = f (s.touchPoints i) := by
          rw [touchPoints_setPoint, if_pos rfl]
        have other := touchPointById_none found (i := i) (by rw [here]; exact begun.1)
        rw [here] at other
        exact absurd begun.2.1 other
      | some j =>
        have there := touchPointById_some found
        by_cases same : j = i
        · rw [same]
        · rw [touchPoints_setPoint, if_neg same] at there
          exact absurd there.2 (kept.elsewhere chosen same there.1)
    rw [located]
    refine .setInputClient (fun j k first second equal => ?_) kept.pen ?_ fun j other active => ?_
    · rw [touchPoints_setPoint] at first second equal
      rw [touchPoints_setPoint] at equal
      have away := fun k other => kept.elsewhere (j := k) chosen other
      have apart := kept.apart j k
      grind
    · rw [touchPoints_setPoint, if_pos rfl]
      exact begun.2.2
    · rw [touchPoints_setPoint, if_neg other] at active ⊢
      exact kept.touch j active

/-- A finger is released for the client whose record put it down. -/
theorem OwnersKept.touchRecord (kept : OwnersKept s) (owner : Nat → Nat) (keymap : Nat → Option Nat)
    (client : Nat) (id : Int) (phase : TouchPhase) (hit : Option Nat)
    (fits : phase = .down → s.TouchFits client id hit) :
    OwnersKept (s.next owner keymap (.touch client id phase hit)) := by
  cases phase with
  | up =>
    change OwnersKept (s.handleTouch client id .up hit)
    unfold handleTouch
    dsimp only
    split
    · exact kept
    · split
      · exact kept
      · exact kept.ends (ends_setPoint s _)
  | motion => exact kept
  | cancel =>
    change OwnersKept s.touchCancelAll
    exact kept.ends (ends_endPoints s _)
  | unknown => exact kept
  | down =>
    unfold next
    simp only [if_true]
    cases hit with
    | none =>
      -- The record may name a touch point, which then belongs to the client already.
      change OwnersKept (match s.touchPointById id with
        | none => s
        | some i => s.setPoint i fun point => { point with inputClient := client })
      split
      · exact kept
      · rename_i i found
        have mine := kept.touch i (touchPointById_some found).1
        rw [fits rfl rfl i found] at mine
        exact .setInputClient kept.apart kept.pen mine fun j _ => kept.touch j
    | some hit =>
      change OwnersKept (match (s.touchDown client id hit).touchPointById id with
        | none => s.touchDown client id hit
        | some i => (s.touchDown client id hit).setPoint i fun point =>
          { point with inputClient := client })
      exact kept.touchDown client id hit

theorem heldButtonNote_eq (s : HeldInput) (client : Nat) (btn : Int) (down : Bool) :
    s.heldButtonNote client btn down =
      { s with heldButtons := (s.heldButtonNote client btn down).heldButtons } := by
  unfold heldButtonNote
  dsimp only
  split
  · split <;> rfl
  · split <;> rfl

theorem heldKeyNote_eq (keymap : Nat → Option Nat) (s : HeldInput) (client keysym : Nat)
    (down : Bool) : s.heldKeyNote keymap client keysym down =
      { s with heldKeys := (s.heldKeyNote keymap client keysym down).heldKeys } := by
  unfold heldKeyNote
  split
  · rfl
  · dsimp only
    split
    · split <;> rfl
    · split <;> rfl

theorem typeText_eq (s : HeldInput) (text : List Nat) :
    s.typeText text = { s with calls := (s.typeText text).calls } := by
  unfold typeText
  induction text generalizing s with
  | nil => rfl
  | cons c text ih =>
    rw [List.foldl_cons]
    split
    · exact ih _
    · exact ih s

theorem tables_touch (s : HeldInput) (owner : Nat → Nat) (keymap : Nat → Option Nat) (client : Nat)
    (id : Int) (phase : TouchPhase) (hit : Option Nat) :
    (s.next owner keymap (.touch client id phase hit)).heldButtons = s.heldButtons ∧
      (s.next owner keymap (.touch client id phase hit)).heldKeys = s.heldKeys := by
  have handled : (s.handleTouch client id phase hit).heldButtons = s.heldButtons ∧
      (s.handleTouch client id phase hit).heldKeys = s.heldKeys := by
    cases phase <;> cases hit <;>
      grind [handleTouch, HeldInput.touchDown, setPoint, endPoints, touchCancelAll]
  unfold next
  dsimp only
  split
  · split
    · exact handled
    · exact handled
  · exact handled

theorem OwnersKept.tabletRecord (kept : OwnersKept s) (owner : Nat → Nat)
    (keymap : Nat → Option Nat) (client : Nat) (phase : TouchPhase) (hit : Option Nat) :
    OwnersKept (s.next owner keymap (.tablet client phase hit)) ∧
      (s.next owner keymap (.tablet client phase hit)).heldButtons = s.heldButtons ∧
      (s.next owner keymap (.tablet client phase hit)).heldKeys = s.heldKeys := by
  obtain ⟨touch, apart, pen⟩ := kept
  cases phase with
  | up => exact ⟨⟨touch, apart, nofun⟩, rfl, rfl⟩
  | motion => exact ⟨⟨touch, apart, pen⟩, rfl, rfl⟩
  | cancel => exact ⟨⟨touch, apart, nofun⟩, rfl, rfl⟩
  | unknown => exact ⟨⟨touch, apart, pen⟩, rfl, rfl⟩
  | down =>
    change OwnersKept { (s.handlePencil client .down hit) with penClient := client } ∧
      (s.handlePencil client .down hit).heldButtons = s.heldButtons ∧
      (s.handlePencil client .down hit).heldKeys = s.heldKeys
    unfold handlePencil
    -- A stroke elsewhere ends first.
    have before : ∃ s', s' = (if hit = s.penFocus then s else s.penLeave) ∧
        s'.touchPoints = s.touchPoints ∧ s'.heldButtons = s.heldButtons ∧
        s'.heldKeys = s.heldKeys ∧ (hit = none → s'.penFocus = none) := by
      refine ⟨_, rfl, ?_⟩
      split
      · rename_i same
        exact ⟨rfl, rfl, rfl, fun missed => same.symm.trans missed⟩
      · exact ⟨rfl, rfl, rfl, fun _ => rfl⟩
    obtain ⟨s', same, points, buttons, keys, ended⟩ := before
    rw [← same]
    rw [← points] at touch apart
    cases hit with
    | none =>
      refine ⟨⟨touch, apart, ?_⟩, buttons, keys⟩
      intro begun
      change s'.penFocus.isSome = true at begun
      rw [ended rfl] at begun
      cases begun
    | some hit => exact ⟨⟨touch, apart, fun _ => rfl⟩, buttons, keys⟩

/-- What is left when a client has gone away. -/
structure Left (s s' : HeldInput) (client locked : Nat) : Prop where
  buttons : s'.heldButtons = (s.takeButtons client).2
  keys : s'.heldKeys = (s.takeKeys client).2
  calls : s'.calls = s.calls ++ s.releases client locked
  -- Some touch points end, among them those that were released for the client.
  points : ∀ i, (s'.touchPoints i).active = true →
    s'.touchPoints i = s.touchPoints i ∧ (s'.touchPoints i).inputClient ≠ client
  -- A stroke that was released for the client ends.
  pen : s'.penFocus.isSome = true → s'.penStartedBy = s.penStartedBy ∧
    s'.penClient = s.penClient ∧ s.penFocus.isSome = true ∧ s.penClient ≠ client

theorem left_inputClientDropped (s : HeldInput) (owner : Nat → Nat) (client locked : Nat) :
    Left s (s.inputClientDropped owner client locked) client locked := by
  unfold inputClientDropped
  dsimp only
  obtain ⟨ends, released⟩ :=
    foldl_releasePoint owner client (s.releaseHeld client locked) (List.finRange maxTouchPoints)
  generalize (List.finRange maxTouchPoints).foldl (releasePoint owner client)
    (s.releaseHeld client locked) = s' at ends released ⊢
  have points : ∀ i, (s'.touchPoints i).active = true →
      s'.touchPoints i = s.touchPoints i ∧ (s'.touchPoints i).inputClient ≠ client := by
    intro i active
    exact ⟨ends.active active, released i (List.mem_finRange i) active⟩
  split
  · exact ⟨ends.buttons, ends.keys, ends.calls, points, nofun⟩
  · rename_i other
    refine ⟨ends.buttons, ends.keys, ends.calls, points, fun stroke => ?_⟩
    rw [ends.pen.1] at stroke
    rw [ends.pen.2.2] at other
    exact ⟨ends.pen.2.1, ends.pen.2.2, stroke, other⟩

theorem ButtonsKept.dropped {s s' : HeldInput} {client locked : Nat}
    (kept : ButtonsKept trace s.heldButtons) (left : Left s s' client locked) :
    ButtonsKept (.clientDropped client locked :: trace) s'.heldButtons := by
  have keys : (s'.heldButtons.map HeldButton.key).Perm _ :=
    left.buttons ▸ keys_sweep HeldButton.key (fun k => decide (k.1 = client)) s.heldButtons
  refine ⟨fun client' code => ?_, keys.nodup_iff.mpr (kept.once.filter _), fun held member => ?_⟩
  · rw [keys.mem_iff, List.mem_filter, kept.held, holdsButton]
    by_cases mine : client = client'
    · simp [mine]
    · simp [mine, Ne.symm mine]
  · rw [left.buttons, takeButtons, (SwapTable.sweep_perm _ _).2.mem_iff] at member
    exact kept.codes held (List.mem_of_mem_filter member)

theorem KeysKept.dropped {keymap : Nat → Option Nat} {s s' : HeldInput} {client locked : Nat}
    (kept : KeysKept keymap trace s.heldKeys) (left : Left s s' client locked) :
    KeysKept keymap (.clientDropped client locked :: trace) s'.heldKeys := by
  have keys : (s'.heldKeys.map HeldKey.key).Perm _ :=
    left.keys ▸ keys_sweep HeldKey.key (fun k => decide (k.1 = client)) s.heldKeys
  refine ⟨fun client' evdev => ?_, keys.nodup_iff.mpr (kept.once.filter _), fun held member => ?_⟩
  · rw [keys.mem_iff, List.mem_filter, kept.held, holdsKey]
    by_cases mine : client = client'
    · simp [mine]
    · simp [mine, Ne.symm mine]
  · rw [left.keys, takeKeys, (SwapTable.sweep_perm _ _).2.mem_iff] at member
    exact kept.symbols held (List.mem_of_mem_filter member)

theorem OwnersKept.dropped {s s' : HeldInput} {client locked : Nat} (kept : OwnersKept s)
    (left : Left s s' client locked) : OwnersKept s' where
  touch i active := by
    have same := (left.points i active).1
    rw [same] at active ⊢
    exact kept.touch i active
  apart i j first second equal := by
    have sameI := (left.points i first).1
    have sameJ := (left.points j second).1
    rw [sameI] at first equal
    rw [sameJ] at second equal
    exact kept.apart i j first second equal
  pen stroke := by
    obtain ⟨started, released, before, -⟩ := left.pen stroke
    rw [started, released]
    exact kept.pen before

theorem ButtonsKept.released (kept : ButtonsKept trace s.heldButtons) {client code : Nat}
    (held : holdsButton client code trace = true) (locked : Nat) :
    (s.releases client locked).countP (releasesButton code) = 1 := by
  have keys : ((s.takeKeys client).1.map fun held => HandlerCall.key held.keysym 0 locked).countP
      (releasesButton code) = 0 := by
    rw [List.countP_map]
    exact List.countP_eq_zero.mpr fun held _ => nofun
  unfold releases
  rw [List.countP_append, keys, List.countP_map]
  refine countP_sweep HeldButton.key kept.once ((kept.held client code).mpr held) ?_
  intro held member
  have own := wireButtonCode_eq (kept.codes held member)
  simp [releasesButton, HeldButton.key, own, and_comm]

theorem KeysKept.released {keymap : Nat → Option Nat} (kept : KeysKept keymap trace s.heldKeys)
    {client evdev : Nat} (held : holdsKey keymap client evdev trace = true) (locked : Nat) :
    (s.releases client locked).countP (releasesKey keymap evdev) = 1 := by
  have buttons : ((s.takeButtons client).1.map fun held =>
      HandlerCall.button held.code false).countP (releasesKey keymap evdev) = 0 := by
    rw [List.countP_map]
    exact List.countP_eq_zero.mpr fun held _ => nofun
  unfold releases
  rw [List.countP_append, buttons, List.countP_map, Nat.zero_add]
  refine countP_sweep HeldKey.key kept.once ((kept.held client evdev).mpr held) ?_
  intro held member
  have own := kept.symbols held member
  simp [releasesKey, HeldKey.key, own, and_comm]

/-- Everything that is held is noted for the client that holds it. -/
structure Kept (keymap : Nat → Option Nat) (trace : List HeldEvent) (s : HeldInput) : Prop where
  buttons : ButtonsKept trace s.heldButtons
  keys : KeysKept keymap trace s.heldKeys
  owners : OwnersKept s

/-- The tables have room, and no touch is mistaken for one of another client. -/
def Fits (keymap : Nat → Option Nat) (s : HeldInput) : HeldEvent → Prop
  | .button client btn state => state ≠ 0 → s.ButtonFits client btn
  | .key client keysym state _ => state ≠ 0 → s.KeyFits keymap client keysym
  | .touch client id phase hit => phase = .down → s.TouchFits client id hit
  | _ => True

theorem kept_empty (keymap : Nat → Option Nat) : Kept keymap [] {} where
  buttons := ⟨by simp [holdsButton], List.nodup_nil, nofun⟩
  keys := ⟨by simp [holdsKey], List.nodup_nil, nofun⟩
  owners := ⟨nofun, nofun, nofun⟩

/-- Everything stays noted for the client that holds it. -/
theorem Kept.next {keymap : Nat → Option Nat} (kept : Kept keymap trace s) (owner : Nat → Nat)
    (event : HeldEvent) (fits : s.Fits keymap event) :
    Kept keymap (event :: trace) (s.next owner keymap event) := by
  obtain ⟨buttons, keys, owners⟩ := kept
  cases event with
  | button client btn state =>
    have noted := ButtonsKept.note (s := s.call (.button btn (state ≠ 0))) buttons client btn
      state fits
    have same := heldButtonNote_eq (s.call (.button btn (state ≠ 0))) client btn (state ≠ 0)
    change Kept keymap _ ((s.call (.button btn (state ≠ 0))).heldButtonNote client btn (state ≠ 0))
    rw [same]
    exact ⟨noted, ⟨keys.held, keys.once, keys.symbols⟩, ⟨owners.touch, owners.apart, owners.pen⟩⟩
  | key client keysym state mods =>
    have noted := KeysKept.note (s := s.call (.key keysym state mods)) keys client keysym state mods
      fits
    have same := heldKeyNote_eq keymap (s.call (.key keysym state mods)) client keysym (state ≠ 0)
    change Kept keymap _
      ((s.call (.key keysym state mods)).heldKeyNote keymap client keysym (state ≠ 0))
    rw [same]
    exact ⟨⟨buttons.held, buttons.once, buttons.codes⟩, noted,
      ⟨owners.touch, owners.apart, owners.pen⟩⟩
  | text client text taken =>
    change Kept keymap _ (if taken then s else s.typeText text)
    split
    · exact ⟨⟨buttons.held, buttons.once, buttons.codes⟩, ⟨keys.held, keys.once, keys.symbols⟩,
        owners⟩
    · rw [typeText_eq]
      exact ⟨⟨buttons.held, buttons.once, buttons.codes⟩, ⟨keys.held, keys.once, keys.symbols⟩,
        ⟨owners.touch, owners.apart, owners.pen⟩⟩
  | touch client id phase hit =>
    obtain ⟨sameButtons, sameKeys⟩ := tables_touch s owner keymap client id phase hit
    refine ⟨?_, ?_, owners.touchRecord owner keymap client id phase hit fits⟩
    · rw [sameButtons]
      exact ⟨buttons.held, buttons.once, buttons.codes⟩
    · rw [sameKeys]
      exact ⟨keys.held, keys.once, keys.symbols⟩
  | tablet client phase hit =>
    obtain ⟨still, sameButtons, sameKeys⟩ := owners.tabletRecord owner keymap client phase hit
    refine ⟨?_, ?_, still⟩
    · rw [sameButtons]
      exact ⟨buttons.held, buttons.once, buttons.codes⟩
    · rw [sameKeys]
      exact ⟨keys.held, keys.once, keys.symbols⟩
  | surfaceGone surface =>
    have ended := owners.ends (ends_endPoints s fun point => decide (point.surface = some surface))
    change Kept keymap _ (if (s.touchSurfaceGone surface).penFocus = some surface then
      (s.touchSurfaceGone surface).penLeave else s.touchSurfaceGone surface)
    split
    · exact ⟨⟨buttons.held, buttons.once, buttons.codes⟩, ⟨keys.held, keys.once, keys.symbols⟩,
        ended.penLeave⟩
    · exact ⟨⟨buttons.held, buttons.once, buttons.codes⟩, ⟨keys.held, keys.once, keys.symbols⟩,
        ended⟩
  | sessionLocked =>
    have ended := owners.ends (ends_endPoints s fun _ => true)
    exact ⟨⟨buttons.held, buttons.once, buttons.codes⟩, ⟨keys.held, keys.once, keys.symbols⟩,
      ended.penLeave⟩
  | clientDropped client locked =>
    have left := left_inputClientDropped s owner client locked
    exact ⟨buttons.dropped left, keys.dropped left, owners.dropped left⟩

/-- A client that is gone holds nothing, and what the others hold stays noted. -/
structure Released (keymap : Nat → Option Nat) (trace : List HeldEvent) (client : Nat)
    (s s' : HeldInput) : Prop where
  -- Every button and key that the client held is released once.
  buttons : ∀ code, holdsButton client code trace = true →
    ∃ calls, s'.calls = s.calls ++ calls ∧ calls.countP (releasesButton code) = 1
  keys : ∀ evdev, holdsKey keymap client evdev trace = true →
    ∃ calls, s'.calls = s.calls ++ calls ∧ calls.countP (releasesKey keymap evdev) = 1
  -- No touch or stroke that it started goes on.
  touch : ∀ i, (s'.touchPoints i).active = true → (s'.touchPoints i).startedBy ≠ client
  pen : s'.penFocus.isSome = true → s'.penStartedBy ≠ client
  -- Nothing is noted for it.
  noButton : ∀ held ∈ s'.heldButtons, held.client ≠ client
  noKey : ∀ held ∈ s'.heldKeys, held.client ≠ client
  otherButtons : ∀ other code, other ≠ client → holdsButton other code trace = true →
    ∃ held ∈ s'.heldButtons, held.client = other ∧ held.code = code
  otherKeys : ∀ other evdev, other ≠ client → holdsKey keymap other evdev trace = true →
    ∃ held ∈ s'.heldKeys, held.client = other ∧ held.evdev = evdev

theorem kept_of_run {owner : Nat → Nat} {keymap : Nat → Option Nat}
    (run : ((machine owner keymap).restrict (Fits keymap)).Run trace s) :
    Kept keymap trace s := by
  refine Machine.Run.invariant (Kept keymap) ?_ ?_ run
  · rintro s rfl
    exact kept_empty keymap
  · intro trace s event kept allowed
    exact kept.next owner event allowed.2

/--
When a client goes away, everything it holds is released, and nothing else.

Up to then, the tables had room for everything that was pressed, and no touch that missed every
surface had the number of a touch point of another client.
-/
theorem gone_holds_nothing (owner : Nat → Nat) (keymap : Nat → Option Nat)
    {trace : List HeldEvent} {s : HeldInput}
    (run : ((machine owner keymap).restrict (Fits keymap)).Run trace s) (client locked : Nat) :
    Released keymap trace client s (s.next owner keymap (.clientDropped client locked)) := by
  have kept := kept_of_run run
  have left : Left s (s.next owner keymap (.clientDropped client locked)) client locked :=
    left_inputClientDropped s owner client locked
  have after := kept.next owner (.clientDropped client locked) trivial
  refine ⟨fun code held => ?_, fun evdev held => ?_, fun i active => ?_, fun stroke => ?_,
    fun held member => ?_, fun held member => ?_, fun other code differ held => ?_,
    fun other evdev differ held => ?_⟩
  · exact ⟨_, left.calls, kept.buttons.released held locked⟩
  · exact ⟨_, left.calls, kept.keys.released held locked⟩
  · rw [after.owners.touch i active]
    exact (left.points i active).2
  · rw [after.owners.pen stroke, (left.pen stroke).2.1]
    exact (left.pen stroke).2.2.2
  · rintro rfl
    have noted := (after.buttons.held held.client held.code).mp
      (List.mem_map_of_mem (f := HeldButton.key) member)
    simp [holdsButton] at noted
  · rintro rfl
    have noted := (after.keys.held held.client held.evdev).mp
      (List.mem_map_of_mem (f := HeldKey.key) member)
    simp [holdsKey] at noted
  · have noted := (after.buttons.held other code).mpr (by simp [holdsButton, differ.symm, held])
    obtain ⟨held, member, same⟩ := List.mem_map.mp noted
    exact ⟨held, member, congrArg Prod.fst same, congrArg Prod.snd same⟩
  · have noted := (after.keys.held other evdev).mpr (by simp [holdsKey, differ.symm, held])
    obtain ⟨held, member, same⟩ := List.mem_map.mp noted
    exact ⟨held, member, congrArg Prod.fst same, congrArg Prod.snd same⟩

def twoHands : List HeldEvent :=
  [.button 1 1 1, .button 2 1 1, .key 1 97 1 0, .touch 1 0 .down (some 5),
    .tablet 1 .down (some 7)]

theorem gone_holds_nothing_twoHands :
    ∃ s : HeldInput, ((machine id some).restrict (Fits some)).Run twoHands.reverse s ∧
      holdsButton 1 btnLeft twoHands.reverse = true ∧
      holdsKey some 1 97 twoHands.reverse = true ∧
      Released some twoHands.reverse 1 s (s.next id some (.clientDropped 1 0)) := by
  have run : ((machine id some).restrict (Fits some)).Run twoHands.reverse _ :=
    .of_script (s := {}) rfl twoHands
      ⟨⟨trivial, fun _ => Or.inr (by decide)⟩, ⟨trivial, fun _ => Or.inr (by decide)⟩,
        ⟨trivial, fun _ _ _ => Or.inr (by decide)⟩, ⟨trivial, fun _ => nofun⟩,
        ⟨trivial, trivial⟩, trivial⟩
  exact ⟨_, run, by decide, by decide, gone_holds_nothing id some run 1 0⟩

def manyButtons : List HeldEvent :=
  (List.range (maxHeldButtons + 1)).map fun n => .button 1 (btnLeft + n) 1

def sameTouch : List HeldEvent :=
  [.touch 1 0 .down (some 5), .touch 2 0 .down none]

/--
Not everything is released.

A button that could not be noted stays down, and a touch point that was mistaken for one of another
client goes on.
-/
theorem not_gone_holds_nothing :
    ¬(∀ (trace : List HeldEvent) (s : HeldInput), (machine id some).Run trace s →
      ∀ code, holdsButton 1 code trace = true →
        ∃ calls, (s.next id some (.clientDropped 1 0)).calls = s.calls ++ calls ∧
          calls.countP (releasesButton code) = 1) ∧
    ¬(∀ (trace : List HeldEvent) (s : HeldInput), (machine id some).Run trace s →
      ∀ i, ((s.next id some (.clientDropped 1 0)).touchPoints i).active = true →
        ((s.next id some (.clientDropped 1 0)).touchPoints i).startedBy ≠ 1) := by
  constructor
  · intro released
    have run : (machine id some).Run manyButtons.reverse _ :=
      .of_script (s := {}) rfl manyButtons (Machine.admits_of_enabled (fun _ _ => trivial) _ _)
    obtain ⟨calls, made, once⟩ := released _ _ run (btnLeft + maxHeldButtons) (by decide)
    have left := left_inputClientDropped (manyButtons.foldl (next id some) {}) id 1 0
    obtain rfl := List.append_cancel_left (made.symm.trans left.calls)
    exact absurd once (by decide +kernel)
  · intro released
    have run : (machine id some).Run sameTouch.reverse _ :=
      .of_script (s := {}) rfl sameTouch ⟨trivial, trivial, trivial⟩
    exact released _ _ run ⟨0, by decide⟩ (by decide) (by decide)

end HeldInput

end Xios
