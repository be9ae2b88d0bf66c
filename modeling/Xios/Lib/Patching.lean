import Mathlib.Data.List.TakeWhile

/-! Buffers of a fixed length that are read at places, and patched at others. -/

namespace Patching

variable {α : Type*}

def read (buf : List α) (off n : Nat) : Option (List α) :=
  if off + n ≤ buf.length then some ((buf.drop off).take n) else none

def write (buf : List α) (off : Nat) (new : List α) : List α :=
  buf.take off ++ new ++ buf.drop (off + new.length)

/-- Items of a buffer from a place on, up to some item that ends them. -/
def readUntil [DecidableEq α] (ends : α) (buf : List α) (off : Nat) : Option (List α) :=
  if ends ∈ buf.drop off then some ((buf.drop off).takeWhile (· ≠ ends)) else none

/-- Items that are put at a place. -/
structure Patch (α : Type*) where
  off : Nat
  new : List α

/-- A patch writes at a place. -/
def Patch.Covers (patch : Patch α) (q : Nat) : Prop :=
  patch.off ≤ q ∧ q < patch.off + patch.new.length

/-- A patch ends inside its buffer. -/
def Patch.Inside (patch : Patch α) (length : Nat) : Prop :=
  patch.off + patch.new.length ≤ length

def patched (buf : List α) (patches : List (Patch α)) : List α :=
  patches.foldl (fun buf patch => write buf patch.off patch.new) buf

/-- No patch touches some items from a place on. -/
def Clear (patches : List (Patch α)) (off n : Nat) : Prop :=
  ∀ patch ∈ patches, patch.off + patch.new.length ≤ off ∨ off + n ≤ patch.off

def Patch.shift (base : Nat) (patch : Patch α) : Patch α :=
  ⟨base + patch.off, patch.new⟩

/-- Two patches touch no place both. -/
def Apart (first second : Patch α) : Prop :=
  first.off + first.new.length ≤ second.off ∨ second.off + second.new.length ≤ first.off

variable {buf s : List α} {off n : Nat}

theorem length_of_read (found : read buf off n = some s) : s.length = n ∧ off + n ≤ buf.length := by
  unfold read at found
  split at found
  · rename_i inside
    cases found
    rw [List.length_take, List.length_drop]
    omega
  · cases found

theorem read_congr {buf' : List α} (length : buf'.length = buf.length)
    (alike : ∀ q, off ≤ q → q < off + n → buf'[q]? = buf[q]?) :
    read buf' off n = read buf off n := by
  unfold read
  rw [length]
  split
  · congr 1
    apply List.ext_getElem?
    intro k
    rw [List.getElem?_take, List.getElem?_take, List.getElem?_drop, List.getElem?_drop]
    split
    · exact alike _ (by omega) (by omega)
    · rfl
  · rfl

/-- What is read up to an end is the part before its first one. -/
theorem readUntil_eq_some [DecidableEq α] {ends : α} :
    readUntil ends buf off = some s ↔
      ends ∉ s ∧ read buf off (s.length + 1) = some (s ++ [ends]) := by
  have split : ∀ text : List α, ends ∈ text → text.takeWhile (· ≠ ends) ++ [ends] <+: text := by
    intro text member
    induction text with
    | nil => cases member
    | cons c text ih =>
      by_cases last : c = ends
      · rw [List.takeWhile_cons_of_neg (by simpa using last), last]
        exact ⟨text, rfl⟩
      · rw [List.takeWhile_cons_of_pos (by simpa using last), List.cons_append]
        rw [List.prefix_cons_inj]
        apply ih
        rcases List.mem_cons.mp member with rfl | later
        · exact absurd rfl last
        · exact later
  unfold readUntil read
  constructor
  · -- The text with its end is a front of what stands there.
    intro found
    split at found
    · rename_i member
      cases found
      refine ⟨fun inside => by simpa using List.mem_takeWhile_imp inside, ?_⟩
      have whole := split _ member
      have bound := whole.length_le
      rw [List.length_append, List.length_singleton, List.length_drop] at bound
      rw [if_pos (by omega)]
      congr 1
      rw [List.prefix_iff_eq_take, List.length_append, List.length_singleton] at whole
      exact whole.symm
    · cases found
  · -- The first end that is met is the one that is read.
    rintro ⟨clean, found⟩
    split at found
    · rw [Option.some.injEq] at found
      have whole : buf.drop off = s ++ ends :: (buf.drop off).drop (s.length + 1) := by
        have parts := List.take_append_drop (s.length + 1) (buf.drop off)
        rw [found, List.append_assoc] at parts
        exact parts.symm
      have before : ∀ c ∈ s, decide (c ≠ ends) = true := by
        intro c member
        rw [decide_eq_true_iff]
        rintro rfl
        exact clean member
      rw [whole, if_pos (by simp), List.takeWhile_append_of_pos before,
        List.takeWhile_cons_of_neg (by simp), List.append_nil]
    · cases found

variable {new : List α}

theorem length_write (inside : off + new.length ≤ buf.length) :
    (write buf off new).length = buf.length := by
  unfold write
  rw [List.length_append, List.length_append, List.length_take, List.length_drop]
  omega

theorem getElem?_write (inside : off + new.length ≤ buf.length) (q : Nat) :
    (write buf off new)[q]? =
      if off ≤ q ∧ q < off + new.length then new[q - off]? else buf[q]? := by
  have front : (buf.take off).length = off := by
    rw [List.length_take]
    omega
  unfold write
  by_cases before : q < off
  · rw [if_neg (by omega), List.append_assoc, List.getElem?_append_left (by omega),
      List.getElem?_take_of_lt before]
  · by_cases within : q < off + new.length
    · rw [if_pos (by omega), List.append_assoc, List.getElem?_append_right (by omega), front,
        List.getElem?_append_left (by omega)]
    · rw [if_neg (by omega), List.getElem?_append_right
        (by rw [List.length_append, front]; omega), List.length_append, front,
        List.getElem?_drop]
      congr 1
      omega

theorem patched_append (buf : List α) (first second : List (Patch α)) :
    patched buf (first ++ second) = patched (patched buf first) second :=
  List.foldl_append

theorem patched_concat (buf : List α) (patches : List (Patch α)) (patch : Patch α) :
    patched buf (patches ++ [patch]) = write (patched buf patches) patch.off patch.new :=
  patched_append buf patches [patch]

variable {patches : List (Patch α)}

theorem length_patched (inside : ∀ patch ∈ patches, patch.Inside buf.length) :
    (patched buf patches).length = buf.length := by
  induction patches generalizing buf with
  | nil => rfl
  | cons patch patches ih =>
    rw [List.forall_mem_cons] at inside
    have same := length_write inside.1
    change (patched (write buf patch.off patch.new) patches).length = _
    rw [ih (by rw [same]; exact inside.2), same]

theorem getElem?_patched (inside : ∀ patch ∈ patches, patch.Inside buf.length) {q : Nat}
    (free : ∀ patch ∈ patches, ¬patch.Covers q) : (patched buf patches)[q]? = buf[q]? := by
  induction patches generalizing buf with
  | nil => rfl
  | cons patch patches ih =>
    rw [List.forall_mem_cons] at inside free
    change (patched (write buf patch.off patch.new) patches)[q]? = _
    rw [ih (by rw [length_write inside.1]; exact inside.2) free.2, getElem?_write inside.1]
    exact if_neg free.1

theorem Clear.mono {off' n' : Nat} (clear : Clear patches off n) (first : off ≤ off')
    (last : off' + n' ≤ off + n) : Clear patches off' n' := by
  intro patch member
  rcases clear patch member with before | after
  · exact Or.inl (by omega)
  · exact Or.inr (by omega)

theorem clear_append {first second : List (Patch α)} :
    Clear (first ++ second) off n ↔ Clear first off n ∧ Clear second off n :=
  List.forall_mem_append

theorem inside_concat {length : Nat} {one : Option (Patch α)}
    (inside : ∀ patch ∈ patches, patch.Inside length)
    (place : ∀ patch ∈ one, patch.off = off ∧ patch.new.length = n) (within : off + n ≤ length) :
    ∀ patch ∈ patches ++ one.toList, patch.Inside length := by
  rw [List.forall_mem_append]
  refine ⟨inside, fun patch member => ?_⟩
  obtain ⟨start, size⟩ := place patch (Option.mem_toList.mp member)
  unfold Patch.Inside
  omega

theorem Clear.concat {off' n' : Nat} {one : Option (Patch α)} (clear : Clear patches off' n')
    (place : ∀ patch ∈ one, patch.off = off ∧ patch.new.length = n)
    (beside : off + n ≤ off' ∨ off' + n' ≤ off) : Clear (patches ++ one.toList) off' n' := by
  rw [clear_append]
  refine ⟨clear, fun patch member => ?_⟩
  obtain ⟨start, size⟩ := place patch (Option.mem_toList.mp member)
  rwa [start, size]

theorem apart_filterMap {β : Type*} {f : β → Option (Patch α)} {pos : β → Nat} {items : List β}
    (place : ∀ x, ∀ patch ∈ f x, patch.off = pos x ∧ patch.new.length = n)
    (sorted : items.Pairwise fun x y => pos x + n ≤ pos y) :
    (items.filterMap f).Pairwise Apart := by
  rw [List.pairwise_filterMap]
  apply sorted.imp
  intro x y later first put second put'
  obtain ⟨start, size⟩ := place x first put
  obtain ⟨start', -⟩ := place y second put'
  unfold Apart
  omega

theorem read_patched (inside : ∀ patch ∈ patches, patch.Inside buf.length)
    (clear : Clear patches off n) : read (patched buf patches) off n = read buf off n := by
  apply read_congr (length_patched inside)
  intro q low high
  apply getElem?_patched inside
  rintro patch member ⟨first, last⟩
  rcases clear patch member with before | after <;> omega

theorem readUntil_patched [DecidableEq α] {ends : α}
    (inside : ∀ patch ∈ patches, patch.Inside buf.length)
    (found : readUntil ends buf off = some s) (clear : Clear patches off (s.length + 1)) :
    readUntil ends (patched buf patches) off = some s := by
  rw [readUntil_eq_some] at found ⊢
  rw [read_patched inside clear]
  exact found

theorem read_write (inside : off + new.length ≤ buf.length) :
    read (write buf off new) off new.length = some new := by
  unfold read
  rw [length_write inside, if_pos inside]
  congr 1
  apply List.ext_getElem?
  intro k
  rw [List.getElem?_take, List.getElem?_drop, getElem?_write inside]
  split
  · rw [if_pos (by omega), Nat.add_sub_cancel_left]
  · rw [List.getElem?_eq_none (by omega)]

theorem read_patched_of_mem (inside : ∀ patch ∈ patches, patch.Inside buf.length)
    (apart : patches.Pairwise Apart) {patch : Patch α} (member : patch ∈ patches) :
    read (patched buf patches) patch.off patch.new.length = some patch.new := by
  obtain ⟨before, after, rfl⟩ := List.append_of_mem member
  rw [List.forall_mem_append, List.forall_mem_cons] at inside
  rw [List.pairwise_append, List.pairwise_cons] at apart
  have length := length_patched inside.1
  have own : patch.off + patch.new.length ≤ (patched buf before).length := by
    rw [length]
    exact inside.2.1
  have kept := length_write own
  -- The patches that come after it do not touch its place.
  have later : Clear after patch.off patch.new.length := by
    intro other there
    rcases apart.2.1.1 other there with first | second
    · exact Or.inr first
    · exact Or.inl second
  rw [patched_append]
  change read (patched (write (patched buf before) patch.off patch.new) after) _ _ = _
  rw [read_patched (by rw [kept, length]; exact inside.2.2) later]
  exact read_write own

theorem exists_of_read (found : read buf off s.length = some s) :
    ∃ pre post, buf = pre ++ s ++ post ∧ pre.length = off := by
  have bound := (length_of_read found).2
  unfold read at found
  rw [if_pos bound, Option.some.injEq] at found
  have parts := List.take_append_drop s.length (buf.drop off)
  rw [found] at parts
  refine ⟨buf.take off, (buf.drop off).drop s.length, ?_, ?_⟩
  · rw [List.append_assoc, parts, List.take_append_drop]
  · rw [List.length_take]
    omega

section

variable {pre post : List α}

theorem read_embed {data s : List α} {off n : Nat} (found : read data off n = some s) :
    read (pre ++ data ++ post) (pre.length + off) n = some s := by
  have bound := (length_of_read found).2
  unfold read at found ⊢
  rw [if_pos bound] at found
  rw [if_pos (by simp only [List.length_append]; omega), ← found]
  congr 1
  rw [List.append_assoc, List.drop_append, List.drop_eq_nil_of_le (by omega),
    Nat.add_sub_cancel_left, List.nil_append, List.drop_append_of_le_length (by omega),
    List.take_append_of_le_length (by rw [List.length_drop]; omega)]

theorem readUntil_embed [DecidableEq α] {ends : α} {data s : List α} {off : Nat}
    (found : readUntil ends data off = some s) :
    readUntil ends (pre ++ data ++ post) (pre.length + off) = some s := by
  rw [readUntil_eq_some] at found ⊢
  exact ⟨found.1, read_embed found.2⟩

theorem write_embed {data new : List α} {off : Nat} (inside : off + new.length ≤ data.length) :
    write (pre ++ data ++ post) (pre.length + off) new = pre ++ write data off new ++ post := by
  unfold write
  have front : (pre ++ data ++ post).take (pre.length + off) = pre ++ data.take off := by
    rw [List.append_assoc, List.take_length_add_append, List.take_append_of_le_length (by omega)]
  have back : (pre ++ data ++ post).drop (pre.length + off + new.length) =
      data.drop (off + new.length) ++ post := by
    rw [List.append_assoc, Nat.add_assoc, List.drop_length_add_append,
      List.drop_append_of_le_length inside]
  rw [front, back]
  simp

theorem patched_embed {data : List α} {patches : List (Patch α)}
    (inside : ∀ patch ∈ patches, patch.Inside data.length) :
    patched (pre ++ data ++ post) (patches.map (Patch.shift pre.length)) =
      pre ++ patched data patches ++ post := by
  induction patches generalizing data with
  | nil => rfl
  | cons patch patches ih =>
    rw [List.forall_mem_cons] at inside
    have length := length_write inside.1
    change patched (write (pre ++ data ++ post) (pre.length + patch.off) patch.new) _ = _
    rw [write_embed inside.1, ih (by rw [length]; exact inside.2)]
    rfl

theorem read_middle (pre post data : List α) :
    read (pre ++ data ++ post) pre.length data.length = some data := by
  have whole : read data 0 data.length = some data := by
    unfold read
    rw [if_pos (by omega), List.drop_zero, List.take_length]
  exact read_embed whole

end

end Patching
