import Mathlib.Algebra.Order.Ring.Nat
import Mathlib.Data.List.DropRight

/-! Texts in C buffers: strings up to a terminator, fields that hold one, buffers that fill up. -/

namespace CText

def ascii (text : String) : List UInt8 :=
  text.toList.map Char.toUInt8

def isSpace (c : UInt8) : Bool :=
  c = 32 || (9 ≤ c && c ≤ 13)

/-- A letter of the C locale in lower case, and any other byte as it is. -/
def toLower (c : UInt8) : UInt8 :=
  if 65 ≤ c ∧ c ≤ 90 then c + 32 else c

/-- The string that starts at a place of a buffer and ends before the next terminator. -/
def cString (buffer : List UInt8) (start : Nat) : List UInt8 :=
  (buffer.drop start).takeWhile (· ≠ 0)

/-- A string without the white space around it. -/
def trim (text : List UInt8) : List UInt8 :=
  (text.dropWhile isSpace).rdropWhile isSpace

/-- A string in a buffer of a given size, which also has to hold the terminator. -/
structure Field (size : Nat) where
  -- The bytes before the terminator.
  bytes : List UInt8
  terminated : 0 ∉ bytes
  -- There is room for the terminator.
  fits : bytes.length < size
  deriving DecidableEq

theorem zero_notMem_takeWhile (text : List UInt8) : 0 ∉ text.takeWhile (· ≠ 0) := by
  intro member
  simpa using List.mem_takeWhile_imp member

variable {text : List UInt8}

theorem takeWhile_of_terminated (terminated : 0 ∉ text) : text.takeWhile (· ≠ 0) = text := by
  rw [List.takeWhile_eq_self_iff]
  intro c member
  simpa using fun zero : c = 0 => terminated (zero ▸ member)

def Field.print {size : Nat} [NeZero size] (text : List UInt8) : Field size where
  bytes := (text.takeWhile (· ≠ 0)).take (size - 1)
  terminated := fun member => zero_notMem_takeWhile text (List.mem_of_mem_take member)
  fits := by
    have positive := Nat.pos_of_ne_zero (NeZero.ne size)
    rw [List.length_take]
    omega

variable {size : Nat}

theorem Field.bytes_print [NeZero size] (terminated : 0 ∉ text) :
    (Field.print text : Field size).bytes = text.take (size - 1) :=
  congrArg (List.take (size - 1)) (takeWhile_of_terminated terminated)

theorem Field.bytes_print_of_fits [NeZero size] (terminated : 0 ∉ text)
    (fits : text.length < size) : (Field.print text : Field size).bytes = text := by
  rw [bytes_print terminated]
  exact List.take_of_length_le (by omega)

theorem Field.print_iff [NeZero size] (terminated : 0 ∉ text) {holds : List UInt8 → Prop}
    (short : ∀ text, holds text → text.length + 1 < size) :
    holds (Field.print text : Field size).bytes ↔ holds text := by
  rw [bytes_print terminated]
  by_cases fits : text.length ≤ size - 1
  · rw [List.take_of_length_le fits]
  · constructor
    · intro cut
      have bound := short _ cut
      rw [List.length_take] at bound
      omega
    · intro all
      have bound := short _ all
      omega

theorem Field.bytes_print_eq_nil [NeZero size] (room : 1 < size) (terminated : 0 ∉ text) :
    (Field.print text : Field size).bytes = [] ↔ text = [] := by
  have short : ∀ text : List UInt8, text = [] → text.length + 1 < size := by
    rintro text rfl
    exact room
  exact print_iff terminated short

def appendChar (size : Nat) (used : List UInt8) (c : UInt8) : Option (List UInt8) :=
  if size ≤ used.length + 1 then none else some (used ++ [c])

def appendText (size : Nat) (used text : List UInt8) : Option (List UInt8) :=
  if size ≤ used.length + text.length then none else some (used ++ text)

/-- Strings that start at given places of a buffer, whatever is appended to it. -/
def Packs (buffer : List UInt8) (starts : List Nat) (words : List (List UInt8)) : Prop :=
  ∀ more, starts.map (cString (buffer ++ more)) = words

namespace Packs

variable {buffer : List UInt8} {starts : List Nat} {words : List (List UInt8)}

theorem nil (buffer : List UInt8) : Packs buffer [] [] :=
  fun _ => rfl

theorem append (packs : Packs buffer starts words) (more : List UInt8) :
    Packs (buffer ++ more) starts words := by
  intro further
  rw [List.append_assoc]
  exact packs (more ++ further)

theorem push (packs : Packs buffer starts words) {word : List UInt8} (terminated : 0 ∉ word) :
    Packs (buffer ++ (word ++ [0])) (starts ++ [buffer.length]) (words ++ [word]) := by
  intro more
  rw [List.map_append, packs.append]
  congr 1
  have inside := List.takeWhile_eq_self_iff.mp (takeWhile_of_terminated terminated)
  unfold cString
  simp only [List.append_assoc, List.map_cons, List.map_nil, List.drop_left]
  rw [List.takeWhile_append_of_pos inside]
  simp

theorem read (packs : Packs buffer starts words) : starts.map (cString buffer) = words := by
  simpa using packs []

end Packs

end CText
