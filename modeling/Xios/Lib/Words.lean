import Mathlib.Algebra.Order.Ring.Nat

/-! Numbers as bytes, the least significant first or the most significant first. -/

namespace Words

/-- Which byte of a number stands first. -/
inductive Order
  | little
  | big
  deriving DecidableEq

/-- The number that bytes are, the least significant first. -/
def ofLittle : List UInt8 → Nat
  | [] => 0
  | b :: bytes => b.toNat + 256 * ofLittle bytes

/-- Some bytes of a number, the least significant first. -/
def toLittle : Nat → Nat → List UInt8
  | 0, _ => []
  | width + 1, n => UInt8.ofNat (n % 256) :: toLittle width (n / 256)

def Order.value : Order → List UInt8 → Nat
  | .little, bytes => ofLittle bytes
  | .big, bytes => ofLittle bytes.reverse

def Order.bytes : Order → Nat → Nat → List UInt8
  | .little, width, n => toLittle width n
  | .big, width, n => (toLittle width n).reverse

@[simp] theorem length_toLittle (width n : Nat) : (toLittle width n).length = width := by
  induction width generalizing n with
  | zero => rfl
  | succ width ih => rw [toLittle, List.length_cons, ih]

@[simp] theorem Order.length_bytes (o : Order) (width n : Nat) :
    (o.bytes width n).length = width := by
  cases o <;> simp [Order.bytes]

theorem ofLittle_toLittle {width n : Nat} (fits : n < 256 ^ width) :
    ofLittle (toLittle width n) = n := by
  induction width generalizing n with
  | zero =>
    rw [pow_zero] at fits
    rw [toLittle, ofLittle]
    omega
  | succ width ih =>
    -- The first byte is the remainder, and the others are those of the quotient.
    have quotient : n / 256 < 256 ^ width := by
      rw [pow_succ] at fits
      omega
    have byte : (UInt8.ofNat (n % 256)).toNat = n % 256 := by
      rw [UInt8.toNat_ofNat']
      omega
    rw [toLittle, ofLittle, ih quotient, byte]
    omega

theorem Order.value_bytes (o : Order) {width n : Nat} (fits : n < 256 ^ width) :
    o.value (o.bytes width n) = n := by
  cases o with
  | little => exact ofLittle_toLittle fits
  | big =>
    change ofLittle (toLittle width n).reverse.reverse = n
    rw [List.reverse_reverse, ofLittle_toLittle fits]

theorem ofLittle_lt (bytes : List UInt8) : ofLittle bytes < 256 ^ bytes.length := by
  induction bytes with
  | nil => exact Nat.one_pos
  | cons b bytes ih =>
    have small := b.toNat_lt
    rw [ofLittle, List.length_cons, pow_succ]
    omega

theorem Order.value_lt (o : Order) (bytes : List UInt8) :
    o.value bytes < 256 ^ bytes.length := by
  cases o with
  | little => exact ofLittle_lt bytes
  | big =>
    have bound := ofLittle_lt bytes.reverse
    rwa [List.length_reverse] at bound

theorem toLittle_ofLittle (bytes : List UInt8) :
    toLittle bytes.length (ofLittle bytes) = bytes := by
  induction bytes with
  | nil => rfl
  | cons b bytes ih =>
    have small := b.toNat_lt
    have first : (b.toNat + 256 * ofLittle bytes) % 256 = b.toNat := by omega
    have rest : (b.toNat + 256 * ofLittle bytes) / 256 = ofLittle bytes := by omega
    rw [List.length_cons, ofLittle, toLittle, first, rest, ih, UInt8.ofNat_toNat]

theorem Order.bytes_value (o : Order) (bytes : List UInt8) :
    o.bytes bytes.length (o.value bytes) = bytes := by
  cases o with
  | little => exact toLittle_ofLittle bytes
  | big =>
    have same := toLittle_ofLittle bytes.reverse
    rw [List.length_reverse] at same
    change (toLittle bytes.length (ofLittle bytes.reverse)).reverse = bytes
    rw [same, List.reverse_reverse]

end Words
