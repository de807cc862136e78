/-!
Base-256 numerals, most significant byte first. Encoding and decoding undo each other on
values that fit the number of bytes, and on at most eight bytes no bit is lost in the word.
-/

namespace Opstream.BigEndian

def capacity : Nat → Nat
  | 0 => 1
  | width + 1 => capacity width * 256

/-- The low `width` bytes of `value`; higher ones are dropped, so callers bound the value. -/
def encode : Nat → UInt64 → List UInt8
  | 0, _ => []
  | width + 1, value => encode width (value / 256) ++ [value.toUInt8]

def decode (bytes : List UInt8) : UInt64 :=
  bytes.foldl (fun value byte => value * 256 + byte.toUInt64) 0

theorem capacity_mono {small large : Nat} (ordered : small ≤ large) :
    capacity small ≤ capacity large := by
  induction ordered with
  | refl => exact Nat.le_refl _
  | step _ induction => exact Nat.le_trans induction (Nat.le_mul_of_pos_right _ (by decide))

theorem length_encode (width : Nat) (value : UInt64) : (encode width value).length = width := by
  induction width generalizing value with
  | zero => rfl
  | succ width induction => simp [encode, induction]

theorem decode_append (bytes : List UInt8) (byte : UInt8) :
    decode (bytes ++ [byte]) = decode bytes * 256 + byte.toUInt64 := by
  simp [decode]

theorem decode_encode (width : Nat) (value : UInt64) (fits : value.toNat < capacity width) :
    decode (encode width value) = value := by
  induction width generalizing value with
  | zero =>
      have zero : value.toNat = 0 := Nat.lt_one_iff.mp fits
      exact (UInt64.toNat_inj.mp zero).symm
  | succ width induction =>
      have bounded : value.toNat < capacity width * 256 := fits
      have quotient : (value / 256).toNat = value.toNat / 256 := UInt64.toNat_div ..
      have word : value.toNat < 18446744073709551616 := value.toNat_lt
      rw [encode, decode_append, induction _ (by omega)]
      apply UInt64.toNat_inj.mp
      rw [UInt64.toNat_add, UInt64.toNat_mul, quotient, UInt8.toNat_toUInt64,
        UInt64.toNat_toUInt8]
      change (value.toNat / 256 * 256 % 18446744073709551616 + value.toNat % 256) %
        18446744073709551616 = value.toNat
      omega

/-- Up to eight bytes the word holds the numeral's value exactly. -/
theorem decode_append_value (bytes : List UInt8) (byte : UInt8) (short : bytes.length < 8)
    (bounded : (decode bytes).toNat < capacity bytes.length) :
    (decode (bytes ++ [byte])).toNat = (decode bytes).toNat * 256 + byte.toNat := by
  have most : capacity bytes.length ≤ capacity 7 := capacity_mono (by omega)
  have seven : capacity 7 = 72057594037927936 := rfl
  have digit : byte.toNat < 256 := byte.toNat_lt
  rw [decode_append, UInt64.toNat_add, UInt64.toNat_mul, UInt8.toNat_toUInt64]
  change ((decode bytes).toNat * 256 % 18446744073709551616 + byte.toNat) %
    18446744073709551616 = _
  omega

end Opstream.BigEndian
