import Mathlib.Algebra.BigOperators.Ring.Finset
import Opstream.Proofs.Fields

/-!
Fields as numbers. Main statement: writing a field and reading it undo each other, and what is
read is the number that its bytes spell, with no bit lost in a word of eight bytes. Words are
taken apart and put together by division here, which comes to the same as shifting them.
-/

namespace Opstream

namespace BigEndian

/-- The number that the first bytes of a window spell: each of them is worth 256 times as much as
the one behind it. -/
def number (width : Nat) (window : List UInt8) : Nat :=
  ∑ place ∈ Finset.range width, (window.getD place 0).toNat * 256 ^ (width - 1 - place)

theorem number_succ (width : Nat) (window : List UInt8) :
    number (width + 1) window = number width window * 256 + (window.getD width 0).toNat := by
  have raised : ∀ place ∈ Finset.range width,
      (window.getD place 0).toNat * 256 ^ (width + 1 - 1 - place) =
        (window.getD place 0).toNat * 256 ^ (width - 1 - place) * 256 := by
    intro place below
    rw [Finset.mem_range] at below
    have next : width + 1 - 1 - place = width - 1 - place + 1 := by omega
    rw [next, pow_succ, mul_assoc]
  rw [number, Finset.sum_range_succ, Finset.sum_congr rfl raised, ← Finset.sum_mul]
  simp [number]

theorem number_congr {width : Nat} {left right : List UInt8}
    (same : left.take width = right.take width) : number width left = number width right := by
  apply Finset.sum_congr rfl
  intro place below
  rw [Finset.mem_range] at below
  have digit : left[place]? = right[place]? := by
    rw [← List.getElem?_take_of_lt below, same, List.getElem?_take_of_lt below]
  rw [List.getD_eq_getElem?_getD, List.getD_eq_getElem?_getD, digit]

theorem number_take (width : Nat) (window : List UInt8) :
    number width (window.take width) = number width window := by
  apply number_congr
  rw [List.take_take, Nat.min_self]

/-- On at most eight bytes the word is the number itself and no remainder of it. -/
theorem decode_eq_number (bytes : List UInt8) (short : bytes.length ≤ 8) :
    (decode bytes).toNat = number bytes.length bytes := by
  induction bytes using List.reverseRecOn with
  | nil => rfl
  | append_singleton bytes byte induction =>
      rw [List.length_append, List.length_singleton] at short ⊢
      have bounded := decode_lt_capacity bytes (by omega)
      have front : number bytes.length (bytes ++ [byte]) = number bytes.length bytes := by
        apply number_congr
        simp
      rw [decode_append_value bytes byte (by omega) bounded, induction (by omega), number_succ,
        front]
      simp

/-- A word put together by shifting every byte in behind those before it. -/
def shiftIn (bytes : List UInt8) : UInt64 :=
  bytes.foldl (fun word byte => word <<< 8 ||| byte.toUInt64) 0

/-- The last `width` bytes of a word, each of them shifted to its end and masked. -/
def shiftOut (width : Nat) (word : UInt64) : List UInt8 :=
  (List.range width).map fun place =>
    ((word >>> UInt64.ofNat (8 * (width - 1 - place))) &&& 0xFF).toUInt8

theorem shift_or_eq_add (word : UInt64) (byte : UInt8) :
    word <<< 8 ||| byte.toUInt64 = word * 256 + byte.toUInt64 := by
  apply UInt64.toNat_inj.mp
  have digit : byte.toNat < 2 ^ 8 := byte.toNat_lt
  have kept : word.toNat * 2 ^ 8 % 2 ^ 64 = 2 ^ 8 * (word.toNat % 2 ^ 56) := by omega
  rw [UInt64.toNat_add, UInt64.toNat_mul, UInt64.toNat_or, UInt64.toNat_shiftLeft,
    UInt8.toNat_toUInt64]
  change word.toNat <<< 8 % 2 ^ 64 ||| byte.toNat =
    (word.toNat * 2 ^ 8 % 2 ^ 64 + byte.toNat) % 2 ^ 64
  rw [Nat.shiftLeft_eq, kept, ← Nat.two_pow_add_eq_or_of_lt digit]
  omega

theorem shift_in_eq_decode (bytes : List UInt8) : shiftIn bytes = decode bytes := by
  unfold decode shiftIn
  apply congrArg (fun step => bytes.foldl step 0)
  funext word byte
  exact shift_or_eq_add word byte

theorem to_nat_shift_right (word : UInt64) {shift : Nat} (short : shift < 64) :
    (word >>> UInt64.ofNat shift).toNat = word.toNat / 2 ^ shift := by
  have exact_shift : (UInt64.ofNat shift).toNat = shift :=
    UInt64.toNat_ofNat_of_lt' (Nat.lt_trans short (by decide))
  rw [UInt64.toNat_shiftRight, exact_shift, Nat.mod_eq_of_lt short, Nat.shiftRight_eq_div_pow]

theorem shift_right_byte (word : UInt64) {count : Nat} (short : count < 7) :
    word >>> UInt64.ofNat (8 * (count + 1)) = (word / 256) >>> UInt64.ofNat (8 * count) := by
  apply UInt64.toNat_inj.mp
  rw [to_nat_shift_right word (by omega), to_nat_shift_right (word / 256) (by omega),
    UInt64.toNat_div, Nat.mul_succ, Nat.add_comm, pow_add, ← Nat.div_div_eq_div_mul]
  rfl

theorem to_uint8_mask (word : UInt64) : (word &&& 0xFF).toUInt8 = word.toUInt8 := by
  apply UInt8.toNat_inj.mp
  rw [UInt64.toNat_toUInt8, UInt64.toNat_toUInt8, UInt64.toNat_and]
  change (word.toNat &&& 2 ^ 8 - 1) % 2 ^ 8 = word.toNat % 2 ^ 8
  rw [Nat.and_two_pow_sub_one_eq_mod, Nat.mod_mod]

theorem shift_out_eq_encode (word : UInt64) {width : Nat} (short : width ≤ 8) :
    shiftOut width word = encode width word := by
  induction width generalizing word with
  | zero => rfl
  | succ width induction =>
      have front : (List.range width).map (fun place =>
          ((word >>> UInt64.ofNat (8 * (width + 1 - 1 - place))) &&& 0xFF).toUInt8) =
            shiftOut width (word / 256) := by
        apply List.map_congr_left
        intro place below
        rw [List.mem_range] at below
        have next : width + 1 - 1 - place = width - 1 - place + 1 := by omega
        have few : width - 1 - place < 7 := by omega
        rw [next, shift_right_byte word few]
      rw [shiftOut, List.range_succ, List.map_append, front, induction (word / 256) (by omega),
        encode, List.map_singleton, to_uint8_mask]
      simp

end BigEndian

namespace Operand

theorem read_ok_iff_number {window : List UInt8} {width : Nat} {value : Operand} :
    read window width = .ok value ↔
      width ∈ supportedWidths ∧ width ≤ window.length ∧
        value.toNat = BigEndian.number width window := by
  simp only [read]
  split_ifs with supported short
  · rw [List.length_take] at short
    have lacking : ¬ width ≤ window.length := by omega
    simp [lacking]
  · have room : width ≤ window.length := by
      rw [List.length_take] at short
      omega
    have full : (window.take width).length = width := List.length_take_of_le room
    have eight := supported_width_le supported
    have word := BigEndian.decode_eq_number (window.take width) (by omega)
    rw [full, BigEndian.number_take] at word
    rw [Except.ok.injEq, ← UInt64.toNat_inj, word]
    simp only [supported, room, true_and, eq_comm]
  · simp [supported]

theorem lt_of_read {window : List UInt8} {width : Nat} {value : Operand}
    (found : read window width = .ok value) : value.toNat < 256 ^ width := by
  have bounded := (encode_ok_iff.mp (read_ok_iff.mp found)).2.1
  rwa [capacity_eq_pow] at bounded

theorem read_succeeds {window : List UInt8} {width : Nat} (supported : width ∈ supportedWidths)
    (room : width ≤ window.length) : ∃ value, read window width = .ok value := by
  cases found : read window width with
  | ok value => exact ⟨value, rfl⟩
  | error cause =>
      have short := (read_refused_iff window width).mp ⟨cause, found⟩ supported
      exact absurd room (Nat.not_le.mpr short)

theorem read_congr {width : Nat} {value : Operand} {left right : List UInt8}
    (found : read left width = .ok value) (same : right.take width = left.take width) :
    read right width = .ok value := by
  rw [read_ok_iff] at found ⊢
  rw [same]
  exact found

theorem read_written {buffer written : List UInt8} {value : Operand} {width : Nat}
    (wrote : write buffer value width = .ok written) : read written width = .ok value := by
  obtain ⟨front, encoded, _, rfl⟩ := write_ok_iff.mp wrote
  rw [read_ok_iff, List.take_left' (length_of_encode encoded)]
  exact encoded

theorem write_of_read {window : List UInt8} {value : Operand} {width : Nat}
    (found : read window width = .ok value) : write window value width = .ok window := by
  have room := (read_ok_iff_number.mp found).2.1
  apply write_ok_iff.mpr
  exact ⟨window.take width, read_ok_iff.mp found, room, List.take_append_drop ..⟩

theorem write_eq_shift_out {buffer written : List UInt8} {value : Operand} {width : Nat}
    (wrote : write buffer value width = .ok written) :
    written = BigEndian.shiftOut width value ++ buffer.drop width := by
  obtain ⟨front, encoded, _, rfl⟩ := write_ok_iff.mp wrote
  obtain ⟨supported, _, rfl⟩ := encode_ok_iff.mp encoded
  rw [BigEndian.shift_out_eq_encode value (supported_width_le supported)]

theorem read_eq_shift_in {window : List UInt8} {value : Operand} {width : Nat}
    (found : read window width = .ok value) :
    value = BigEndian.shiftIn (window.take width) := by
  obtain ⟨_, bounded, written⟩ := encode_ok_iff.mp (read_ok_iff.mp found)
  rw [BigEndian.shift_in_eq_decode, ← written, BigEndian.decode_encode width value bounded]

theorem read16_eq_read (window : List UInt8) :
    (read16 window).map UInt16.toUInt64 = read window 2 := by
  rw [read16]
  cases found : read window 2 with
  | error cause => rfl
  | ok value =>
      have small : value.toNat < 2 ^ 16 := lt_of_read found
      apply congrArg Except.ok
      apply UInt64.toNat_inj.mp
      rw [UInt16.toNat_toUInt64, UInt64.toNat_toUInt16, Nat.mod_eq_of_lt small]

end Operand

/-- Take any width that fields can have. A value below `256 ^ width` is written to every buffer with
room for it, and is then read back. Every window with room for a field reads as the number that the
bytes of the field spell; this fits the width, does not depend on what follows, and leaves the window
as it was when it is written back. Shifting gives the same bytes and the same word. Reading 16 bits
is reading two bytes, refusals included. -/
theorem fields_read_back_as_written :
    (∀ width ∈ supportedWidths, ∀ (value : Operand) (buffer : List UInt8),
      value.toNat < 256 ^ width → width ≤ buffer.length →
        ∃ written, Operand.write buffer value width = .ok written ∧
          Operand.read written width = .ok value ∧
          written = BigEndian.shiftOut width value ++ buffer.drop width) ∧
    (∀ width ∈ supportedWidths, ∀ window : List UInt8, width ≤ window.length →
      ∃ value, Operand.read window width = .ok value ∧
        value.toNat =
          ∑ place ∈ Finset.range width, (window.getD place 0).toNat * 256 ^ (width - 1 - place) ∧
        value.toNat < 256 ^ width ∧
        value = BigEndian.shiftIn (window.take width) ∧
        (∀ rest, Operand.read (window.take width ++ rest) width = .ok value) ∧
        Operand.write window value width = .ok window) ∧
    ∀ window, (Operand.read16 window).map UInt16.toUInt64 = Operand.read window 2 := by
  refine ⟨?_, ?_, Operand.read16_eq_read⟩
  · intro width supported value buffer fits room
    obtain ⟨front, encoded⟩ := Operand.encode_succeeds supported fits
    have wrote := Operand.write_ok_iff.mpr ⟨front, encoded, room, rfl⟩
    exact ⟨_, wrote, Operand.read_written wrote, Operand.write_eq_shift_out wrote⟩
  · intro width supported window room
    obtain ⟨value, found⟩ := Operand.read_succeeds supported room
    have spelled := (Operand.read_ok_iff_number.mp found).2.2
    refine ⟨value, found, spelled, Operand.lt_of_read found, Operand.read_eq_shift_in found, ?_,
      Operand.write_of_read found⟩
    intro rest
    apply Operand.read_congr found
    exact List.take_left' (List.length_take_of_le room)

/-- The widest field, with every bit of the word set. -/
theorem widest_field_read_back :
    let buffer : List UInt8 := [1, 2, 3, 4, 5, 6, 7, 8, 9]
    let full : List UInt8 := [255, 255, 255, 255, 255, 255, 255, 255, 9]
    8 ∈ supportedWidths ∧ 8 ≤ buffer.length ∧
      Operand.write buffer 18446744073709551615 8 = .ok full ∧
      Operand.read full 8 = .ok 18446744073709551615 ∧
      Operand.read buffer 8 = .ok 72623859790382856 ∧
      Operand.write buffer 72623859790382856 8 = .ok buffer := by
  intro buffer full
  have widest : 8 ∈ supportedWidths := by decide
  have room : 8 ≤ buffer.length := by decide
  obtain ⟨writes, reads, _⟩ := fields_read_back_as_written
  obtain ⟨written, wrote, again, spelled⟩ :=
    writes 8 widest 18446744073709551615 buffer (by decide) room
  have bytes : written = full := spelled.trans (by decide)
  subst bytes
  obtain ⟨value, found, sum, _, _, _, kept⟩ := reads 8 widest buffer room
  have number : value = 72623859790382856 := UInt64.toNat_inj.mp (sum.trans (by decide))
  subst number
  exact ⟨widest, room, wrote, again, found, kept⟩

end Opstream
