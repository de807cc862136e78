import Mathlib.Order.Bounds.Defs
import Opstream.Proofs.FaultLines

/-!
The offset column of a disassembly. Main statement: every item has one line, which begins with
the item's offset in as many digits as the longest offset of the stream may need and never fewer
than four. So the columns stand in the order of the offsets for a reader who compares them as
strings.
-/

namespace Opstream

namespace Text.Decimal

theorem numeral_cons (digit : Char) (rest : List Char) :
    Nat.ofDigitChars 10 (digit :: rest) 0 =
      10 ^ rest.length * (digit.toNat - '0'.toNat) + Nat.ofDigitChars 10 rest 0 := by
  rw [Nat.ofDigitChars_cons, Nat.ofDigitChars_eq_ofDigitChars_zero, Nat.mul_zero, Nat.zero_add]

theorem numeral_lt_pow {digits : List Char} (decimal : ∀ char ∈ digits, char.isDigit = true) :
    Nat.ofDigitChars 10 digits 0 < 10 ^ digits.length := by
  induction digits with
  | nil => exact Nat.one_pos
  | cons digit rest induction =>
      rw [List.forall_mem_cons] at decimal
      have small : digit.toNat - '0'.toNat ≤ 9 :=
        Nat.sub_le_sub_right (Char.isDigit_iff_toNat.mp decimal.1).2 '0'.toNat
      have shifted := Nat.mul_le_mul_left (10 ^ rest.length) small
      have below := induction decimal.2
      rw [numeral_cons, List.length_cons, Nat.pow_succ]
      omega

/-- Numerals of one length have the same order as strings and as numbers. -/
theorem lt_of_numeral_lt {first second : List Char}
    (decimal : ∀ char ∈ first, char.isDigit = true)
    (decimalToo : ∀ char ∈ second, char.isDigit = true) (same : first.length = second.length)
    (below : Nat.ofDigitChars 10 first 0 < Nat.ofDigitChars 10 second 0) : first < second := by
  induction first generalizing second with
  | nil =>
      rw [List.length_eq_zero_iff.mp same.symm] at below
      exact absurd below (Nat.lt_irrefl _)
  | cons digit rest induction =>
      obtain ⟨other, others, rfl⟩ := List.exists_cons_of_length_eq_add_one same.symm
      rw [List.forall_mem_cons] at decimal decimalToo
      have lengths : rest.length = others.length := Nat.succ.inj same
      have room := numeral_lt_pow decimalToo.2
      have least := (Char.isDigit_iff_toNat.mp decimal.1).1
      have leastToo := (Char.isDigit_iff_toNat.mp decimalToo.1).1
      rw [numeral_cons, numeral_cons, lengths] at below
      rw [List.cons_lt_cons_iff]
      rcases Nat.lt_trichotomy digit.toNat other.toNat with less | equal | more
      · exact .inl less
      · rw [equal, Nat.add_lt_add_iff_left] at below
        exact .inr ⟨Char.toNat_inj.mp equal, induction decimal.2 decimalToo.2 lengths below⟩
      · -- A greater first digit outweighs whatever follows the smaller one.
        have step : other.toNat - '0'.toNat + 1 ≤ digit.toNat - '0'.toNat := by omega
        have outweighed := Nat.mul_le_mul_left (10 ^ others.length) step
        rw [Nat.mul_succ] at outweighed
        omega

theorem numeral_padded (width value : Nat) :
    Nat.ofDigitChars 10 (padded width value).toList 0 = value := by
  rw [padded, String.toList_ofList, List.leftpad, Nat.ofDigitChars_append,
    Nat.ofDigitChars_replicate_zero, Nat.mul_zero, Nat.ofDigitChars_ten_toDigits]

theorem digits_padded (width value : Nat) :
    ∀ char ∈ (padded width value).toList, char.isDigit = true :=
  (Listing.is_numeral_iff.mp (is_numeral_padded width value)).2

theorem length_padded_eq (width value : Nat) :
    (padded width value).toList.length = max width (Nat.toDigits 10 value).length := by
  rw [padded, String.toList_ofList, List.length_leftpad]

theorem length_padded {width value : Nat} (some_digit : 0 < width) (room : value < 10 ^ width) :
    (padded width value).toList.length = width := by
  rw [length_padded_eq]
  exact Nat.max_eq_left ((Nat.length_toDigits_le_iff (by decide) some_digit).mpr room)

theorem padded_lt_padded {width less more : Nat} (some_digit : 0 < width) (below : less < more)
    (room : more < 10 ^ width) : padded width less < padded width more := by
  rw [String.lt_iff]
  apply lt_of_numeral_lt (digits_padded width less) (digits_padded width more)
  · rw [length_padded some_digit (Nat.lt_trans below room), length_padded some_digit room]
  · rwa [numeral_padded, numeral_padded]

end Text.Decimal

theorem offset_width_least (length : Nat) :
    IsLeast {width | 4 ≤ width ∧ length ≤ 10 ^ width} (offsetWidth length) := by
  have digits_iff {width : Nat} (four : 4 ≤ width) :
      (Nat.toDigits 10 (length - 1)).length ≤ width ↔ length ≤ 10 ^ width := by
    have power : 0 < 10 ^ width := Nat.pow_pos (by decide)
    rw [Nat.length_toDigits_le_iff (by decide) (by omega)]
    omega
  constructor
  · have four : 4 ≤ offsetWidth length := Nat.le_max_left 4 _
    exact ⟨four, (digits_iff four).mp (Nat.le_max_right 4 _)⟩
  · rintro width ⟨four, room⟩
    exact Nat.max_le.mpr ⟨four, (digits_iff four).mpr room⟩

example : offsetWidth 10000 = 4 ∧ offsetWidth 10001 = 5 := by decide

theorem offset_width_short {length : Nat} (short : length ≤ 10000) : offsetWidth length = 4 := by
  have least := offset_width_least length
  exact Nat.le_antisymm (least.2 ⟨Nat.le_refl 4, short⟩) least.1.1

theorem offset_width_pos (length : Nat) : 0 < offsetWidth length :=
  Nat.lt_of_lt_of_le (by decide) (offset_width_least length).1.1

theorem Tiling.ascending {start stop : Nat} {items : List Item} (tiling : Tiling start stop items) :
    items.Pairwise fun item other => item.offset < other.offset := by
  induction tiling with
  | done stop => exact .nil
  | @next start stop item items place rest induction =>
      refine .cons ?_ induction
      intro other member
      have behind := (rest.inside other member).1
      have positive := item.size_positive
      omega

open Listing

namespace Item

/-- What is shown of an item behind its offset. -/
def content : Item → List Char
  | .instruction decoded =>
      spell decoded.operation.name.toList decoded.instruction.operands
  | .fault _ _ cause => "ERROR: ".toList ++ cause.message.toList

def LineOf (width : Nat) (item : Item) (line : List Char) : Prop :=
  ∃ column, line = column ++ ' ' :: item.content ∧ column.length = width ∧
    (∀ char ∈ column, char.isDigit = true) ∧ Nat.ofDigitChars 10 column 0 = item.offset

theorem text_content {item : Item} (counted : item.Counted) :
    item.text.toList = item.content := by
  cases item with
  | instruction decoded =>
      rw [text, Decoded.text_counted counted, Operation.listed_spelled]
      rfl
  | fault offset byte cause => exact String.toList_append ..

theorem spelled_content (width : Nat) {item : Item} (counted : item.Counted) :
    item.spelled width =
      (Text.Decimal.padded width item.offset).toList ++ ' ' :: item.content := by
  rw [spelled, text_content counted]

theorem line_of_spelled {width : Nat} {item : Item} (counted : item.Counted)
    (some_digit : 0 < width) (room : item.offset < 10 ^ width) :
    item.LineOf width (item.spelled width) := by
  exact ⟨_, spelled_content width counted, Text.Decimal.length_padded some_digit room,
    Text.Decimal.digits_padded width item.offset, Text.Decimal.numeral_padded width item.offset⟩

theorem take_spelled {width : Nat} {item : Item} (some_digit : 0 < width)
    (room : item.offset < 10 ^ width) :
    String.ofList ((item.spelled width).take width) = Text.Decimal.padded width item.offset := by
  rw [spelled, List.take_left' (Text.Decimal.length_padded some_digit room), String.ofList_toList]

end Item

namespace Table

variable (table : Table) {stream : List UInt8} {item : Item} (member : item ∈ table.scan stream)

include member

theorem scanned_inside : item.offset + item.size ≤ stream.length := by
  have inside := ((table.tiling_scan_from 0 stream).inside item member).2
  rwa [Nat.zero_add] at inside

theorem offset_lt_pow : item.offset < 10 ^ offsetWidth stream.length := by
  have inside := table.scanned_inside member
  have positive := item.size_positive
  have room := (offset_width_least stream.length).1.2
  omega

end Table

/-- A disassembly has one line for every item, in the order of the scan, if no name has a line
break. A line begins with the item's offset, in digits of which there are equally many on every
line: the least number, from four on, that is enough for the stream. The offsets grow from line to
line, and their columns do so as strings too. -/
theorem offset_columns_ascend (table : Table) (stream : List UInt8)
    (unbroken : ∀ name ∈ table.names, '\n' ∉ name.toList) :
    (∀ length, IsLeast {width | 4 ≤ width ∧ length ≤ 10 ^ width} (offsetWidth length)) ∧
    ((table.scan stream).Pairwise fun item other => item.offset < other.offset) ∧
    ∃ lines : List (List Char),
      (table.disassemble stream).toList = (lines.flatMap fun line => line ++ ['\n']) ∧
      (∀ line ∈ lines, '\n' ∉ line) ∧
      List.Forall₂ (Item.LineOf (offsetWidth stream.length)) (table.scan stream) lines ∧
      (lines.map fun line => String.ofList (line.take (offsetWidth stream.length))).Pairwise
        (· < ·) := by
  have ascending := (table.tiling_scan_from 0 stream).ascending
  have room {item : Item} (member : item ∈ table.scan stream) := table.offset_lt_pow member
  have whole (width : Nat) : ∀ item ∈ table.scan stream, '\n' ∉ item.spelled width :=
    Table.absent_of_unnamed rfl unbroken width
  have written := table.disassemble_spelled stream
  have some_digit := offset_width_pos stream.length
  generalize offsetWidth stream.length = width at room written some_digit ⊢
  refine ⟨offset_width_least, ascending, (table.scan stream).map (Item.spelled width), written,
    ?_, ?_, ?_⟩
  · intro line listed
    obtain ⟨item, member, rfl⟩ := List.mem_map.mp listed
    exact whole width item member
  · rw [List.forall₂_map_right_iff, List.forall₂_same]
    intro item member
    exact Item.line_of_spelled (Table.counted_of_scanned member) some_digit (room member)
  · rw [List.map_map, List.pairwise_map]
    refine ascending.imp_of_mem fun {item other} member memberToo below => ?_
    simp only [Function.comp_apply, Item.take_spelled some_digit (room member),
      Item.take_spelled some_digit (room memberToo)]
    exact Text.Decimal.padded_lt_padded some_digit below (room memberToo)

/-- A name may hold a carriage return and a blank, and its line is still one. -/
theorem returning_name_keeps_columns :
    let table : Table := ⟨[⟨1, ⟨"Go \rback", [2]⟩⟩], by decide, by decide, by decide⟩
    let stream : List UInt8 := [7, 1, 1, 0]
    (∀ name ∈ table.names, '\n' ∉ name.toList) ∧
      table.disassemble stream = "0000 ERROR: opcode 7 undefined\n0001 Go \rback 256\n" ∧
      ∃ lines : List (List Char),
        (table.disassemble stream).toList = (lines.flatMap fun line => line ++ ['\n']) ∧
        List.Forall₂ (Item.LineOf 4) [.fault 0 7 (.undefinedOpcode 7),
          .instruction ⟨1, ⟨"Go \rback", [2]⟩, ⟨1, [256]⟩⟩] lines := by
  intro table stream
  have unbroken : ∀ name ∈ table.names, '\n' ∉ name.toList := by decide
  have scanned : table.scan stream = [.fault 0 7 (.undefinedOpcode 7),
      .instruction ⟨1, ⟨"Go \rback", [2]⟩, ⟨1, [256]⟩⟩] := by decide
  have width : offsetWidth stream.length = 4 := by decide
  obtain ⟨_, _, lines, written, _, fitting, _⟩ := offset_columns_ascend table stream unbroken
  rw [scanned, width] at fitting
  exact ⟨unbroken, by decide, lines, written, fitting⟩

end Opstream
