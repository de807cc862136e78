import Opstream.Proofs.Columns
import Opstream.Proofs.Ruling

/-!
The two views of a stream. Main statement: the ruled view has a row for each line of the
disassembly, and its cells are the line's offset, the bytes that the item covers in the stream, and
the rest of the line. The bytes of all rows together are the stream.
-/

namespace Opstream

namespace Text.Hex

def digits : List Char := "0123456789abcdef".toList

def pair (value : UInt8) : List Char :=
  [digits.getD (value.toNat / 16) '0', digits.getD (value.toNat % 16) '0']

def spelled (bytes : List UInt8) : List Char := [' '].intercalate (bytes.map pair)

theorem byte_pair (value : UInt8) : (byte value).toList = pair value := by
  have small : value.toNat < 256 := value.toNat_lt
  have digit_char : ∀ digit < 16, Nat.digitChar digit = digits.getD digit '0' := by decide
  rw [byte, String.toList_ofList]
  by_cases low : value.toNat < 16
  · rw [Nat.toDigits_of_lt_base low, digit_char _ low, pair, Nat.div_eq_of_lt low,
      Nat.mod_eq_of_lt low]
    rfl
  · have high : value.toNat / 16 < 16 := by omega
    rw [Nat.toDigits_of_base_le (by decide) (Nat.not_lt.mp low), Nat.toDigits_of_lt_base high,
      digit_char _ high, digit_char _ (Nat.mod_lt _ (by decide))]
    rfl

theorem spaced_spelled (bytes : List UInt8) : (spaced bytes).toList = spelled bytes := by
  rw [spaced, String.toList_intercalate, List.map_map, spelled]
  apply congrArg ([' '].intercalate ·)
  apply List.map_congr_left
  intro value _
  exact byte_pair value

theorem spelled_cons (value : UInt8) {bytes : List UInt8} (some_byte : bytes ≠ []) :
    spelled (value :: bytes) = pair value ++ ' ' :: spelled bytes := by
  obtain ⟨next, rest, rfl⟩ := List.exists_cons_of_ne_nil some_byte
  rw [spelled, List.map_cons, List.map_cons, List.intercalate_cons_cons, spelled, List.map_cons,
    List.append_assoc]
  rfl

theorem spelled_append {first second : List UInt8} (some_byte : first ≠ [])
    (others : second ≠ []) :
    spelled (first ++ second) = spelled first ++ ' ' :: spelled second := by
  induction first with
  | nil => exact absurd rfl some_byte
  | cons value first induction =>
      by_cases last : first = []
      · subst last
        exact spelled_cons value others
      · rw [List.cons_append, spelled_cons value (List.append_ne_nil_of_left_ne_nil last second),
          induction last, spelled_cons value last, List.append_assoc, List.cons_append]

theorem spelled_flatten {pieces : List (List UInt8)} (some_byte : ∀ piece ∈ pieces, piece ≠ []) :
    [' '].intercalate (pieces.map spelled) = spelled pieces.flatten := by
  induction pieces with
  | nil => rfl
  | cons piece pieces induction =>
      rw [List.forall_mem_cons] at some_byte
      cases pieces with
      | nil => simp
      | cons next pieces =>
          have others : (next :: pieces).flatten ≠ [] := by simp [some_byte.2]
          have later := induction some_byte.2
          rw [List.map_cons] at later
          rw [List.map_cons, List.map_cons, List.intercalate_cons_cons, later,
            List.flatten_cons (l := piece), spelled_append some_byte.1 others, List.append_assoc]
          rfl

open Listing in
theorem prose_spelled (bytes : List UInt8) : Prose (spelled bytes) := by
  have digit : ∀ half < 16, isProse (digits.getD half '0') = true := by decide
  have prose_pair (value : UInt8) : Prose (pair value) := by
    have small : value.toNat < 256 := value.toNat_lt
    have high : value.toNat / 16 < 16 := by omega
    have low : value.toNat % 16 < 16 := Nat.mod_lt _ (by decide)
    intro char member
    rcases List.mem_cons.mp member with rfl | member
    · exact digit _ high
    · rw [List.mem_singleton.mp member]
      exact digit _ low
  have blank : Prose [' '] := by decide
  induction bytes with
  | nil => exact List.forall_mem_nil _
  | cons value bytes induction =>
      by_cases last : bytes = []
      · subst last
        rw [spelled, List.map_singleton, List.intercalate_singleton]
        exact prose_pair value
      · rw [spelled_cons value last]
        exact prose_append_iff.mpr
          ⟨prose_pair value, prose_append_iff.mpr ⟨blank, induction⟩⟩

end Text.Hex

open Listing

theorem Operand.flatten_of_encode_fields {widths : List Nat} {values : List Operand}
    {bytes : List UInt8} (encoded : encodeFields widths values = .ok bytes) :
    (widths.zipWith BigEndian.encode values).flatten = bytes := by
  induction widths generalizing values bytes with
  | nil =>
      cases encoded
      rfl
  | cons width widths induction =>
      cases values with
      | nil =>
          cases encoded
          rfl
      | cons value values =>
          obtain ⟨front, rest, written, others, rfl⟩ := encode_fields_cons_iff.mp encoded
          rw [List.zipWith_cons_cons, List.flatten_cons, induction others,
            (encode_ok_iff.mp written).2.2]

namespace Item

def covered (stream : List UInt8) (item : Item) : List UInt8 :=
  (stream.drop item.offset).take item.size

theorem bytes_nonempty (item : Item) : item.bytes ≠ [] := by
  cases item with
  | instruction decoded => exact List.cons_ne_nil _ _
  | fault offset byte cause => exact List.cons_ne_nil _ _

end Item

namespace Table

theorem bytes_of_encode {table : Table} {instruction : Instruction} {operation : Operation}
    {bytes : List UInt8} (offset : Nat) (found : table.lookup instruction.opcode = .ok operation)
    (encoded : table.encode instruction = .ok bytes) :
    (Item.instruction ⟨offset, operation, instruction⟩).bytes = bytes := by
  obtain ⟨_, fields, looked, _, written, rfl⟩ := encode_ok_iff.mp encoded
  cases looked.symm.trans found
  rw [Item.bytes, Decoded.bytes, Operand.flatten_of_encode_fields written]

theorem bytes_scan_from (table : Table) (before stream : List UInt8) :
    ∀ item ∈ table.scanFrom before.length stream, item.bytes = item.covered (before ++ stream) := by
  generalize place : before.length = offset
  induction offset, stream using table.scan_induction generalizing before with
  | finished offset =>
      intro item member
      contradiction
  | instruction offset operation instruction bytes rest found encoded induction =>
      intro item member
      rw [scan_from_encoded found encoded, List.mem_cons] at member
      rcases member with rfl | member
      · subst place
        have size : bytes.length = operation.size := length_of_encode encoded found
        change _ = ((before ++ (bytes ++ rest)).drop before.length).take operation.size
        rw [bytes_of_encode _ found encoded, List.drop_left, ← size, List.take_left]
      · rw [← List.append_assoc]
        exact induction (before ++ bytes) (by rw [List.length_append, place]) item member
  | fault offset byte rest cause refused induction =>
      intro item member
      rw [scan_from_fault refused, List.mem_cons] at member
      rcases member with rfl | member
      · subst place
        change [byte] = ((before ++ byte :: rest).drop before.length).take 1
        rw [List.drop_left, List.take_succ_cons, List.take_zero]
      · rw [List.append_cons]
        exact induction (before ++ [byte]) (by simp [place]) item member

theorem flatten_scan_from (table : Table) (offset : Nat) (stream : List UInt8) :
    ((table.scanFrom offset stream).map Item.bytes).flatten = stream := by
  induction offset, stream using table.scan_induction with
  | finished offset => rfl
  | instruction offset operation instruction bytes rest found encoded induction =>
      rw [scan_from_encoded found encoded, List.map_cons, List.flatten_cons, induction,
        bytes_of_encode offset found encoded]
  | fault offset byte rest cause refused induction =>
      rw [scan_from_fault refused, List.map_cons, List.flatten_cons, induction]
      rfl

end Table

def Text.Showable (text : List Char) : Prop :=
  ∀ char ∈ text, Text.isControl char = false ∧ char ≠ '│'

instance (text : List Char) : Decidable (Text.Showable text) := List.decidableBAll _ text

theorem Text.flat_of_prose {text : List Char} (prose : Prose text) : Text.Flat text :=
  ⟨prose.absent rfl, prose.absent rfl, prose.absent rfl⟩

namespace Item

theorem flat_text {table : Table} {stream : List UInt8}
    (shown : ∀ name ∈ table.names, Text.Showable name.toList) :
    ∀ item ∈ table.scan stream, Text.Flat item.text.toList := by
  intro item member
  have absent {other : Char} (odd : isProse other = false)
      (unseen : ¬ (Text.isControl other = false ∧ other ≠ '│')) : other ∉ item.text.toList := by
    intro inside
    apply Table.absent_of_unnamed odd (fun name named found => unseen (shown name named other found)) 0
      item member
    exact List.mem_append_right _ (List.mem_cons_of_mem _ inside)
  exact ⟨absent rfl (by decide), absent rfl (by decide), absent rfl (by decide)⟩

theorem flat_cells {table : Table} {stream : List UInt8} (width : Nat)
    (shown : ∀ name ∈ table.names, Text.Showable name.toList) :
    ∀ item ∈ table.scan stream, ∀ cell ∈ item.cells width, Text.Flat cell.toList := by
  intro item member
  have column := prose_numeral (Text.Decimal.is_numeral_padded width item.offset)
  have hex : Prose (Text.Hex.spaced item.bytes).toList := by
    rw [Text.Hex.spaced_spelled]
    exact Text.Hex.prose_spelled item.bytes
  rw [cells, List.forall_mem_cons, List.forall_mem_cons, List.forall_mem_singleton]
  exact ⟨Text.flat_of_prose column, Text.flat_of_prose hex, flat_text shown item member⟩

/-- A line of the disassembly and a row of the ruled view that show the same item: the row has the
line's offset and the rest of the line, and between them the bytes in hexadecimal. -/
structure ShownTwice (stream : List UInt8) (width : Nat) (item : Item) (line row : List Char) :
    Prop where
  listed : item.LineOf width line
  inside : item.offset + item.size ≤ stream.length
  ruled : Text.Ruled.HasCells
    [line.take width, Text.Hex.spelled (item.covered stream), line.drop (width + 1)] row

theorem shown_twice {width : Nat} {item : Item} {stream : List UInt8} {row : List Char}
    (counted : item.Counted) (some_digit : 0 < width) (room : item.offset < 10 ^ width)
    (inside : item.offset + item.size ≤ stream.length) (bytes : item.bytes = item.covered stream)
    (drawn : Text.Ruled.HasCells ((item.cells width).map String.toList) row) :
    item.ShownTwice stream width (item.spelled width) row := by
  have length := Text.Decimal.length_padded some_digit room
  have behind : (item.spelled width).drop (width + 1) = item.text.toList := by
    rw [spelled, List.append_cons]
    apply List.drop_left'
    rw [List.length_append, length, List.length_singleton]
  refine ⟨line_of_spelled counted some_digit room, inside, ?_⟩
  rw [behind, spelled, List.take_left' length, ← bytes, ← Text.Hex.spaced_spelled]
  exact drawn

theorem shown_twice_each {width : Nat} {items : List Item} {stream : List UInt8}
    {rows : List (List Char)} (counted : ∀ item ∈ items, item.Counted) (some_digit : 0 < width)
    (room : ∀ item ∈ items, item.offset < 10 ^ width)
    (inside : ∀ item ∈ items, item.offset + item.size ≤ stream.length)
    (bytes : ∀ item ∈ items, item.bytes = item.covered stream)
    (drawn : List.Forall₂ (fun item row =>
      Text.Ruled.HasCells ((item.cells width).map String.toList) row) items rows) :
    List.Forall₂ (fun item shown => item.ShownTwice stream width shown.1 shown.2) items
      ((items.map (spelled width)).zip rows) := by
  induction drawn with
  | nil => exact .nil
  | cons first _ induction =>
      rw [List.forall_mem_cons] at counted room inside bytes
      exact .cons (shown_twice counted.1 some_digit room.1 inside.1 bytes.1 first)
        (induction counted.2 room.2 inside.2 bytes.2)

end Item

theorem Table.square_ruled_view {table : Table} (stream : List UInt8)
    (shown : ∀ name ∈ table.names, Text.Showable name.toList) : (table.ruledView stream).Square where
  some_column := List.cons_ne_nil _ _
  cells := by
    intro row member
    obtain ⟨item, _, rfl⟩ := List.mem_map.mp member
    rfl
  flat := by
    have titles : ∀ title ∈ ["Offset", "Bytes", "Instruction"], Prose title.toList := by decide
    refine List.forall_mem_cons.mpr ⟨?_, ?_⟩
    · intro title listed
      exact Text.flat_of_prose (titles title listed)
    · intro row member
      obtain ⟨item, scanned, rfl⟩ := List.mem_map.mp member
      exact Item.flat_cells _ shown item scanned

theorem Table.spelled_scan (table : Table) (stream : List UInt8) :
    [' '].intercalate ((table.scan stream).map fun item => Text.Hex.spelled (item.covered stream)) =
      Text.Hex.spelled stream := by
  have bytes := table.bytes_scan_from [] stream
  have pieces : (table.scan stream).map (fun item => Text.Hex.spelled (item.covered stream)) =
      ((table.scan stream).map Item.bytes).map Text.Hex.spelled := by
    rw [List.map_map]
    apply List.map_congr_left
    intro item member
    exact congrArg Text.Hex.spelled (bytes item member).symm
  have some_byte : ∀ piece ∈ (table.scan stream).map Item.bytes, piece ≠ [] := by
    intro piece listed
    obtain ⟨item, _, rfl⟩ := List.mem_map.mp listed
    exact item.bytes_nonempty
  rw [pieces, Text.Hex.spelled_flatten some_byte, scan, flatten_scan_from]

/-- The ruled view is a title line, a rule, a row for each line of the disassembly and a closing
rule, all equally wide, if no name has a control character or a bar. A line and its row show the
same item: the cells of the row are the offset of the line, the bytes that the item covers in the
stream, and what the line says behind its offset. Read in order, the bytes of all rows are the
stream. -/
theorem views_show_one_scan (table : Table) (stream : List UInt8)
    (shown : ∀ name ∈ table.names, Text.Showable name.toList) :
    ∃ (lines rows : List (List Char)) (title heading closing : List Char) (columns : Nat),
      (table.disassemble stream).toList = (lines.flatMap fun line => line ++ ['\n']) ∧
      (table.ruledView stream).render.toList =
        ((title :: heading :: (rows ++ [closing])).flatMap fun line => line ++ ['\n']) ∧
      (∀ line ∈ lines, '\n' ∉ line) ∧
      (∀ line ∈ title :: heading :: (rows ++ [closing]),
        '\n' ∉ line ∧ Text.displayWidth line = columns) ∧
      Text.Ruled.HasCells (["Offset", "Bytes", "Instruction"].map String.toList) title ∧
      Text.Ruled.IsRule '┼' 3 heading ∧ Text.Ruled.IsRule '┴' 3 closing ∧
      lines.length = rows.length ∧
      List.Forall₂ (fun item views =>
          item.ShownTwice stream (offsetWidth stream.length) views.1 views.2)
        (table.scan stream) (lines.zip rows) ∧
      [' '].intercalate
          ((table.scan stream).map fun item => Text.Hex.spelled (item.covered stream)) =
        Text.Hex.spelled stream := by
  obtain ⟨title, heading, closing, rows, columns, drawn, even, titled, ruled, closed, cells⟩ :=
    Text.ruled_lines (table.square_ruled_view stream shown)
  have counted (item : Item) (member : item ∈ table.scan stream) := Table.counted_of_scanned member
  have room (item : Item) (member : item ∈ table.scan stream) := table.offset_lt_pow member
  have inside (item : Item) (member : item ∈ table.scan stream) := table.scanned_inside member
  have written := table.disassemble_spelled stream
  have bytes := table.bytes_scan_from [] stream
  have some_digit := offset_width_pos stream.length
  have unbroken (width : Nat) : ∀ item ∈ table.scan stream, '\n' ∉ item.spelled width := by
    apply Table.absent_of_unnamed rfl
    intro name named inside
    exact absurd (shown name named _ inside).1 (by decide)
  replace cells := List.forall₂_map_left_iff.mp cells
  refine ⟨(table.scan stream).map (Item.spelled (offsetWidth stream.length)), rows, title, heading,
    closing, columns, written, drawn, ?_, even, titled, ruled, closed, ?_, ?_,
    table.spelled_scan stream⟩
  · intro line listed
    obtain ⟨item, member, rfl⟩ := List.mem_map.mp listed
    exact unbroken _ item member
  · rw [List.length_map, cells.length_eq]
  · exact Item.shown_twice_each counted some_digit room inside bytes cells

/-- The blanks around the name stay in the cell, among those that fill it up. -/
theorem blanks_of_name_kept :
    let table : Table := ⟨[⟨1, ⟨" Load ", [2]⟩⟩], by decide, by decide, by decide⟩
    let stream : List UInt8 := [7, 1, 0, 5]
    (∀ name ∈ table.names, Text.Showable name.toList) ∧
      table.disassemble stream = "0000 ERROR: opcode 7 undefined\n0001  Load  5\n" ∧
      ∃ lines rows : List (List Char), lines.length = rows.length ∧
        List.Forall₂ (fun (item : Item) views => item.ShownTwice stream 4 views.1 views.2)
          [.fault 0 7 (.undefinedOpcode 7), .instruction ⟨1, ⟨" Load ", [2]⟩, ⟨1, [5]⟩⟩]
          (lines.zip rows) := by
  intro table stream
  have shown : ∀ name ∈ table.names, Text.Showable name.toList := by decide
  have scanned : table.scan stream =
      [.fault 0 7 (.undefinedOpcode 7), .instruction ⟨1, ⟨" Load ", [2]⟩, ⟨1, [5]⟩⟩] := by decide
  have width : offsetWidth stream.length = 4 := by decide
  obtain ⟨lines, rows, _, _, _, _, _, _, _, _, _, _, _, same, twice, _⟩ :=
    views_show_one_scan table stream shown
  rw [scanned, width] at twice
  exact ⟨shown, by decide, lines, rows, same, twice⟩

end Opstream
