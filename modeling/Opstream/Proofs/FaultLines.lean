import Opstream.Proofs.Joining
import Opstream.Proofs.Meaning
import Opstream.Proofs.Reassembly

/-!
Faults in a disassembly. Main statement: the line of a fault is none that a listing may have, so
the disassembly of a stream with faults is refused, at the first of them and with its whole line.
-/

namespace Opstream

namespace Text

theorem alphanum_range {char : Char} (solid : char.isAlphanum = true) :
    0x30 ≤ char.toNat ∧ char.toNat ≤ 0x7a := by
  have between {low high : UInt32} (above : low ≤ char.val) (below : char.val ≤ high)
      (least : 0x30 ≤ low.toNat) (greatest : high.toNat ≤ 0x7a) :
      0x30 ≤ char.toNat ∧ char.toNat ≤ 0x7a :=
    ⟨Nat.le_trans least above, Nat.le_trans below greatest⟩
  rcases Bool.or_eq_true_iff.mp solid with letter | digit
  · rcases Bool.or_eq_true_iff.mp letter with upper | lower
    · obtain ⟨above, below⟩ := of_decide_eq_true upper
      exact between above below (by decide) (by decide)
    · obtain ⟨above, below⟩ := Bool.and_eq_true_iff.mp lower
      exact between (of_decide_eq_true above) (of_decide_eq_true below) (by decide) (by decide)
  · obtain ⟨above, below⟩ := Bool.and_eq_true_iff.mp digit
    exact between (of_decide_eq_true above) (of_decide_eq_true below) (by decide) (by decide)

theorem not_white_of_alphanum {char : Char} (solid : char.isAlphanum = true) :
    isWhiteSpace char = false := by
  have range := alphanum_range solid
  simp only [isWhiteSpace, Bool.or_eq_false_iff, Bool.and_eq_false_iff, decide_eq_false_iff_not,
    List.contains_eq_mem, List.mem_cons, List.not_mem_nil, or_false]
  omega

theorem trim_of_solid_ends {text : List Char}
    (start : ∀ char ∈ text.head?, isWhiteSpace char = false)
    (stop : ∀ char ∈ text.getLast?, isWhiteSpace char = false) : trim text = text := by
  have no_run : ∀ char ∈ ([] : List Char), isWhiteSpace char = true := by simp
  have front : text.dropWhile isWhiteSpace = text := drop_run no_run start
  have back : text.reverse.dropWhile isWhiteSpace = text.reverse := by
    rw [← List.head?_reverse] at stop
    exact drop_run no_run stop
  rw [trim, front, trimEnd, back, List.reverse_reverse]

end Text

namespace Listing

/-- The characters of the lines of faults. None of them can break a line or open a comment. -/
def isProse (char : Char) : Bool := isPlain char || [':', '(', ')'].contains char

def Prose (text : List Char) : Prop := ∀ char ∈ text, isProse char = true

-- Named, since a search may find the instance that tries every character there is.
instance (text : List Char) : Decidable (Prose text) := List.decidableBAll _ text

theorem prose_append_iff {first second : List Char} :
    Prose (first ++ second) ↔ Prose first ∧ Prose second := List.forall_mem_append

theorem prose_numeral {digits : List Char} (numeral : Text.Decimal.isNumeral digits = true) :
    Prose digits := by
  intro char member
  have digit := (is_numeral_iff.mp numeral).2 char member
  simp [isProse, isPlain, is_alphanum_of_digit digit]

theorem Prose.absent {text : List Char} (prose : Prose text) {other : Char}
    (odd : isProse other = false) : other ∉ text := by
  intro member
  rw [prose other member] at odd
  contradiction

/-- A colon is no part of a name, not even of one that is called ERROR. -/
theorem read_marked {column message : List Char}
    (numeral : Text.Decimal.isNumeral column = true)
    (unmarked : '#' ∉ column ++ ' ' :: ("ERROR:".toList ++ ' ' :: message)) :
    Line.read (column ++ ' ' :: ("ERROR:".toList ++ ' ' :: message)) = .malformed := by
  have solid : ∀ char ∈ column, isGap char = false := by
    intro char member
    exact is_gap_of_alphanum (is_alphanum_of_digit ((is_numeral_iff.mp numeral).2 char member))
  have mark : ∀ char ∈ "ERROR:".toList, isGap char = false := by
    simp [isGap]
  have found : words (column ++ ' ' :: ("ERROR:".toList ++ ' ' :: message)) =
      column :: "ERROR:".toList :: words message := by
    rw [words_gap_append _ _ ' ' rfl, words_single _ solid (is_numeral_iff.mp numeral).1,
      words_gap_append _ _ ' ' rfl, words_single _ mark (by decide)]
    rfl
  have unnamed : instruction? ("ERROR:".toList :: words message) = none := by
    rw [instruction?, if_neg (by decide)]
  have read := read_parts unmarked none
  rw [commentText, List.append_nil, if_neg List.not_mem_nil, found] at read
  rw [read, readWords, if_pos numeral, unnamed]
  rfl

end Listing

open Listing

namespace CodeError

theorem undefined_opcode_spelled (opcode : UInt8) :
    (undefinedOpcode opcode).message.toList =
      "opcode ".toList ++ (Nat.toDigits 10 opcode.toNat ++ " undefined".toList) := by
  have whole : (undefinedOpcode opcode).message = "opcode " ++ toString opcode ++ " undefined" := rfl
  have number : (toString opcode).toList = Nat.toDigits 10 opcode.toNat := Nat.toList_repr
  rw [whole, String.toList_append, String.toList_append, number, List.append_assoc]

theorem short_operand_spelled (offset width available : Nat) :
    (shortOperand offset width available).message.toList =
      "operand of width ".toList ++ (Nat.toDigits 10 width ++ (" needs ".toList ++
        (Nat.toDigits 10 width ++ (" byte(s) at offset ".toList ++ (Nat.toDigits 10 offset ++
          (" but only ".toList ++ (Nat.toDigits 10 available ++ " remain".toList))))))) := by
  have number (value : Nat) : (toString value).toList = Nat.toDigits 10 value := Nat.toList_repr
  have whole : (shortOperand offset width available).message =
      "operand of width " ++ toString width ++ " needs " ++ toString width ++
        " byte(s) at offset " ++ toString offset ++ " " ++
        ("but only " ++ toString available ++ " remain") := rfl
  have joined : " ".toList ++ "but only ".toList = " but only ".toList := rfl
  simp only [whole, String.toList_append, number, List.append_assoc, ← joined]

theorem prose_of_refused {table : Table} {offset : Nat} {byte : UInt8} {window : List UInt8}
    {cause : CodeError} (refused : table.decodeHead offset byte window = .error cause) :
    Prose cause.message.toList ∧
      ∃ last, cause.message.toList.getLast? = some last ∧ last.isAlphanum = true := by
  have digits (value : Nat) : Prose (Nat.toDigits 10 value) :=
    prose_numeral (Text.Decimal.is_numeral_digits value)
  rcases Table.decode_head_error_iff.mp refused with ⟨_, rfl⟩ | ⟨operation, _, short⟩
  · have final : " undefined".toList.getLast? = some 'd' := rfl
    rw [undefined_opcode_spelled]
    constructor
    · simp only [prose_append_iff, digits, true_and]
      decide
    · refine ⟨'d', ?_, by decide⟩
      simp only [List.getLast?_append, final, Option.some_or]
  · obtain ⟨field, width, _, rfl⟩ := Operand.short_field_some_iff.mp short
    have final : " remain".toList.getLast? = some 'n' := rfl
    rw [short_operand_spelled]
    constructor
    · simp only [prose_append_iff, digits, true_and]
      decide
    · refine ⟨'n', ?_, by decide⟩
      simp only [List.getLast?_append, final, Option.some_or]

end CodeError

namespace Item

theorem spelled_fault (width offset : Nat) (byte : UInt8) (cause : CodeError) :
    (Item.fault offset byte cause).spelled width =
      (Text.Decimal.padded width offset).toList ++
        ' ' :: ("ERROR:".toList ++ ' ' :: cause.message.toList) := by
  rw [spelled, text, String.toList_append]
  rfl

section Fault

variable {table : Table} {offset : Nat} {byte : UInt8} {window : List UInt8} {cause : CodeError}
  (refused : table.decodeHead offset byte window = .error cause) (width : Nat)

include refused

theorem prose_fault : Prose ((Item.fault offset byte cause).spelled width) := by
  have column := prose_numeral (Text.Decimal.is_numeral_padded width offset)
  have mark : Prose (' ' :: ("ERROR:".toList ++ [' '])) := by decide
  have message := (CodeError.prose_of_refused refused).1
  have whole := prose_append_iff.mpr ⟨column, prose_append_iff.mpr ⟨mark, message⟩⟩
  rw [spelled_fault]
  simpa using whole

theorem read_fault : Line.read ((Item.fault offset byte cause).spelled width) = .malformed := by
  have unmarked : '#' ∉ (Item.fault offset byte cause).spelled width :=
    (prose_fault refused width).absent rfl
  rw [spelled_fault] at unmarked ⊢
  exact read_marked (Text.Decimal.is_numeral_padded width offset) unmarked

theorem trim_fault :
    Text.trim ((Item.fault offset byte cause).spelled width) =
      (Item.fault offset byte cause).spelled width := by
  have numeral := is_numeral_iff.mp (Text.Decimal.is_numeral_padded width offset)
  obtain ⟨last, final, letter⟩ := (CodeError.prose_of_refused refused).2
  rw [spelled_fault]
  apply Text.trim_of_solid_ends
  · intro char head
    have digit := head_of_run numeral.1 numeral.2 _ char head
    exact Text.not_white_of_alphanum (is_alphanum_of_digit digit)
  · have ended : ((Text.Decimal.padded width offset).toList ++
        ' ' :: ("ERROR:".toList ++ ' ' :: cause.message.toList)).getLast? = some last := by
      simp [List.getLast?_append, List.getLast?_cons, final]
    rw [ended]
    intro char same
    cases same
    exact Text.not_white_of_alphanum letter

theorem statement_fault :
    table.statement? ((Item.fault offset byte cause).spelled width) =
      some (.malformed (String.ofList ((Item.fault offset byte cause).spelled width))) := by
  simp only [Table.statement?, read_fault refused width, trim_fault refused width]

end Fault

end Item

namespace Table

theorem name_of_scanned {table : Table} {stream : List UInt8} {decoded : Decoded}
    (member : .instruction decoded ∈ table.scan stream) : decoded.operation.name ∈ table.names :=
  List.mem_map_of_mem (f := fun entry : Entry => entry.operation.name)
    (lookup_ok_iff.mp (scanned_accepted member).1)

theorem line_of_instruction {table : Table} {stream : List UInt8} {decoded : Decoded} (width : Nat)
    (member : .instruction decoded ∈ table.scan stream)
    (grammatical : isName decoded.operation.name.toList = true) :
    ∃ bytes, table.encodeLine ((Item.instruction decoded).spelled width) = .ok bytes := by
  obtain ⟨found, bytes, encoded⟩ := scanned_accepted member
  rw [encodeLine, statement_spelled width found encoded grammatical]
  exact ⟨bytes, Statement.encode_ok_iff.mpr ⟨_, rfl, encoded⟩⟩

theorem line_of_fault {table : Table} {offset : Nat} {byte : UInt8} {window : List UInt8}
    {cause : CodeError} (width : Nat)
    (refused : table.decodeHead offset byte window = .error cause) :
    table.encodeLine ((Item.fault offset byte cause).spelled width) =
      .error (.malformed (String.ofList ((Item.fault offset byte cause).spelled width))) := by
  rw [encodeLine, Item.statement_fault refused width]
  rfl

/-- A character that neither names nor the lines of faults have is in no line at all. -/
theorem absent_of_unnamed {table : Table} {stream : List UInt8} {other : Char}
    (odd : isProse other = false) (unnamed : ∀ name ∈ table.names, other ∉ name.toList)
    (width : Nat) : ∀ item ∈ table.scan stream, other ∉ item.spelled width := by
  intro item member
  cases item with
  | fault offset byte cause =>
      obtain ⟨window, refused⟩ := scanned_refused member
      exact (Item.prose_fault refused width).absent odd
  | instruction decoded =>
      have column := prose_numeral (Text.Decimal.is_numeral_padded width decoded.offset)
      have blank : Prose [' '] := by decide
      have operands : Prose (decoded.instruction.operands.flatMap fun operand =>
          ' ' :: Nat.toDigits 10 operand.toNat) := by
        intro char found
        obtain ⟨operand, _, inside⟩ := List.mem_flatMap.mp found
        exact prose_append_iff.mpr
          ⟨blank, prose_numeral (Text.Decimal.is_numeral_digits operand.toNat)⟩ char inside
      rw [Item.spelled_instruction width (counted_of_scanned member), spell, List.mem_append, List.mem_cons, List.mem_append]
      rintro (inside | rfl | inside | inside)
      · exact column.absent odd inside
      · exact blank.absent odd List.mem_cons_self
      · exact unnamed _ (name_of_scanned member) inside
      · exact operands.absent odd inside

theorem unbroken_of_spellable {table : Table}
    (spellable : ∀ name ∈ table.names, isName name.toList = true) (stream : List UInt8)
    (width : Nat) :
    ∀ item ∈ table.scan stream, '\n' ∉ item.spelled width ∧ '\r' ∉ item.spelled width := by
  have unnamed {other : Char} (odd : isPlain other = false) :
      ∀ name ∈ table.names, other ∉ name.toList := by
    intro name listed
    apply not_mem_of_plain _ odd
    intro char inside
    simp [isPlain, is_alphanum_of_name (is_name_iff.mp (spellable name listed)) char inside]
  intro item member
  exact ⟨absent_of_unnamed rfl (unnamed rfl) width item member,
    absent_of_unnamed rfl (unnamed rfl) width item member⟩

end Table

theorem first_fault {items : List Item} (faulty : ¬ FaultFree items) :
    ∃ before offset byte cause after,
      items = before ++ .fault offset byte cause :: after ∧ FaultFree before := by
  induction items with
  | nil => exact absurd (by intro item member; cases member) faulty
  | cons item items induction =>
      cases item with
      | fault offset byte cause =>
          exact ⟨[], offset, byte, cause, items, rfl, by intro item member; cases member⟩
      | instruction decoded =>
          have later : ¬ FaultFree items := by
            intro clean
            exact faulty (List.forall_mem_cons.mpr ⟨⟨decoded, rfl⟩, clean⟩)
          obtain ⟨before, offset, byte, cause, after, rfl, clean⟩ := induction later
          exact ⟨.instruction decoded :: before, offset, byte, cause, after, rfl,
            List.forall_mem_cons.mpr ⟨⟨decoded, rfl⟩, clean⟩⟩

/-- Let all names of a table be such that listings can spell them. If the scan of a stream has a
fault, then its disassembly does not assemble: the line of the first fault is malformed. Its number
is the place of the fault among the items, and its whole text is reported. -/
theorem first_fault_stops_reassembly (table : Table) (stream : List UInt8)
    (spellable : ∀ name ∈ table.names, isName name.toList = true)
    (faulty : ¬ FaultFree (table.scan stream)) :
    ∃ before offset byte cause after text,
      table.scan stream = before ++ .fault offset byte cause :: after ∧ FaultFree before ∧
      text ++ "\n" = (Item.fault offset byte cause).line (offsetWidth stream.length) ∧
      (Text.lines (table.disassemble stream).toList)[before.length]? = some text.toList ∧
      table.reassemble stream = .error ⟨before.length + 1, .malformed text⟩ := by
  obtain ⟨before, offset, byte, cause, after, split, clean⟩ := first_fault faulty
  have member : Item.fault offset byte cause ∈ table.scan stream := by simp [split]
  obtain ⟨window, refused⟩ := Table.scanned_refused member
  have lines := Table.lines_disassemble (table.unbroken_of_spellable spellable stream _)
  generalize offsetWidth stream.length = width at lines ⊢
  rw [split, List.map_append, List.map_cons] at lines
  have accepted : ∀ earlier ∈ before.map (Item.spelled width),
      ∃ bytes, table.encodeLine earlier = .ok bytes := by
    intro earlier listed
    obtain ⟨item, front, rfl⟩ := List.mem_map.mp listed
    obtain ⟨decoded, rfl⟩ := clean item front
    have scanned : .instruction decoded ∈ table.scan stream := by simp [split, front]
    exact Table.line_of_instruction width scanned (spellable _ (Table.name_of_scanned scanned))
  refine ⟨before, offset, byte, cause, after,
    String.ofList ((Item.fault offset byte cause).spelled width), split, clean, ?_, ?_, ?_⟩
  · apply String.toList_inj.mp
    rw [Item.line_spelled, String.toList_append, String.toList_ofList]
    rfl
  · rw [lines, String.toList_ofList]
    simp
  · rw [Table.reassemble, Table.assemble_eq_encode_lines, Table.encode_lines_error_iff]
    refine ⟨_, _, _, lines, accepted, Table.line_of_fault width refused, ?_⟩
    rw [List.length_map]

/-- The table has an operation of the name that marks faults, and the stream has it too. -/
theorem fault_behind_error_refused :
    let table : Table := ⟨[⟨1, ⟨"ERROR", []⟩⟩, ⟨2, ⟨"Load", [2]⟩⟩], by decide, by decide, by decide⟩
    let stream : List UInt8 := [1, 2, 7]
    (∀ name ∈ table.names, isName name.toList = true) ∧ ¬ FaultFree (table.scan stream) ∧
      table.disassemble stream = "0000 ERROR\n" ++
        "0001 ERROR: operand of width 2 needs 2 byte(s) at offset 2 but only 1 remain\n" ++
        "0002 ERROR: opcode 7 undefined\n" ∧
      ∃ text, text ++ "\n" = (Item.fault 1 2 (.shortOperand 2 2 1)).line 4 ∧
        table.reassemble stream = .error ⟨2, .malformed text⟩ := by
  intro table stream
  have spellable : ∀ name ∈ table.names, isName name.toList = true := by decide
  have scanned : table.scan stream = [.instruction ⟨0, ⟨"ERROR", []⟩, ⟨1, []⟩⟩,
      .fault 1 2 (.shortOperand 2 2 1), .fault 2 7 (.undefinedOpcode 7)] := by decide
  have faulty : ¬ FaultFree (table.scan stream) := by
    intro clean
    obtain ⟨_, same⟩ := clean (.fault 2 7 (.undefinedOpcode 7)) (by simp [scanned])
    cases same
  obtain ⟨before, offset, byte, cause, after, text, split, clean, line, _, refused⟩ :=
    first_fault_stops_reassembly table stream spellable faulty
  have width : offsetWidth stream.length = 4 := by decide
  rw [scanned] at split
  rw [width] at line
  refine ⟨spellable, faulty, by decide, text, ?_⟩
  rcases before with _ | ⟨first, _ | ⟨second, rest⟩⟩
  · cases split
  · cases split
    exact ⟨line, refused⟩
  · obtain ⟨_, rfl⟩ := clean second (by simp)
    cases split

end Opstream
