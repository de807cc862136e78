import Opstream.Disassembly.Log
import Opstream.Proofs.Views

/-!
The log of a scan beside its disassembly. Main statement: a walk over a stream logs one record for
each item it comes to, in their order, and the record tells what the item's piece of the
disassembly shows. The two differ at most by zeros in front of an offset, and in a stream of up to
ten thousand bytes an instruction is told in the very same words.
-/

namespace Opstream

namespace Walk

theorem next_scanner (walk : Walk) :
    walk.next.1 = walk.scanner.next.1 ∧ walk.next.2.scanner = walk.scanner.next.2 ∧
      walk.next.2.log = walk.log ++ walk.next.1.toList.map Item.logRecord := by
  obtain ⟨table, stream, cursor, log⟩ := walk
  by_cases inside : cursor < stream.length
  · have ahead : stream.drop cursor = stream[cursor] :: stream.drop (cursor + 1) :=
      List.drop_eq_getElem_cons inside
    have decode : table.decode stream cursor =
        table.decodeHead cursor stream[cursor] (stream.drop (cursor + 1)) := by
      rw [Table.decode, ahead]
    rw [next, dif_pos inside, scanner, ahead]
    simp only [Scanner.next, Table.itemAt, decode]
    cases outcome : table.decodeHead cursor stream[cursor] (stream.drop (cursor + 1)) with
    | ok decoded =>
        obtain ⟨place, _, _⟩ := Table.decode_head_ok_iff.mp outcome
        refine ⟨rfl, ?_, ?_⟩
        · simp [report, scanner, ← ahead, List.drop_drop, Item.size]
        · change log ++ [_] = log ++ [Item.logRecord (.instruction decoded)]
          rw [Item.logRecord, place]
    | error cause =>
        refine ⟨rfl, ?_, rfl⟩
        simp [report, scanner, Item.size]
  · have ended : stream.drop cursor = [] := List.drop_eq_nil_of_le (Nat.le_of_not_lt inside)
    rw [next, dif_neg inside, scanner, ended]
    exact ⟨rfl, rfl, (List.append_nil _).symm⟩

theorem take_scanner (count : Nat) (walk : Walk) :
    (walk.take count).1 = walk.scanner.take count ∧
      (walk.take count).2.log =
        walk.log ++ ((walk.scanner.take count).filterMap id).map Item.logRecord := by
  induction count generalizing walk with
  | zero => exact ⟨rfl, (List.append_nil _).symm⟩
  | succ count induction =>
      obtain ⟨answer, after, logged⟩ := walk.next_scanner
      obtain ⟨answers, rest⟩ := induction walk.next.2
      have step : walk.scanner.take (count + 1) =
          walk.next.1 :: walk.next.2.scanner.take count := by
        rw [Scanner.take, answer, after]
      constructor
      · rw [step, ← answers]
        rfl
      · rw [step]
        change (walk.next.2.take count).2.log = _
        rw [rest, logged, List.append_assoc]
        cases walk.next.1 <;> rfl

end Walk

theorem Walk.take_start (table : Table) (stream : List UInt8) (count : Nat) :
    let (answers, last) := (Walk.start table stream).take count
    answers = ((table.scan stream).take count).map some ++
        List.replicate (count - (table.scan stream).length) none ∧
      last.log = ((table.scan stream).take count).map Item.logRecord := by
  obtain ⟨answers, logged⟩ := (Walk.start table stream).take_scanner count
  have scanned : (Walk.start table stream).scanner.take count = _ :=
    (Scanner.start table stream).take_ahead count
  refine ⟨answers.trans scanned, ?_⟩
  rw [logged, scanned, List.filterMap_append, List.filterMap_map, Function.id_comp,
    List.filterMap_some, List.filterMap_replicate_of_none rfl, List.append_nil]
  rfl

namespace Text.Decimal

structure Column (value count : Nat) (column : String) : Prop where
  digits : ∀ char ∈ column.toList, char.isDigit = true
  numeral : Nat.ofDigitChars 10 column.toList 0 = value
  length : column.toList.length = count

theorem padded_widened {less more : Nat} (wider : less ≤ more) (value : Nat) :
    padded more value =
      String.ofList (List.replicate (more - (padded less value).toList.length) '0') ++
        padded less value := by
  rw [length_padded_eq, padded, padded, ← String.ofList_append, List.leftpad, List.leftpad,
    ← List.append_assoc, List.replicate_append_replicate]
  congr 3
  omega

end Text.Decimal

/-- What a record tells of an item whose piece of the disassembly is given. -/
inductive Told (stream : List UInt8) : Item → String → LogRecord → Prop where
  | instruction (decoded : Decoded) {column : String}
      (place : Text.Decimal.Column decoded.offset
        (max 4 (Nat.toDigits 10 decoded.offset).length) column) :
      Told stream (.instruction decoded)
        (String.ofList (List.replicate (offsetWidth stream.length - column.toList.length) '0') ++
          (column ++ " " ++ decoded.operation.listed decoded.instruction.operands ++ "\n"))
        ⟨.trace, column ++ " " ++ decoded.operation.listed decoded.instruction.operands⟩
  | fault {offset : Nat} {byte : UInt8} (cause : CodeError) {column : String}
      (there : stream[offset]? = some byte)
      (place : Text.Decimal.Column offset (offsetWidth stream.length) column) :
      Told stream (.fault offset byte cause)
        (column ++ " " ++ ("ERROR: " ++ cause.message) ++ "\n")
        ⟨.debug, "cannot decode byte " ++ Nat.repr byte.toNat ++ " at offset " ++ Nat.repr offset ++
          ": " ++ cause.message⟩

theorem Table.byte_of_fault {table : Table} {stream : List UInt8} {offset : Nat} {byte : UInt8}
    {cause : CodeError} (member : .fault offset byte cause ∈ table.scan stream) :
    stream[offset]? = some byte := by
  have covered : [byte] = (stream.drop offset).take 1 := table.bytes_scan_from [] stream _ member
  have first := congrArg List.head? covered
  rw [List.head?_take, if_neg Nat.one_ne_zero, List.head?_drop] at first
  exact first.symm

theorem Table.told_scan {table : Table} {stream : List UInt8} {item : Item}
    (member : item ∈ table.scan stream) :
    Told stream item (item.line (offsetWidth stream.length)) item.logRecord := by
  cases item with
  | instruction decoded =>
      have four : 4 ≤ offsetWidth stream.length := (offset_width_least stream.length).1.1
      have length := Text.Decimal.length_padded_eq 4 decoded.offset
      have told := @Told.instruction stream decoded _
        ⟨Text.Decimal.digits_padded 4 _, Text.Decimal.numeral_padded 4 _, length⟩
      rw [Item.line, Item.offset, Text.Decimal.padded_widened four]
      simpa only [Item.logRecord, Item.text, Decoded.text_counted (counted_of_scanned member),
        String.append_assoc] using told
  | fault offset byte cause =>
      have length := Text.Decimal.length_padded (offset_width_pos stream.length)
        (table.offset_lt_pow member)
      exact .fault cause (table.byte_of_fault member)
        ⟨Text.Decimal.digits_padded _ offset, Text.Decimal.numeral_padded _ offset, length⟩

theorem Told.message_of_short {stream : List UInt8} {item : Item} {piece : String}
    {record : LogRecord} (told : Told stream item piece record) (short : stream.length ≤ 10000)
    (traced : record.severity = .trace) : piece = record.message ++ "\n" := by
  cases told with
  | instruction decoded place =>
      have length := place.length
      rw [offset_width_short short, Nat.sub_eq_zero_of_le (by omega)]
      exact String.empty_append
  | fault => cases traced

/-- A walk logs one record for each item that it comes to, in their order, and none behind the last.
Of every item the record and the piece of the disassembly tell the same: the offset, of which only
the number of zeros in front may differ, and then the instruction or the reason why there is none.
In a stream of at most ten thousand bytes the record of an instruction is its line. -/
theorem log_tells_disassembly (table : Table) (stream : List UInt8) :
    (∀ count,
      let (answers, last) := (Walk.start table stream).take count
      answers = ((table.scan stream).take count).map some ++
          List.replicate (count - (table.scan stream).length) none ∧
        last.log = (table.scanLog stream).take count) ∧
    (table.scanLog stream).length = (table.scan stream).length ∧
    ∃ pieces : List String, table.disassemble stream = String.join pieces ∧
      pieces.length = (table.scan stream).length ∧
      ∀ (index : Nat) (item : Item) (piece : String) (record : LogRecord),
        (table.scan stream)[index]? = some item → pieces[index]? = some piece →
          (table.scanLog stream)[index]? = some record →
            Told stream item piece record ∧
              (stream.length ≤ 10000 → record.severity = .trace →
                piece = record.message ++ "\n") := by
  refine ⟨?_, List.length_map _, _, rfl, List.length_map _, ?_⟩
  · intro count
    rw [Table.scanLog, ← List.map_take]
    exact Walk.take_start table stream count
  · intro index item piece record scanned shown logged
    rw [List.getElem?_map, scanned] at shown
    rw [Table.scanLog, List.getElem?_map, scanned] at logged
    cases shown
    cases logged
    have told := Table.told_scan (List.mem_of_getElem? scanned)
    exact ⟨told, told.message_of_short⟩

/-- The operand of the second constant is cut short, so its record comes with the byte that stands
there. -/
theorem constant_and_fault_logged :
    let stream : List UInt8 := [0, 0, 1, 0]
    let constant : Item := .instruction ⟨0, ⟨"OpConstant", [2]⟩, ⟨0, [1]⟩⟩
    let cut : CodeError := .shortOperand 4 2 0
    Table.standard.scan stream = [constant, .fault 3 0 cut] ∧
      Table.standard.scanLog stream = [⟨.trace, "0000 OpConstant 1"⟩,
        ⟨.debug, "cannot decode byte 0 at offset 3: " ++ cut.message⟩] ∧
      ∃ first second, Table.standard.disassemble stream = first ++ second ∧
        first = "0000 OpConstant 1" ++ "\n" ∧
        Told stream (.fault 3 0 cut) second
          ⟨.debug, "cannot decode byte 0 at offset 3: " ++ cut.message⟩ := by
  intro stream constant cut
  have scanned : Table.standard.scan stream = [constant, .fault 3 0 cut] := by decide
  have logged : Table.standard.scanLog stream = [⟨.trace, "0000 OpConstant 1"⟩,
      ⟨.debug, "cannot decode byte 0 at offset 3: " ++ cut.message⟩] := by decide
  obtain ⟨_, _, pieces, joined, count, tell⟩ := log_tells_disassembly Table.standard stream
  rw [scanned] at count tell
  rw [logged] at tell
  obtain ⟨first, second, rfl⟩ := List.length_eq_two.mp count
  obtain ⟨_, same⟩ := tell 0 constant first _ rfl rfl rfl
  obtain ⟨told, _⟩ := tell 1 (.fault 3 0 cut) second _ rfl rfl rfl
  have whole : String.join [first, second] = first ++ second := by simp [String.join]
  exact ⟨scanned, logged, first, second, joined.trans whole, same (by decide) rfl, told⟩

end Opstream
