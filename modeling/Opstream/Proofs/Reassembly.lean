import Mathlib.Tactic.TFAE
import Opstream.Proofs.Listing
import Opstream.Proofs.Written

/-!
Which streams a listing can stand for. Main statement: the disassembly of a stream assembles to
the stream again exactly if any text does, and that is exactly if the stream holds nothing but
instructions whose names listings can spell.
-/

namespace Opstream

/-- Instructions alone, each of a name that listings can spell. -/
def Listable (items : List Item) : Prop :=
  ∀ item ∈ items, ∃ decoded, item = .instruction decoded ∧
    Listing.isName decoded.operation.name.toList = true

theorem Listable.fault_free {items : List Item} (listable : Listable items) :
    FaultFree items := by
  intro item member
  obtain ⟨decoded, same, _⟩ := listable item member
  exact ⟨decoded, same⟩

/-- No scan comes to the error for a wrong number of operands. -/
theorem Decoded.text_counted {decoded : Decoded} (counted : decoded.Counted) :
    decoded.text = decoded.operation.listed decoded.instruction.operands :=
  if_neg (not_not.mpr counted)

example : Operation.shown ⟨"OpConstant", [2]⟩ [1, 2] =
    "ERROR: operand len 2 does not match defined 1" := by decide

theorem Operation.listed_spelled (operation : Operation) (operands : List Operand) :
    (operation.listed operands).toList = Listing.spell operation.name.toList operands := by
  rw [listed, String.toList_append, String.toList_join, List.flatMap_map, Listing.spell]
  have blank (operand : Operand) :
      (" " ++ toString operand).toList = ' ' :: Nat.toDigits 10 operand.toNat := by
    have digits : (toString operand).toList = Nat.toDigits 10 operand.toNat := Nat.toList_repr
    rw [String.toList_append, digits]
    rfl
  simp only [blank]

namespace Item

/-- The line of an item without the line feed at its end. -/
def spelled (width : Nat) (item : Item) : List Char :=
  (Text.Decimal.padded width item.offset).toList ++ ' ' :: item.text.toList

theorem line_spelled (width : Nat) (item : Item) :
    (item.line width).toList = item.spelled width ++ ['\n'] := by
  simp [line, spelled]

theorem spelled_instruction (width : Nat) {decoded : Decoded} (counted : decoded.Counted) :
    (Item.instruction decoded).spelled width =
      (Text.Decimal.padded width decoded.offset).toList ++
        ' ' :: Listing.spell decoded.operation.name.toList decoded.instruction.operands := by
  rw [spelled, text, Decoded.text_counted counted, Operation.listed_spelled]
  rfl

theorem plain_instruction (width : Nat) {decoded : Decoded} (counted : decoded.Counted)
    (grammatical : Listing.isName decoded.operation.name.toList = true) :
    ∀ char ∈ (Item.instruction decoded).spelled width, Listing.isPlain char = true := by
  rw [spelled_instruction width counted]
  exact Listing.plain_spelled _ (Text.Decimal.is_numeral_padded width decoded.offset) grammatical

theorem unbroken_instruction (width : Nat) {decoded : Decoded} (counted : decoded.Counted)
    (grammatical : Listing.isName decoded.operation.name.toList = true) :
    '\n' ∉ (Item.instruction decoded).spelled width ∧
      '\r' ∉ (Item.instruction decoded).spelled width := by
  have plain := plain_instruction width counted grammatical
  exact ⟨Listing.not_mem_of_plain plain rfl, Listing.not_mem_of_plain plain rfl⟩

theorem read_instruction (width : Nat) {decoded : Decoded} (counted : decoded.Counted)
    (grammatical : Listing.isName decoded.operation.name.toList = true) :
    Listing.Line.read ((Item.instruction decoded).spelled width) =
      .instruction decoded.operation.name decoded.instruction.operands := by
  rw [spelled_instruction width counted, Listing.read_spelled _
    (Text.Decimal.is_numeral_padded width decoded.offset) grammatical, String.ofList_toList]

end Item

namespace Table

theorem disassemble_spelled (table : Table) (stream : List UInt8) :
    (table.disassemble stream).toList =
      ((table.scan stream).map (Item.spelled (offsetWidth stream.length))).flatMap
        fun line => line ++ ['\n'] := by
  simp only [disassemble, String.toList_join, List.flatMap_map, Item.line_spelled]

theorem lines_disassemble {table : Table} {stream : List UInt8}
    (unbroken : ∀ item ∈ table.scan stream, '\n' ∉ item.spelled (offsetWidth stream.length) ∧
      '\r' ∉ item.spelled (offsetWidth stream.length)) :
    Text.lines (table.disassemble stream).toList =
      (table.scan stream).map (Item.spelled (offsetWidth stream.length)) := by
  have whole : ∀ line ∈ (table.scan stream).map (Item.spelled (offsetWidth stream.length)),
      '\n' ∉ line := by
    intro line member
    obtain ⟨item, scanned, rfl⟩ := List.mem_map.mp member
    exact (unbroken item scanned).1
  rw [disassemble_spelled, Text.lines_ended _ whole, List.map_map]
  apply List.map_congr_left
  intro item scanned
  exact Text.drop_return_of_absent (unbroken item scanned).2

theorem statement_spelled {table : Table} {decoded : Decoded} {bytes : List UInt8} (width : Nat)
    (found : table.lookup decoded.instruction.opcode = .ok decoded.operation)
    (encoded : table.encode decoded.instruction = .ok bytes)
    (grammatical : Listing.isName decoded.operation.name.toList = true) :
    table.statement? ((Item.instruction decoded).spelled width) =
      some (.instruction decoded.instruction) := by
  have counted := counted_of_encode encoded found
  apply statement_instruction_iff.mpr
  exact ⟨_, lookup_ok_iff.mp found, rfl, counted, Item.read_instruction width counted grammatical⟩

theorem reassemble_of_listable {table : Table} {stream : List UInt8}
    (listable : Listable (table.scan stream)) : table.reassemble stream = .ok stream := by
  have encoded := encode_all_of_fault_free listable.fault_free
  have unbroken : ∀ item ∈ table.scan stream, '\n' ∉ item.spelled (offsetWidth stream.length) ∧
      '\r' ∉ item.spelled (offsetWidth stream.length) := by
    intro item member
    obtain ⟨decoded, rfl, grammatical⟩ := listable item member
    exact Item.unbroken_instruction _ (counted_of_scanned member) grammatical
  apply assemble_ok_iff.mpr
  refine ⟨_, ?_, encoded⟩
  rw [lines_disassemble unbroken, List.filterMap_map, List.map_filterMap]
  apply List.filterMap_congr
  intro item member
  obtain ⟨decoded, rfl, grammatical⟩ := listable item member
  obtain ⟨found, bytes, encoded⟩ := scanned_accepted member
  rw [Function.comp_apply, statement_spelled _ found encoded grammatical]
  rfl

theorem listable_of_assemble {table : Table} {text : String} {stream : List UInt8}
    (assembled : table.assemble text = .ok stream) : Listable (table.scan stream) := by
  obtain ⟨program, meant, encoded⟩ := assemble_ok_iff.mp assembled
  have scanned := encode_all_iff_scan.mp encoded
  intro item member
  obtain ⟨decoded, rfl⟩ := fault_free_of_instructions scanned item member
  refine ⟨decoded, rfl, ?_⟩
  have found := (scanned_accepted member).1
  have kept : some decoded.instruction ∈ program.map some :=
    scanned ▸ List.mem_map_of_mem member
  obtain ⟨_, written, same⟩ := List.mem_map.mp kept
  cases same
  have line_of : Listing.Statement.instruction decoded.instruction ∈
      (Text.lines text.toList).filterMap table.statement? :=
    meant ▸ List.mem_map_of_mem written
  obtain ⟨line, _, read⟩ := List.mem_filterMap.mp line_of
  obtain ⟨⟨opcode, operation⟩, entry, rfl, _, spelled⟩ := statement_instruction_iff.mp read
  cases (lookup_ok_iff.mpr entry).symm.trans found
  exact Listing.name_of_read spelled

end Table

/-- A stream can be listed exactly if all its items are instructions with names that listings
can spell. Then its disassembly is such a listing; one other name is enough for it not to be. -/
theorem reassembles_iff_listable (table : Table) (stream : List UInt8) :
    [table.reassemble stream = .ok stream,
      ∃ text, table.assemble text = .ok stream,
      Listable (table.scan stream)].TFAE ∧
    ∀ decoded, .instruction decoded ∈ table.scan stream →
      Listing.isName decoded.operation.name.toList = false →
        table.reassemble stream ≠ .ok stream := by
  constructor
  · tfae_have 1 → 2 := by
      intro reassembled
      exact ⟨table.disassemble stream, reassembled⟩
    tfae_have 2 → 3 := by
      intro listed
      obtain ⟨text, assembled⟩ := listed
      exact Table.listable_of_assemble assembled
    tfae_have 3 → 1 := Table.reassemble_of_listable
    tfae_finish
  · intro decoded member odd reassembled
    obtain ⟨_, same, grammatical⟩ := Table.listable_of_assemble reassembled _ member
    cases same
    rw [odd] at grammatical
    contradiction

/-- The line of a name with a blank in it reads as a shorter name with an operand. -/
theorem blank_in_name_not_reassembled :
    let spaced : Table := ⟨[⟨1, ⟨"Push 8", []⟩⟩], by decide, by decide, by decide⟩
    let decoded : Decoded := ⟨0, ⟨"Push 8", []⟩, ⟨1, []⟩⟩
    .instruction decoded ∈ spaced.scan [1] ∧
      Listing.isName decoded.operation.name.toList = false ∧
      spaced.reassemble [1] ≠ .ok [1] := by
  intro spaced decoded
  have member : .instruction decoded ∈ spaced.scan [1] := by decide
  have odd : Listing.isName decoded.operation.name.toList = false := by decide
  exact ⟨member, odd, (reassembles_iff_listable spaced [1]).2 decoded member odd⟩

end Opstream
