import Opstream.Instruction
import Opstream.Proofs.Fields
import Opstream.Proofs.Lookup

/-!
One instruction and its bytes. Main statement: an instruction is found in front of a window
exactly if the table encodes it as the front of that window, as long as its operation is.
-/

namespace Opstream

theorem Operation.size_eq (operation : Operation) :
    operation.size = operation.widths.sum + 1 := Nat.add_comm ..

def Operation.fieldOffset (operation : Operation) (field : Nat) : Nat :=
  1 + (operation.widths.take field).sum

def Decoded.Counted (decoded : Decoded) : Prop :=
  decoded.instruction.operands.length = decoded.operation.arity

def Instruction.setOperand (instruction : Instruction) (field : Nat) (value : Operand) :
    Instruction :=
  { instruction with operands := instruction.operands.set field value }

namespace Table

theorem encode_ok_iff {table : Table} {instruction : Instruction} {bytes : List UInt8} :
    table.encode instruction = .ok bytes ↔
      ∃ operation fields, table.lookup instruction.opcode = .ok operation ∧
        instruction.operands.length = operation.widths.length ∧
        Operand.encodeFields operation.widths instruction.operands = .ok fields ∧
        instruction.opcode :: fields = bytes := by
  rw [encode, bind_ok_iff]
  apply exists_congr
  intro operation
  by_cases arity : instruction.operands.length = operation.widths.length
  · simp [Operation.arity, arity, bind_ok_iff]
  · simp [Operation.arity, arity]

theorem length_of_encode {table : Table} {instruction : Instruction} {bytes : List UInt8}
    {operation : Operation} (encoded : table.encode instruction = .ok bytes)
    (found : table.lookup instruction.opcode = .ok operation) :
    bytes.length = operation.size := by
  obtain ⟨_, fields, looked, arity, written, rfl⟩ := encode_ok_iff.mp encoded
  cases looked.symm.trans found
  rw [List.length_cons, Operand.length_of_encode_fields arity written, Operation.size_eq]

theorem counted_of_encode {table : Table} {decoded : Decoded} {bytes : List UInt8}
    (encoded : table.encode decoded.instruction = .ok bytes)
    (found : table.lookup decoded.instruction.opcode = .ok decoded.operation) :
    decoded.Counted := by
  obtain ⟨_, _, looked, arity, _⟩ := encode_ok_iff.mp encoded
  cases looked.symm.trans found
  exact arity

/-- Bytes behind the instruction have no effect, and the offset is only passed on. -/
theorem decode_head_ok_iff {table : Table} {offset : Nat} {opcode : UInt8}
    {window : List UInt8} {decoded : Decoded} :
    table.decodeHead offset opcode window = .ok decoded ↔
      decoded.offset = offset ∧ table.lookup opcode = .ok decoded.operation ∧
        table.encode decoded.instruction = .ok ((opcode :: window).take decoded.size) := by
  obtain ⟨place, operation, head, operands⟩ := decoded
  simp only [decodeHead, bind_ok_iff, Prod.exists, Operand.read_fields_ok_iff, encode_ok_iff,
    Decoded.size, Operation.size_eq, List.take_succ_cons, Except.ok.injEq, Decoded.mk.injEq,
    Instruction.mk.injEq, List.cons.injEq]
  constructor
  · intro read
    obtain ⟨_, found, _, _, ⟨_, arity, written⟩, rfl, rfl, rfl, rfl⟩ := read
    exact ⟨rfl, found, _, _, found, arity, written, rfl, rfl⟩
  · intro written
    obtain ⟨rfl, found, _, _, looked, arity, written, rfl, rfl⟩ := written
    cases looked.symm.trans found
    exact ⟨_, found, _, _, ⟨rfl, arity, written⟩, rfl, rfl, rfl, rfl⟩

/-- Only an unknown opcode and a window that is too short keep an instruction from decoding. -/
theorem decode_head_error_iff {table : Table} {offset : Nat} {opcode : UInt8}
    {window : List UInt8} {cause : CodeError} :
    table.decodeHead offset opcode window = .error cause ↔
      (opcode ∉ table.opcodes ∧ cause = .undefinedOpcode opcode) ∨
        ∃ operation, table.lookup opcode = .ok operation ∧
          Operand.shortField? operation.widths (offset + 1) window.length = some cause := by
  simp only [decodeHead, bind_error_iff, lookup_error_iff, Operand.read_fields_error_iff,
    reduceCtorEq, and_false, exists_false, or_false]

theorem decode_head_succeeds {table : Table} {opcode : UInt8} {operation : Operation}
    {window : List UInt8} (found : table.lookup opcode = .ok operation)
    (room : operation.widths.sum ≤ window.length) (offset : Nat) :
    ∃ decoded, table.decodeHead offset opcode window = .ok decoded := by
  cases outcome : table.decodeHead offset opcode window with
  | ok decoded => exact ⟨decoded, rfl⟩
  | error cause =>
      rcases decode_head_error_iff.mp outcome with ⟨unknown, _⟩ | ⟨other, looked, short⟩
      · have missing := lookup_error_iff.mpr ⟨unknown, rfl⟩
        rw [found] at missing
        contradiction
      · cases looked.symm.trans found
        have supported := table.supported _ (lookup_ok_iff.mp found)
        rw [Operand.short_field_none_iff.mpr ⟨supported, room⟩] at short
        contradiction

theorem decode_head_encoded {table : Table} {instruction : Instruction} {opcode : UInt8}
    {fields : List UInt8} {operation : Operation}
    (encoded : table.encode instruction = .ok (opcode :: fields))
    (found : table.lookup opcode = .ok operation) (offset : Nat) (rest : List UInt8) :
    table.decodeHead offset opcode (fields ++ rest) = .ok ⟨offset, operation, instruction⟩ := by
  obtain ⟨_, _, _, _, _, same⟩ := encode_ok_iff.mp encoded
  cases same
  have size := length_of_encode encoded found
  refine decode_head_ok_iff.mpr ⟨rfl, found, ?_⟩
  rw [Decoded.size, ← size, ← List.cons_append, List.take_left]
  exact encoded

theorem encode_set_operand {table : Table} {instruction : Instruction} {bytes front : List UInt8}
    {operation : Operation} {field width : Nat} {value : Operand}
    (encoded : table.encode instruction = .ok bytes)
    (found : table.lookup instruction.opcode = .ok operation)
    (here : operation.widths[field]? = some width)
    (written : Operand.encode value width = .ok front) :
    table.encode (instruction.setOperand field value) =
      .ok (bytes.take (operation.fieldOffset field) ++ front ++
        bytes.drop (operation.fieldOffset field + width)) := by
  obtain ⟨_, fields, looked, arity, others, rfl⟩ := encode_ok_iff.mp encoded
  cases looked.symm.trans found
  have patched := Operand.encode_fields_set arity others here written
  refine encode_ok_iff.mpr ⟨operation, _, found, ?_, patched, ?_⟩
  · exact (List.length_set ..).trans arity
  · rw [Operation.fieldOffset, Nat.add_comm 1, Nat.add_right_comm, List.take_succ_cons,
      List.drop_succ_cons, List.cons_append, List.cons_append]
    rfl

theorem encode_of_subset {table extended : Table} (grown : table.entries ⊆ extended.entries)
    {instruction : Instruction} {bytes : List UInt8}
    (encoded : table.encode instruction = .ok bytes) :
    extended.encode instruction = .ok bytes := by
  obtain ⟨operation, fields, found, arity, written, same⟩ := encode_ok_iff.mp encoded
  have kept := lookup_ok_iff.mpr (grown (lookup_ok_iff.mp found))
  apply encode_ok_iff.mpr
  exact ⟨operation, fields, kept, arity, written, same⟩

end Table

end Opstream
