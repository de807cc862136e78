import Opstream.Table

/-!
Instructions in a byte stream: an opcode byte, then each operand in the width that the table
declares for it. There is no length or separator, so an instruction is found only by the
offset of its opcode.
-/

namespace Opstream

structure Instruction where
  opcode : UInt8
  operands : List Operand
  deriving DecidableEq, Repr

structure Decoded where
  offset : Nat
  operation : Operation
  instruction : Instruction
  deriving DecidableEq, Repr

def Decoded.size (decoded : Decoded) : Nat := decoded.operation.size

def Decoded.bytes (decoded : Decoded) : List UInt8 :=
  decoded.instruction.opcode ::
    (decoded.operation.widths.zipWith BigEndian.encode decoded.instruction.operands).flatten

namespace Table

/-- The number of operands is checked before any of their values. -/
def encode (table : Table) (instruction : Instruction) : Except CodeError (List UInt8) := do
  let operation ← table.lookup instruction.opcode
  let given := instruction.operands.length
  if given ≠ operation.arity then
    .error (.operandCount operation.name operation.arity given)
  else
    let fields ← Operand.encodeFields operation.widths instruction.operands
    .ok (instruction.opcode :: fields)

/-- Decodes the instruction of an opcode at `offset` with `window` behind it. Only the window
is looked at; the offset is where the answer says that things are. -/
def decodeHead (table : Table) (offset : Nat) (opcode : UInt8) (window : List UInt8) :
    Except CodeError Decoded := do
  let operation ← table.lookup opcode
  let (operands, _) ← Operand.readFields operation.widths (offset + 1) window
  .ok ⟨offset, operation, ⟨opcode, operands⟩⟩

def decode (table : Table) (stream : List UInt8) (offset : Nat) : Except CodeError Decoded :=
  match stream.drop offset with
  | [] => .error (.pastEnd offset stream.length)
  | opcode :: window => table.decodeHead offset opcode window

end Table

end Opstream
