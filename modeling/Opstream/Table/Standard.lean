import Opstream.Table

/-!
The standard operations, one opcode each. The order of the constructors is the order of the
opcodes, so it is part of the binary format and a new operation goes to the end.
-/

namespace Opstream

inductive StandardOp where
  | pushConstant
  | add
  | pop
  | sub
  | mul
  | div
  | pushTrue
  | pushFalse
  | pushNull
  | equal
  | notEqual
  | greaterThan
  | minus
  | bang
  | jumpNotTruthy
  | jump
  | getGlobal
  | setGlobal
  | array
  | hash
  | index
  deriving DecidableEq, Repr

namespace StandardOp

def all : List StandardOp :=
  [pushConstant, add, pop, sub, mul, div, pushTrue, pushFalse, pushNull, equal, notEqual,
    greaterThan, minus, bang, jumpNotTruthy, jump, getGlobal, setGlobal, array, hash, index]

def opcode (op : StandardOp) : UInt8 := op.ctorIdx.toUInt8

def label : StandardOp → String
  | pushConstant => "Constant"
  | add => "Add"
  | pop => "Pop"
  | sub => "Sub"
  | mul => "Mul"
  | div => "Div"
  | pushTrue => "True"
  | pushFalse => "False"
  | pushNull => "Null"
  | equal => "Equal"
  | notEqual => "NotEqual"
  | greaterThan => "GreaterThan"
  | minus => "Minus"
  | bang => "Bang"
  | jumpNotTruthy => "JumpNotTruthy"
  | jump => "Jump"
  | getGlobal => "GetGlobal"
  | setGlobal => "SetGlobal"
  | array => "Array"
  | hash => "Hash"
  | index => "Index"

def name (op : StandardOp) : String := "Op" ++ op.label

/-- Operands are an index, a jump target or an element count, each of two bytes. -/
def widths : StandardOp → List Nat
  | pushConstant | jumpNotTruthy | jump | getGlobal | setGlobal | array | hash => [2]
  | _ => []

def operation (op : StandardOp) : Operation := ⟨op.name, op.widths⟩

inductive Unknown where
  | opcode (byte : UInt8)
  | name (word : String)
  deriving DecidableEq, Repr

def Unknown.message : Unknown → String
  | .opcode byte => s!"No discriminant in enum `Opcode` matches the value `{byte}`"
  | .name _ => "Matching variant not found"

def ofOpcode (byte : UInt8) : Except Unknown StandardOp :=
  match all.find? fun op => op.opcode == byte with
  | some op => .ok op
  | none => .error (.opcode byte)

def ofName (word : String) : Except Unknown StandardOp :=
  match all.find? fun op => op.name == word with
  | some op => .ok op
  | none => .error (.name word)

end StandardOp

def Table.standard : Table where
  entries := StandardOp.all.map fun op => ⟨op.opcode, op.operation⟩
  ordered := by decide
  named := by decide
  supported := by decide

theorem define_all_standard :
    Table.empty.defineAll Table.standard.entries = .ok Table.standard := by
  rfl

end Opstream
