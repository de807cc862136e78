import Opstream.Scan
import Opstream.Text
import Opstream.Text.Ruled

/-!
Streams as text. Every item of a scan has one line: its offset, zero-padded to a width that is
the same for the whole stream, and what is there. The ruled view shows the item's bytes too.
-/

namespace Opstream

/-- The digits of the last offset of a stream, and never fewer than four. -/
def offsetWidth (length : Nat) : Nat := max 4 (Nat.toDigits 10 (length - 1)).length

namespace Operation

def listed (operation : Operation) (operands : List Operand) : String :=
  operation.name ++ String.join (operands.map fun operand => " " ++ toString operand)

/-- The operands of a decoded instruction are as many as its operation has; others are not listed. -/
def shown (operation : Operation) (operands : List Operand) : String :=
  if operands.length ≠ operation.arity then
    s!"ERROR: operand len {operands.length} does not match defined {operation.arity}"
  else operation.listed operands

end Operation

def Decoded.text (decoded : Decoded) : String :=
  decoded.operation.shown decoded.instruction.operands

namespace Item

def text : Item → String
  | .instruction decoded => decoded.text
  | .fault _ _ cause => "ERROR: " ++ cause.message

def line (width : Nat) (item : Item) : String :=
  Text.Decimal.padded width item.offset ++ " " ++ item.text ++ "\n"

def cells (width : Nat) (item : Item) : List String :=
  [Text.Decimal.padded width item.offset, Text.Hex.spaced item.bytes, item.text]

end Item

namespace Table

def disassemble (table : Table) (stream : List UInt8) : String :=
  String.join ((table.scan stream).map (Item.line (offsetWidth stream.length)))

def ruledView (table : Table) (stream : List UInt8) : Text.Ruled where
  columns := [⟨"Offset", .right⟩, ⟨"Bytes", .left⟩, ⟨"Instruction", .left⟩]
  rows := (table.scan stream).map (Item.cells (offsetWidth stream.length))

end Table

end Opstream
