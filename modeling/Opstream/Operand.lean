import Opstream.Operand.BigEndian

/-!
One operand in exactly `width` bytes, and why the operand, instruction and table layers refuse. A
cause keeps the numbers that its message shows; the wording is in one place. Writing overwrites the
front of a buffer and keeps the rest, so a field is patched in place by writing into the tail that
starts at it; reading looks at the front of a window and ignores what follows.
-/

namespace Opstream

/-- Eight bytes are the widest operand, so every operand value is a 64-bit word. -/
abbrev Operand := UInt64

inductive CodeError where
  | undefinedOpcode (opcode : UInt8)
  | operandCount (name : String) (expected given : Nat)
  | shortOperand (offset width available : Nat)
  | pastEnd (offset length : Nat)
  | oversizedOperand (value : Operand) (width : Nat)
  | unsupportedWidth (width : Nat)
  | opcodeTaken (opcode : UInt8)
  | nameTaken (name : String)
  deriving DecidableEq, Repr

def CodeError.message : CodeError → String
  | .undefinedOpcode opcode => s!"opcode {opcode} undefined"
  | .operandCount name expected given =>
      s!"{name} takes {expected} operand(s) but was given {given}"
  | .shortOperand offset width available =>
      s!"operand of width {width} needs {width} byte(s) at offset {offset} " ++
        s!"but only {available} remain"
  | .pastEnd offset length =>
      s!"no opcode at offset {offset}: the stream is {length} byte(s) long"
  | .oversizedOperand value width => s!"operand {value} does not fit in {width} byte(s)"
  | .unsupportedWidth width => s!"operand width {width} is not supported"
  | .opcodeTaken opcode => s!"opcode {opcode} is already defined"
  | .nameTaken name => s!"an opcode named {name} is already defined"

def supportedWidths : List Nat := [1, 2, 4, 8]

namespace Operand

/-- Refuses a value that needs more than `width` bytes; its high part is never dropped. -/
def encode (value : Operand) (width : Nat) : Except CodeError (List UInt8) :=
  if width ∉ supportedWidths then .error (.unsupportedWidth width)
  else if BigEndian.capacity width ≤ value.toNat then .error (.oversizedOperand value width)
  else .ok (BigEndian.encode width value)

/-- One field per width, the values in order; the first that does not fit is refused. -/
def encodeFields : List Nat → List Operand → Except CodeError (List UInt8)
  | width :: widths, value :: values => do
      let bytes ← encode value width
      let rest ← encodeFields widths values
      .ok (bytes ++ rest)
  | _, _ => .ok []

/-- The buffer after the value is written to its front, or the refusal that leaves it alone. -/
def write (buffer : List UInt8) (value : Operand) (width : Nat) :
    Except CodeError (List UInt8) := do
  let bytes ← encode value width
  if buffer.length < width then .error (.shortOperand 0 width buffer.length)
  else .ok (bytes ++ buffer.drop width)

def read (window : List UInt8) (width : Nat) : Except CodeError Operand :=
  if width ∉ supportedWidths then .error (.unsupportedWidth width)
  else
    let bytes := window.take width
    if bytes.length < width then .error (.shortOperand 0 width window.length)
    else .ok (BigEndian.decode bytes)

def read16 (window : List UInt8) : Except CodeError UInt16 :=
  (read window 2).map UInt64.toUInt16

/-- Reads one operand per width from consecutive fields, and tells where they stop. `offset`
is the position of `window` in the stream that refusals count from. A field of a width that
cannot be read is refused like one that the window is too short for. -/
def readFields : List Nat → Nat → List UInt8 → Except CodeError (List Operand × Nat)
  | [], offset, _ => .ok ([], offset)
  | width :: widths, offset, window =>
      match read window width with
      | .error _ => .error (.shortOperand offset width window.length)
      | .ok value => do
          let (values, stop) ← readFields widths (offset + width) (window.drop width)
          .ok (value :: values, stop)

end Operand

end Opstream
