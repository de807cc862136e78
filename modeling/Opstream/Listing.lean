import Opstream.Disassembly
import Opstream.Listing.Line

/-!
What the lines of a listing mean under a table, and the bytes they become. A line that means nothing
is kept as a statement of what is wrong with it, so that all problems of a listing can be shown at
once. The statements are encoded in the order of their lines, so the error is that of the first line
that cannot be assembled, whatever is wrong with it.
-/

namespace Opstream

namespace Listing

inductive Statement where
  | instruction (content : Instruction)
  | unknownName (name : String)
  | wrongArity (name : String) (expected : Nat) (operands : List Operand)
  | malformed (text : String)
  deriving DecidableEq, Repr

/-- Lines count from one, and blank ones count too. -/
structure Numbered where
  line : Nat
  statement : Statement
  deriving DecidableEq, Repr

def Numbered.describe (numbered : Numbered) : String :=
  let line := numbered.line
  match numbered.statement with
  | .instruction ⟨opcode, operands⟩ =>
      s!"Line {line}: opcode {opcode}" ++
        String.join (operands.map fun operand => " " ++ toString operand)
  | .unknownName name => s!"Error on line {line}: {name} is not an operation."
  | .wrongArity name expected operands =>
      s!"Error on line {line}: {name} requires {expected} arguments " ++
        s!"but was given {operands.length}: (" ++
        ", ".intercalate (operands.map toString) ++ ")"
  | .malformed text => s!"Error on line {line}: cannot parse `{text}`."

end Listing

open Listing

namespace Table

/-- A name is looked up before its operands are counted. -/
def statement? (table : Table) (text : List Char) : Option Statement :=
  match Line.read text with
  | .blank => none
  | .malformed => some (.malformed (String.ofList (Text.trim text)))
  | .instruction name operands =>
      match table.entryNamed? name with
      | none => some (.unknownName name)
      | some entry =>
          if operands.length ≠ entry.operation.arity then
            some (.wrongArity name entry.operation.arity operands)
          else some (.instruction ⟨entry.opcode, operands⟩)

def statementsFrom (table : Table) (first : Nat) (lines : List (List Char)) : List Numbered :=
  (lines.zipIdx first).filterMap fun (text, line) =>
    (table.statement? text).map fun statement => ⟨line, statement⟩

def statements (table : Table) (text : String) : List Numbered :=
  table.statementsFrom 1 (Text.lines text.toList)

end Table

namespace Listing

inductive Cause where
  | malformed (text : String)
  | unknownName (name : String)
  | wrongArity (name : String) (expected given : Nat)
  | encoding (cause : CodeError)
  deriving DecidableEq, Repr

end Listing

structure ListingError where
  line : Nat
  cause : Listing.Cause
  deriving DecidableEq, Repr

namespace Listing

def Cause.message : Cause → String
  | .malformed text => s!"cannot parse `{text}`"
  | .unknownName name => s!"{name} is not an operation"
  | .wrongArity name expected given =>
      s!"{name} requires {expected} argument(s) but was given {given}"
  | .encoding cause => cause.message

def Statement.encode (table : Table) : Statement → Except Cause (List UInt8)
  | .instruction content => (table.encode content).mapError Cause.encoding
  | .unknownName name => .error (.unknownName name)
  | .wrongArity name expected operands => .error (.wrongArity name expected operands.length)
  | .malformed text => .error (.malformed text)

def Numbered.encode (table : Table) (numbered : Numbered) : Except ListingError (List UInt8) :=
  (numbered.statement.encode table).mapError fun cause => ⟨numbered.line, cause⟩

end Listing

def ListingError.message (error : ListingError) : String :=
  s!"error on line {error.line}: {error.cause.message}"

namespace Table

def assemble (table : Table) (text : String) : Except ListingError (List UInt8) := do
  let pieces ← (table.statements text).mapM (Listing.Numbered.encode table)
  .ok pieces.flatten

def reassemble (table : Table) (stream : List UInt8) : Except ListingError (List UInt8) :=
  table.assemble (table.disassemble stream)

end Table

end Opstream
