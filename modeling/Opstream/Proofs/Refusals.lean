import Opstream.Proofs.Joining
import Opstream.Proofs.Meaning
import Opstream.Proofs.Packing

/-!
Why a listing is refused. Main statement: the reason is always one of four and lies in one line, the
first that has such a reason; where no line has one, the listing assembles to its instructions.
-/

namespace Opstream

namespace Table

/-- Why a line cannot be assembled. What the table has to know for that it does know, so an
instruction is only ever refused for the size of an operand. -/
inductive RefusesLine (table : Table) (line : List Char) : Listing.Cause → Prop where
  | malformed {text : String} (meant : table.statement? line = some (.malformed text)) :
      RefusesLine table line (.malformed text)
  | unknownName {name : String} (meant : table.statement? line = some (.unknownName name)) :
      RefusesLine table line (.unknownName name)
  | wrongArity {name : String} {expected : Nat} {operands : List Operand}
      (meant : table.statement? line = some (.wrongArity name expected operands)) :
      RefusesLine table line (.wrongArity name expected operands.length)
  | oversized {content : Instruction} {operation : Operation} {field width : Nat} {value : Operand}
      (meant : table.statement? line = some (.instruction content))
      (found : table.lookup content.opcode = .ok operation)
      (first : Operand.FirstOversized operation.widths content.operands field width value) :
      RefusesLine table line (.encoding (.oversizedOperand value width))

theorem lookup_of_meant {table : Table} {line : List Char} {content : Instruction}
    (meant : table.statement? line = some (.instruction content)) :
    ∃ operation, table.lookup content.opcode = .ok operation ∧
      content.operands.length = operation.arity := by
  obtain ⟨⟨opcode, operation⟩, member, rfl, arity, _⟩ := statement_instruction_iff.mp meant
  exact ⟨operation, lookup_ok_iff.mpr member, arity⟩

theorem encode_meant_error_iff {table : Table} {line : List Char} {content : Instruction}
    {cause : CodeError} (meant : table.statement? line = some (.instruction content)) :
    table.encode content = .error cause ↔
      ∃ operation field width value, table.lookup content.opcode = .ok operation ∧
        Operand.FirstOversized operation.widths content.operands field width value ∧
        cause = .oversizedOperand value width := by
  obtain ⟨operation, found, counted⟩ := lookup_of_meant meant
  constructor
  · intro refused
    have encodes := table.encodes_encode content
    rw [refused] at encodes
    cases encodes with
    | unknown undefined => exact absurd (List.mem_map_of_mem (lookup_ok_iff.mp found)) undefined
    | miscounted looked differ =>
        cases looked.symm.trans found
        exact absurd counted differ
    | oversized looked _ first => exact ⟨_, _, _, _, looked, first, rfl⟩
  · intro large
    obtain ⟨other, field, width, value, looked, first, rfl⟩ := large
    cases looked.symm.trans found
    exact encode_of_encodes (.oversized found counted first)

theorem encode_line_error_iff {table : Table} {line : List Char} {cause : Listing.Cause} :
    table.encodeLine line = .error cause ↔ table.RefusesLine line cause := by
  constructor
  · intro refused
    cases meant : table.statement? line with
    | none => simp [encodeLine, meant] at refused
    | some statement =>
        simp only [encodeLine, meant] at refused
        cases statement with
        | malformed text =>
            cases refused
            exact .malformed meant
        | unknownName name =>
            cases refused
            exact .unknownName meant
        | wrongArity name expected operands =>
            cases refused
            exact .wrongArity meant
        | instruction content =>
            obtain ⟨reason, stuck, rfl⟩ := map_error_error_iff.mp refused
            obtain ⟨_, _, _, _, found, first, rfl⟩ := (encode_meant_error_iff meant).mp stuck
            exact .oversized meant found first
  · intro refuses
    cases refuses with
    | malformed meant => simp only [encodeLine, meant, Listing.Statement.encode]
    | unknownName meant => simp only [encodeLine, meant, Listing.Statement.encode]
    | wrongArity meant => simp only [encodeLine, meant, Listing.Statement.encode]
    | oversized meant found first =>
        have refused := (encode_meant_error_iff meant).mpr ⟨_, _, _, _, found, first, rfl⟩
        simp only [encodeLine, meant, Listing.Statement.encode, refused]
        rfl

theorem encode_line_succeeds_iff {table : Table} {line : List Char} :
    (∃ bytes, table.encodeLine line = .ok bytes) ↔ ∀ cause, ¬ table.RefusesLine line cause := by
  simp only [← encode_line_error_iff]
  cases table.encodeLine line with
  | ok bytes => simp
  | error cause => simp

theorem assemble_error_iff {table : Table} {text : String} {error : ListingError} :
    table.assemble text = .error error ↔
      ∃ before line after, Text.lines text.toList = before ++ line :: after ∧
        (∀ earlier ∈ before, ∀ cause, ¬ table.RefusesLine earlier cause) ∧
        table.RefusesLine line error.cause ∧ error.line = before.length + 1 := by
  rw [assemble_eq_encode_lines, encode_lines_error_iff]
  simp only [encode_line_succeeds_iff, encode_line_error_iff]

theorem assemble_succeeds {table : Table} {text : String}
    (clear : ∀ line ∈ Text.lines text.toList, ∀ cause, ¬ table.RefusesLine line cause) :
    ∃ code, table.assemble text = .ok code := by
  cases outcome : table.assemble text with
  | ok code => exact ⟨code, rfl⟩
  | error error =>
      obtain ⟨before, line, after, split, _, refuses, _⟩ := assemble_error_iff.mp outcome
      exact absurd refuses (clear line (by rw [split]; simp) _)

theorem operations_of_encoded {table : Table} {program : List Instruction}
    {pieces : List (List UInt8)} (encoded : program.mapM table.encode = .ok pieces) :
    ∃ operations, program.mapM (fun content => table.lookup content.opcode) = .ok operations ∧
      pieces.map List.length = operations.map Operation.size := by
  simp only [each_ok_iff] at encoded ⊢
  induction encoded with
  | nil => exact ⟨[], .nil, rfl⟩
  | cons first rest induction =>
      obtain ⟨operations, found, lengths⟩ := induction
      obtain ⟨operation, _, looked, _⟩ := encode_ok_iff.mp first
      refine ⟨operation :: operations, .cons looked found, ?_⟩
      rw [List.map_cons, List.map_cons, lengths, length_of_encode first looked]

/-- Looks a line's operation up in two steps, by its name for the opcode and by the opcode for the
arity. `fallback` is the arity of an opcode without an operation. -/
def statementByOpcode? (table : Table) (fallback : Nat) (line : List Char) :
    Option Listing.Statement :=
  match Listing.Line.read line with
  | .blank => none
  | .malformed => some (.malformed (String.ofList (Text.trim line)))
  | .instruction name operands =>
      match table.opcodeNamed? name with
      | none => some (.unknownName name)
      | some opcode =>
          let expected := match table.lookup opcode with
            | .ok operation => operation.arity
            | .error _ => fallback
          if operands.length ≠ expected then some (.wrongArity name expected operands)
          else some (.instruction ⟨opcode, operands⟩)

theorem statement_by_opcode_eq (table : Table) (fallback : Nat) (line : List Char) :
    table.statementByOpcode? fallback line = table.statement? line := by
  rw [statementByOpcode?, statement?]
  cases Listing.Line.read line with
  | blank => rfl
  | malformed => rfl
  | instruction name operands =>
      cases named : table.entryNamed? name with
      | none => simp only [opcodeNamed?, named, Option.map_none]
      | some entry =>
          have found := lookup_ok_iff.mpr (entry_named_iff.mp named).1
          simp only [opcodeNamed?, named, Option.map_some, found]

end Table

/-- A listing is refused exactly for its first line that is refused for a cause of its own: a line
that is malformed, has an unknown name or a wrong number of operands, or an operand that is too
large for its field, of which the first is told. So encoding never fails for another cause, and
the arity that would be taken for an opcode without an operation has no effect. Where no line is
refused, the bytes are those of the instructions in the order of their lines, as many as the
operations of these take. -/
theorem listing_refused_for_first_bad_line (table : Table) :
    (∀ text error, table.assemble text = .error error ↔
      ∃ before line after, Text.lines text.toList = before ++ line :: after ∧
        (∀ earlier ∈ before, ∀ cause, ¬ table.RefusesLine earlier cause) ∧
        table.RefusesLine line error.cause ∧ error.line = before.length + 1) ∧
    (∀ text line cause, table.assemble text = .error ⟨line, .encoding cause⟩ →
      ∃ value width, cause = .oversizedOperand value width) ∧
    (∀ fallback line, table.statementByOpcode? fallback line = table.statement? line) ∧
    ∀ text, (∀ line ∈ Text.lines text.toList, ∀ cause, ¬ table.RefusesLine line cause) →
      ∃ pieces operations,
        (table.statements text).map Listing.Numbered.statement =
          (table.listed text).map Listing.Statement.instruction ∧
        (table.listed text).mapM table.encode = .ok pieces ∧
        (table.listed text).mapM (fun content => table.lookup content.opcode) =
          .ok operations ∧
        table.assemble text = .ok pieces.flatten ∧
        pieces.flatten.length = (operations.map Operation.size).sum := by
  refine ⟨fun _ _ => Table.assemble_error_iff, ?_, table.statement_by_opcode_eq, ?_⟩
  · intro text line cause refused
    obtain ⟨_, _, _, _, _, refuses, _⟩ := Table.assemble_error_iff.mp refused
    cases refuses with
    | oversized meant found first => exact ⟨_, _, rfl⟩
  · intro text clear
    obtain ⟨code, assembled⟩ := Table.assemble_succeeds clear
    obtain ⟨spelled, whole⟩ := Table.statements_listed assembled
    obtain ⟨pieces, encoded, rfl⟩ := Table.encode_all_ok_iff.mp whole
    obtain ⟨operations, found, lengths⟩ := Table.operations_of_encoded encoded
    refine ⟨pieces, operations, spelled, encoded, found, assembled, ?_⟩
    rw [List.length_flatten, lengths]

/-- The third line is told of for its second operand, and not the last one for its name. -/
theorem second_operand_of_third_line_refused :
    let table : Table := ⟨[⟨3, ⟨"Mov", [2, 1]⟩⟩], by decide, by decide, by decide⟩
    let bad := "# moves\nMov 1 2\nMov 65535 256\nNope"
    let good := "Mov 1 2\r\n\n 04 Mov 65535 255 # most"
    table.assemble bad = .error ⟨3, .encoding (.oversizedOperand 256 1)⟩ ∧
      (∃ value width, CodeError.oversizedOperand 256 1 = .oversizedOperand value width) ∧
      (∀ line ∈ Text.lines good.toList, ∀ cause, ¬ table.RefusesLine line cause) ∧
      ∃ pieces operations,
        (table.listed good).mapM table.encode = .ok pieces ∧
        (table.listed good).mapM (fun content => table.lookup content.opcode) =
          .ok operations ∧
        table.assemble good = .ok pieces.flatten ∧
        pieces.flatten.length = (operations.map Operation.size).sum ∧
        pieces.flatten = [3, 0, 1, 2, 3, 255, 255, 255] := by
  intro table bad good
  obtain ⟨_, encoding, _, clean⟩ := listing_refused_for_first_bad_line table
  have refused : table.assemble bad = .error ⟨3, .encoding (.oversizedOperand 256 1)⟩ := by decide
  have lines : Text.lines good.toList =
      ["Mov 1 2".toList, [], " 04 Mov 65535 255 # most".toList] := by decide
  have clear : ∀ line ∈ Text.lines good.toList, ∀ cause, ¬ table.RefusesLine line cause := by
    intro line member
    rw [← Table.encode_line_succeeds_iff]
    simp only [lines, List.mem_cons, List.not_mem_nil, or_false] at member
    rcases member with rfl | rfl | rfl
    · exact ⟨[3, 0, 1, 2], by decide⟩
    · exact ⟨[], by decide⟩
    · exact ⟨[3, 255, 255, 255], by decide⟩
  obtain ⟨pieces, operations, _, encoded, found, assembled, length⟩ := clean good clear
  have known : table.assemble good = .ok [3, 0, 1, 2, 3, 255, 255, 255] := by decide
  have bytes := Except.ok.inj (assembled.symm.trans known)
  exact ⟨refused, encoding bad 3 _ refused, clear, pieces, operations, encoded, found, assembled,
    length, bytes⟩

end Opstream
