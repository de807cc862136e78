import Opstream.Listing
import Opstream.Proofs.Program
import Opstream.Proofs.Reading

/-!
Listings as programs. Main statement: a listing assembles exactly if all that its lines mean
is instructions, and then to what these encode to as a program.
-/

namespace Opstream

namespace Listing

def Statement.instruction? : Statement → Option Instruction
  | .instruction content => some content
  | _ => none

theorem Statement.encode_ok_iff {table : Table} {statement : Statement} {bytes : List UInt8} :
    statement.encode table = .ok bytes ↔
      ∃ content, statement = .instruction content ∧ table.encode content = .ok bytes := by
  cases statement <;> simp [Statement.encode, map_error_ok_iff]

theorem encode_each_ok_iff {table : Table} {statements : List Numbered}
    {pieces : List (List UInt8)} :
    statements.mapM (Numbered.encode table) = .ok pieces ↔
      ∃ program : List Instruction,
        statements.map Numbered.statement = program.map Statement.instruction ∧
        program.mapM table.encode = .ok pieces := by
  simp only [each_ok_iff, Numbered.encode, map_error_ok_iff, Statement.encode_ok_iff]
  induction statements generalizing pieces with
  | nil => simp [eq_comm]
  | cons numbered statements induction =>
      simp only [List.forall₂_cons_left_iff, induction]
      constructor
      · intro encoded
        obtain ⟨bytes, rest, ⟨content, spelled, first⟩, ⟨program, others, each⟩, rfl⟩ := encoded
        refine ⟨content :: program, ?_, .cons first each⟩
        rw [List.map_cons, List.map_cons, spelled, others]
      · intro program
        obtain ⟨program, same, each⟩ := program
        cases program with
        | nil => cases same
        | cons content program =>
            obtain ⟨spelled, others⟩ := List.cons.inj same
            obtain ⟨bytes, rest, first, remaining, rfl⟩ := List.forall₂_cons_left_iff.mp each
            exact ⟨bytes, rest, ⟨content, spelled, first⟩, ⟨program, others, remaining⟩, rfl⟩

theorem name_of_read {text : List Char} {name : String} {operands : List Operand}
    (read : Line.read text = .instruction name operands) : isName name.toList = true := by
  obtain ⟨layout, rfl, fits⟩ := layout_of_read read
  cases (layout.read_text fits).symm.trans read
  rw [String.toList_ofList]
  exact is_name_iff.mpr layout.named

end Listing

namespace Table

theorem statements_from_content (table : Table) (first : Nat) (lines : List (List Char)) :
    (table.statementsFrom first lines).map Listing.Numbered.statement =
      lines.filterMap table.statement? := by
  induction lines generalizing first with
  | nil => rfl
  | cons line lines induction =>
      have rest := induction (first + 1)
      simp only [statementsFrom, List.zipIdx_cons, List.filterMap_cons] at rest ⊢
      cases table.statement? line with
      | none => exact rest
      | some statement => exact congrArg (statement :: ·) rest

theorem statements_content (table : Table) (text : String) :
    (table.statements text).map Listing.Numbered.statement =
      (Text.lines text.toList).filterMap table.statement? :=
  table.statements_from_content 1 (Text.lines text.toList)

theorem assemble_ok_iff {table : Table} {text : String} {stream : List UInt8} :
    table.assemble text = .ok stream ↔
      ∃ program : List Instruction,
        (Text.lines text.toList).filterMap table.statement? =
          program.map Listing.Statement.instruction ∧
        table.encodeAll program = .ok stream := by
  simp only [assemble, bind_ok_iff, Listing.encode_each_ok_iff, statements_content,
    encode_all_ok_iff, Except.ok.injEq]
  constructor
  · intro assembled
    obtain ⟨pieces, ⟨program, spelled, encoded⟩, whole⟩ := assembled
    exact ⟨program, spelled, pieces, encoded, whole⟩
  · intro assembled
    obtain ⟨program, spelled, pieces, encoded, whole⟩ := assembled
    exact ⟨pieces, ⟨program, spelled, encoded⟩, whole⟩

def listed (table : Table) (text : String) : List Instruction :=
  (table.statements text).filterMap fun numbered => numbered.statement.instruction?

theorem statements_listed {table : Table} {text : String} {stream : List UInt8}
    (assembled : table.assemble text = .ok stream) :
    (table.statements text).map Listing.Numbered.statement =
        (table.listed text).map Listing.Statement.instruction ∧
      table.encodeAll (table.listed text) = .ok stream := by
  obtain ⟨program, spelled, encoded⟩ := assemble_ok_iff.mp assembled
  have kept : (program.map Listing.Statement.instruction).filterMap
      Listing.Statement.instruction? = program := by
    rw [List.filterMap_map]
    exact List.filterMap_some
  rw [← statements_content] at spelled
  rw [← spelled, List.filterMap_map] at kept
  rw [← kept] at spelled encoded
  exact ⟨spelled, encoded⟩

theorem statement_instruction_iff {table : Table} {text : List Char} {content : Instruction} :
    table.statement? text = some (.instruction content) ↔
      ∃ entry ∈ table.entries, entry.opcode = content.opcode ∧
        content.operands.length = entry.operation.widths.length ∧
        Listing.Line.read text = .instruction entry.operation.name content.operands := by
  rw [statement?]
  cases line : Listing.Line.read text with
  | blank => simp
  | malformed => simp
  | instruction name operands =>
      cases known : table.entryNamed? name with
      | none =>
          simp only [known, Option.some.injEq, reduceCtorEq, false_iff]
          intro spelled
          obtain ⟨entry, member, _, _, same⟩ := spelled
          cases same
          have found := entry_named_iff.mpr ⟨member, rfl⟩
          rw [known] at found
          contradiction
      | some entry =>
          obtain ⟨member, rfl⟩ := entry_named_iff.mp known
          by_cases arity : operands.length = entry.operation.arity
          · simp only [known, arity, ne_eq, not_true, if_false, Option.some.injEq]
            constructor
            · intro same
              cases same
              exact ⟨entry, member, rfl, arity, rfl⟩
            · intro spelled
              obtain ⟨other, other_member, opcode, _, same⟩ := spelled
              obtain ⟨name, rfl⟩ := Listing.Line.instruction.inj same
              have found := entry_named_iff.mpr ⟨other_member, name.symm⟩
              cases known.symm.trans found
              rw [opcode]
          · simp only [known, arity, ne_eq, not_false_eq_true, if_true, Option.some.injEq,
              reduceCtorEq, false_iff]
            intro spelled
            obtain ⟨other, other_member, _, same_arity, same⟩ := spelled
            obtain ⟨name, rfl⟩ := Listing.Line.instruction.inj same
            have found := entry_named_iff.mpr ⟨other_member, name.symm⟩
            cases known.symm.trans found
            exact arity same_arity

end Table

end Opstream
