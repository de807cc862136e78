import Opstream.Disassembly
import Opstream.Proofs.Defining
import Opstream.Proofs.Listing

/-!
Tables that grow. Main statement: further definitions change no answer of a table but those that
say that an opcode or a name is not defined; what was encoded, found in a stream, shown, read
from a listing or refused for another cause stays just as it was.
-/

namespace Opstream

/-- Faults of other kinds are allowed. -/
def OpcodesKnown (items : List Item) : Prop :=
  ∀ offset byte opcode, .fault offset byte (.undefinedOpcode opcode) ∉ items

namespace Listing

/-- What a line gave before and after the table grew: the same, unless its name was unknown. -/
inductive Numbered.Kept : Numbered → Numbered → Prop where
  | same (numbered : Numbered) : Kept numbered numbered
  | unknown (line : Nat) (name : String) (statement : Statement) :
      Kept ⟨line, .unknownName name⟩ ⟨line, statement⟩

end Listing

namespace Table

theorem entries_subset_define_all {table extended : Table} {entries : List Entry}
    (accepted : table.defineAll entries = .ok extended) : table.entries ⊆ extended.entries := by
  induction entries generalizing table with
  | nil =>
      cases accepted
      exact List.Subset.refl _
  | cons entry entries induction =>
      rw [defineAll, List.foldlM_cons, bind_ok_iff] at accepted
      obtain ⟨middle, defined, others⟩ := accepted
      exact List.Subset.trans (entries_subset_define defined) (induction others)

/-- A listing speaks only of opcodes that its table has. -/
theorem lookup_of_listed {table : Table} {text : String} {numbered : Listing.Numbered}
    {content : Instruction} (member : numbered ∈ table.statements text)
    (spelled : numbered.statement = .instruction content) :
    ∃ operation, table.lookup content.opcode = .ok operation := by
  have meant := List.mem_map_of_mem (f := Listing.Numbered.statement) member
  rw [spelled, statements_content] at meant
  obtain ⟨line, _, read⟩ := List.mem_filterMap.mp meant
  obtain ⟨entry, defined, same, _⟩ := statement_instruction_iff.mp read
  exact ⟨entry.operation, lookup_ok_iff.mpr (same ▸ defined)⟩

section Grown

variable {table extended : Table} (grown : table.entries ⊆ extended.entries)

include grown

theorem lookup_of_subset {opcode : UInt8} {operation : Operation}
    (known : table.lookup opcode = .ok operation) : extended.lookup opcode = .ok operation :=
  lookup_ok_iff.mpr (grown (lookup_ok_iff.mp known))

theorem entry_named_of_subset {name : String} {entry : Entry}
    (known : table.entryNamed? name = some entry) : extended.entryNamed? name = some entry := by
  obtain ⟨member, named⟩ := entry_named_iff.mp known
  exact entry_named_iff.mpr ⟨grown member, named⟩

/-- A refusal to encode stays too, unless it was for the opcode. -/
theorem encode_kept {instruction : Instruction} {operation : Operation}
    (known : table.lookup instruction.opcode = .ok operation) :
    extended.encode instruction = table.encode instruction := by
  rw [encode, encode, known, lookup_of_subset grown known]

theorem decode_head_kept {offset : Nat} {opcode : UInt8} {window : List UInt8}
    {operation : Operation} (known : table.lookup opcode = .ok operation) :
    extended.decodeHead offset opcode window = table.decodeHead offset opcode window := by
  rw [decodeHead, decodeHead, known, lookup_of_subset grown known]

theorem scan_from_kept {offset : Nat} {stream : List UInt8}
    (known : OpcodesKnown (table.scanFrom offset stream)) :
    extended.scanFrom offset stream = table.scanFrom offset stream := by
  induction offset, stream using table.scan_induction with
  | finished offset => rfl
  | instruction offset operation instruction bytes rest found encoded induction =>
      rw [scan_from_encoded found encoded] at known ⊢
      have others : OpcodesKnown (table.scanFrom (offset + bytes.length) rest) := by
        intro place byte opcode member
        exact known place byte opcode (List.mem_cons_of_mem _ member)
      have still_found := lookup_of_subset grown found
      have still_encoded := encode_of_subset grown encoded
      rw [scan_from_encoded still_found still_encoded, induction others]
  | fault offset byte rest cause refused induction =>
      rw [scan_from_fault refused] at known ⊢
      have others : OpcodesKnown (table.scanFrom (offset + 1) rest) := by
        intro place byte opcode member
        exact known place byte opcode (List.mem_cons_of_mem _ member)
      cases found : table.lookup byte with
      | error unknown =>
          obtain ⟨_, rfl⟩ := lookup_error_iff.mp found
          rw [decodeHead, found] at refused
          cases refused
          exact absurd (List.mem_cons_self ..) (known offset byte byte)
      | ok operation =>
          have still_refused := (decode_head_kept grown found).trans refused
          rw [scan_from_fault still_refused, induction others]

theorem statement_kept (text : List Char) :
    extended.statement? text = table.statement? text ∨
      ∃ name statement, table.statement? text = some (.unknownName name) ∧
        extended.statement? text = some statement := by
  rw [statement?, statement?]
  cases Listing.Line.read text with
  | blank => exact .inl rfl
  | malformed => exact .inl rfl
  | instruction name operands =>
      dsimp only
      cases known : table.entryNamed? name with
      | some entry =>
          rw [entry_named_of_subset grown known]
          exact .inl rfl
      | none =>
          right
          cases extended.entryNamed? name with
          | none => exact ⟨name, _, rfl, rfl⟩
          | some entry =>
              dsimp only
              split
              · exact ⟨name, _, rfl, rfl⟩
              · exact ⟨name, _, rfl, rfl⟩

theorem statements_from_kept (first : Nat) (lines : List (List Char)) :
    List.Forall₂ Listing.Numbered.Kept (table.statementsFrom first lines)
      (extended.statementsFrom first lines) := by
  induction lines generalizing first with
  | nil => exact .nil
  | cons line lines induction =>
      have rest := induction (first + 1)
      simp only [statementsFrom, List.zipIdx_cons, List.filterMap_cons] at rest ⊢
      rcases statement_kept grown line with same | ⟨name, statement, unknown, after⟩
      · rw [same]
        cases table.statement? line with
        | none => exact rest
        | some statement => exact .cons (.same _) rest
      · rw [unknown, after]
        exact .cons (.unknown first name statement) rest

/-- A listing is assembled up to its first error, so what follows an unknown name may change. -/
theorem encode_each_kept {before after : List Listing.Numbered}
    (kept : List.Forall₂ Listing.Numbered.Kept before after)
    (known : ∀ numbered ∈ before, ∀ content, numbered.statement = .instruction content →
      ∃ operation, table.lookup content.opcode = .ok operation)
    (settled : ∀ line name,
      before.mapM (Listing.Numbered.encode table) ≠ .error ⟨line, .unknownName name⟩) :
    after.mapM (Listing.Numbered.encode extended) =
      before.mapM (Listing.Numbered.encode table) := by
  induction kept with
  | nil => rfl
  | @cons first second befores afters relation rest induction =>
      cases relation with
      | unknown line name statement => exact absurd rfl (settled line name)
      | same =>
          have head : first.encode extended = first.encode table := by
            obtain ⟨line, statement⟩ := first
            cases statement with
            | instruction content =>
                obtain ⟨operation, found⟩ := known ⟨line, _⟩ (List.mem_cons_self ..) content rfl
                simp only [Listing.Numbered.encode, Listing.Statement.encode,
                  encode_kept grown found]
            | unknownName name => rfl
            | wrongArity name expected operands => rfl
            | malformed text => rfl
          rw [List.mapM_cons, List.mapM_cons, head]
          rw [List.mapM_cons] at settled
          cases outcome : first.encode table with
          | error error => rfl
          | ok bytes =>
              rw [outcome] at settled
              have others := induction
                (by intro numbered member; exact known numbered (List.mem_cons_of_mem _ member))
                (by
                  intro line name failed
                  rw [failed] at settled
                  exact settled line name rfl)
              rw [others]

theorem statements_kept (text : String) :
    List.Forall₂ Listing.Numbered.Kept (table.statements text) (extended.statements text) :=
  statements_from_kept grown 1 (Text.lines text.toList)

theorem assemble_kept {text : String}
    (settled : ∀ line name, table.assemble text ≠ .error ⟨line, .unknownName name⟩) :
    extended.assemble text = table.assemble text := by
  have each : (extended.statements text).mapM (Listing.Numbered.encode extended) =
      (table.statements text).mapM (Listing.Numbered.encode table) := by
    apply encode_each_kept grown (statements_kept grown text)
    · intro numbered member content spelled
      exact lookup_of_listed member spelled
    · intro line name failed
      apply settled line name
      rw [assemble, failed]
      rfl
  rw [assemble, assemble, each]

end Grown

end Table

/-- Take a table and any definitions that it accepts one after the other. What an instruction is
encoded to, or refused for, stays, unless its opcode was not defined. A stream in which no opcode
is unknown keeps its items, its disassembly and its ruled view, cut short operands included. A
listing keeps what each line gave, unless the name was unknown, and keeps its bytes or its error,
unless that is an unknown name. -/
theorem definitions_keep_settled_answers {table extended : Table} {entries : List Entry}
    (accepted : table.defineAll entries = .ok extended) :
    (∀ instruction, (∀ opcode, table.encode instruction ≠ .error (.undefinedOpcode opcode)) →
      extended.encode instruction = table.encode instruction) ∧
    (∀ stream, OpcodesKnown (table.scan stream) →
      extended.scan stream = table.scan stream ∧
        extended.disassemble stream = table.disassemble stream ∧
        extended.ruledView stream = table.ruledView stream) ∧
    (∀ text, List.Forall₂ Listing.Numbered.Kept (table.statements text)
      (extended.statements text)) ∧
    ∀ text, (∀ line name, table.assemble text ≠ .error ⟨line, .unknownName name⟩) →
      extended.assemble text = table.assemble text := by
  have grown := Table.entries_subset_define_all accepted
  refine ⟨?_, ?_, Table.statements_kept grown, fun _ => Table.assemble_kept grown⟩
  · intro instruction settled
    cases found : table.lookup instruction.opcode with
    | ok operation => exact Table.encode_kept grown found
    | error cause =>
        obtain ⟨_, rfl⟩ := Table.lookup_error_iff.mp found
        exact absurd (by rw [Table.encode, found]; rfl) (settled instruction.opcode)
  · intro stream known
    have scanned : extended.scan stream = table.scan stream := Table.scan_from_kept grown known
    refine ⟨scanned, ?_, ?_⟩
    · rw [Table.disassemble, Table.disassemble, scanned]
    · rw [Table.ruledView, Table.ruledView, scanned]

/-- The new opcode comes before the old one in the table, and its name stands in the listing. -/
theorem narrow_table_grown :
    let narrow : Table := ⟨[⟨1, ⟨"OpX", [2]⟩⟩], by decide, by decide, by decide⟩
    let wide : Table := ⟨[⟨0, ⟨"OpY", []⟩⟩, ⟨1, ⟨"OpX", [2]⟩⟩], by decide, by decide, by decide⟩
    narrow.defineAll [⟨0, ⟨"OpY", []⟩⟩] = .ok wide ∧
      wide.encode ⟨1, [65536]⟩ = .error (.oversizedOperand 65536 2) ∧
      wide.scan [1, 0, 7, 1, 1] = [.instruction ⟨0, ⟨"OpX", [2]⟩, ⟨1, [7]⟩⟩,
        .fault 3 1 (.shortOperand 4 2 1), .fault 4 1 (.shortOperand 5 2 0)] ∧
      wide.assemble "OpX 7\nOpX\nOpY" = .error ⟨2, .wrongArity "OpX" 1 0⟩ := by
  intro narrow wide
  have accepted : narrow.defineAll [⟨0, ⟨"OpY", []⟩⟩] = .ok wide := rfl
  have refused : narrow.encode ⟨1, [65536]⟩ = .error (.oversizedOperand 65536 2) := by decide
  have scanned : narrow.scan [1, 0, 7, 1, 1] = [.instruction ⟨0, ⟨"OpX", [2]⟩, ⟨1, [7]⟩⟩,
      .fault 3 1 (.shortOperand 4 2 1), .fault 4 1 (.shortOperand 5 2 0)] := by decide
  have listed : narrow.assemble "OpX 7\nOpX\nOpY" = .error ⟨2, .wrongArity "OpX" 1 0⟩ := by decide
  obtain ⟨encodings, scans, _, listings⟩ := definitions_keep_settled_answers accepted
  refine ⟨accepted, (encodings _ ?_).trans refused, (scans _ ?_).1.trans scanned,
    (listings _ ?_).trans listed⟩
  · simp [refused]
  · simp [OpcodesKnown, scanned]
  · simp [listed]

end Opstream
