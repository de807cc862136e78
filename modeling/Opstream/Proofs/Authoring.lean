import Opstream.Proofs.Listing
import Opstream.Proofs.Patching
import Opstream.Table.Standard

/-!
A draft beside the program that its author has in mind. Definitions, instructions and listings
are appended, operands are overwritten in place and the end is cut off at an instruction, in
any order and number, and every edit may be refused. Main statement: whatever was done, the
code scans without a fault, under the table it has by then, to just the program in mind.
-/

namespace Opstream

structure Authoring where
  draft : Draft
  program : List Instruction

/-- What is done to a draft, told in instructions and not in bytes. -/
inductive Revision where
  | define (entry : Entry)
  | emit (instruction : Instruction)
  | appendListing (text : String)
  | patch (index field : Nat) (value : Operand)
  | truncate (count : Nat)
  deriving DecidableEq, Repr

/-- Where the instructions of a draft end if only the first `count` are kept. -/
def Draft.boundary (draft : Draft) (count : Nat) : Nat :=
  (((draft.table.scan draft.code).take count).map Item.size).sum

namespace Revision

/-- The edit of the bytes that makes a revision. A patch overwrites an operand of an
instruction that is in the code now, so without such an operand there is no edit. -/
def edit? (draft : Draft) : Revision → Option Edit
  | .define entry => some (.define entry)
  | .emit instruction => some (.emit instruction)
  | .appendListing text => some (.appendListing text)
  | .patch index field value =>
      match (draft.table.scan draft.code)[index]? with
      | some (.instruction decoded) =>
          decoded.operation.widths[field]?.map fun width =>
            .patch (decoded.offset + decoded.operation.fieldOffset field) value width
      | _ => none
  | .truncate count => some (.truncate (draft.boundary count))

/-- The program in mind after a revision that was not refused. -/
def amend (table : Table) (program : List Instruction) : Revision → List Instruction
  | .define _ => program
  | .emit instruction => program ++ [instruction]
  | .appendListing text => program ++ table.listed text
  | .patch index field value =>
      program.modify index fun instruction => instruction.setOperand field value
  | .truncate count => program.take count

end Revision

namespace Authoring

def start (table : Table) : Authoring := ⟨⟨table, []⟩, []⟩

def revise (authoring : Authoring) (revision : Revision) : Authoring :=
  match revision.edit? authoring.draft with
  | none => authoring
  | some edit => {
      draft := authoring.draft.step edit
      program :=
        match authoring.draft.apply edit with
        | .ok _ => revision.amend authoring.draft.table authoring.program
        | .error _ => authoring.program }

def run (authoring : Authoring) (revisions : List Revision) : Authoring :=
  revisions.foldl revise authoring

/-- The code is the program, encoded under the table of the moment. -/
def Faithful (authoring : Authoring) : Prop :=
  authoring.draft.table.encodeAll authoring.program = .ok authoring.draft.code

end Authoring

namespace Draft

theorem apply_define_ok_iff {draft edited : Draft} {entry : Entry} :
    draft.apply (.define entry) = .ok edited ↔
      ∃ extended, draft.table.define entry = .ok extended ∧
        { draft with table := extended } = edited := by
  simp only [apply, bind_ok_iff, map_error_ok_iff, Except.ok.injEq]

theorem apply_emit_ok_iff {draft edited : Draft} {instruction : Instruction} :
    draft.apply (.emit instruction) = .ok edited ↔
      ∃ bytes, draft.table.encode instruction = .ok bytes ∧ draft.append bytes = edited := by
  simp only [apply, bind_ok_iff, map_error_ok_iff, Except.ok.injEq]

theorem apply_listing_ok_iff {draft edited : Draft} {text : String} :
    draft.apply (.appendListing text) = .ok edited ↔
      ∃ bytes, draft.table.assemble text = .ok bytes ∧ draft.append bytes = edited := by
  simp only [apply, bind_ok_iff, map_error_ok_iff, Except.ok.injEq]

theorem apply_patch_ok_iff {draft edited : Draft} {offset width : Nat} {value : Operand} :
    draft.apply (.patch offset value width) = .ok edited ↔
      ∃ front, Operand.encode value width = .ok front ∧ width ≤ (draft.code.drop offset).length ∧
        { draft with code :=
          draft.code.take offset ++ (front ++ (draft.code.drop offset).drop width) } = edited := by
  simp only [apply, bind_ok_iff, map_error_ok_iff, Operand.write_ok_iff, Except.ok.injEq]
  constructor
  · intro patched
    obtain ⟨_, ⟨front, written, room, rfl⟩, same⟩ := patched
    exact ⟨front, written, room, same⟩
  · intro parts
    obtain ⟨front, written, room, same⟩ := parts
    exact ⟨_, ⟨front, written, room, rfl⟩, same⟩

end Draft

namespace Table

/-- Overwriting the bytes of one operand changes that operand of the program alone. -/
theorem encode_all_patched {table : Table} {program : List Instruction} {code front : List UInt8}
    {index field width : Nat} {decoded : Decoded} {value : Operand}
    (encoded : table.encodeAll program = .ok code)
    (item : (table.scan code)[index]? = some (.instruction decoded))
    (here : decoded.operation.widths[field]? = some width)
    (written : Operand.encode value width = .ok front) :
    let offset := decoded.offset + decoded.operation.fieldOffset field
    table.encodeAll (program.modify index fun instruction => instruction.setOperand field value) =
      .ok (code.take offset ++ (front ++ (code.drop offset).drop width)) := by
  intro offset
  have scanned := encode_all_iff_scan.mp encoded
  have known : program[index]? = some decoded.instruction := by
    have kept : (program.map some)[index]? = some (some decoded.instruction) := by
      rw [← scanned, List.getElem?_map, item]
      rfl
    simpa using kept
  have modified : program.modify index (fun instruction => instruction.setOperand field value) =
      program.set index (decoded.instruction.setOperand field value) := by
    rw [List.modify_eq_set_getElem?, known]
    rfl
  apply encode_all_iff_scan.mpr
  rw [(scan_patched item here written).2, List.map_set, scanned, modified, List.map_set]
  rfl

theorem encode_all_cut {table : Table} {program : List Instruction} {code : List UInt8}
    (encoded : table.encodeAll program = .ok code) (offset count : Nat) :
    table.encodeAll (program.take count) =
      .ok (code.take (((table.scanFrom offset code).take count).map Item.size).sum) := by
  induction program generalizing code offset count with
  | nil =>
      cases encode_all_nil_iff.mp encoded
      rw [List.take_nil, List.take_nil]
      exact encoded
  | cons instruction program induction =>
      cases count with
      | zero => exact encode_all_nil_iff.mpr rfl
      | succ count =>
          obtain ⟨bytes, rest, head, others, rfl⟩ := encode_all_cons_iff.mp encoded
          obtain ⟨operation, _, found, _⟩ := encode_ok_iff.mp head
          have kept := induction others (offset + bytes.length) count
          have size : Item.size (.instruction ⟨offset, operation, instruction⟩) = bytes.length :=
            (length_of_encode head found).symm
          rw [scan_from_encoded found head, List.take_succ_cons, List.take_succ_cons,
            List.map_cons, List.sum_cons, size, List.take_length_add_append]
          apply encode_all_cons_iff.mpr
          exact ⟨bytes, _, head, kept, rfl⟩

end Table

namespace Authoring

theorem start_faithful (table : Table) : (start table).Faithful :=
  Table.encode_all_nil_iff.mpr rfl

theorem amend_faithful {authoring : Authoring} {revision : Revision} {edit : Edit} {edited : Draft}
    (faithful : authoring.Faithful) (chosen : revision.edit? authoring.draft = some edit)
    (accepted : authoring.draft.apply edit = .ok edited) :
    Faithful ⟨edited, revision.amend authoring.draft.table authoring.program⟩ := by
  cases revision with
  | define entry =>
      cases chosen
      obtain ⟨extended, defined, rfl⟩ := Draft.apply_define_ok_iff.mp accepted
      exact Table.encode_all_of_subset (Table.entries_subset_define defined) faithful
  | emit instruction =>
      cases chosen
      obtain ⟨bytes, encoded, rfl⟩ := Draft.apply_emit_ok_iff.mp accepted
      have single : authoring.draft.table.encodeAll [instruction] = .ok bytes :=
        Table.encode_all_cons_iff.mpr
          ⟨bytes, [], encoded, Table.encode_all_nil_iff.mpr rfl, List.append_nil bytes⟩
      apply Table.encode_all_append_iff.mpr
      exact ⟨_, bytes, faithful, single, rfl⟩
  | appendListing text =>
      cases chosen
      obtain ⟨bytes, assembled, rfl⟩ := Draft.apply_listing_ok_iff.mp accepted
      have listed := (Table.statements_listed assembled).2
      apply Table.encode_all_append_iff.mpr
      exact ⟨_, bytes, faithful, listed, rfl⟩
  | patch index field value =>
      simp only [Revision.edit?] at chosen
      split at chosen
      · next decoded item =>
          obtain ⟨width, here, rfl⟩ := Option.map_eq_some_iff.mp chosen
          obtain ⟨front, written, _, rfl⟩ := Draft.apply_patch_ok_iff.mp accepted
          exact Table.encode_all_patched faithful item here written
      · cases chosen
  | truncate count =>
      cases chosen
      cases accepted
      exact Table.encode_all_cut faithful 0 count

theorem revise_faithful {authoring : Authoring} (faithful : authoring.Faithful)
    (revision : Revision) : (authoring.revise revision).Faithful := by
  unfold revise
  cases chosen : revision.edit? authoring.draft with
  | none => exact faithful
  | some edit =>
      cases outcome : authoring.draft.apply edit with
      | ok edited =>
          have amended := amend_faithful faithful chosen outcome
          simpa only [Draft.step, outcome] using amended
      | error refusal => simpa only [Draft.step, outcome] using faithful

theorem run_faithful {authoring : Authoring} (faithful : authoring.Faithful)
    (revisions : List Revision) : (authoring.run revisions).Faithful := by
  induction revisions generalizing authoring with
  | nil => exact faithful
  | cons revision revisions induction => exact induction (revise_faithful faithful revision)

end Authoring

/-- After any run of revisions, accepted or refused, from no code under any table, the code
scans to exactly the instructions of the program in mind, in their order. -/
theorem run_scans_to_program (base : Table) (revisions : List Revision) :
    let final := (Authoring.start base).run revisions
    (final.draft.table.scan final.draft.code).map Item.instruction? = final.program.map some := by
  intro final
  have faithful : final.Faithful := Authoring.run_faithful (Authoring.start_faithful base) revisions
  exact Table.encode_all_iff_scan.mp faithful

/-- Two of the patches are refused: one value is too wide, one instruction is not there. -/
example :
    let final := (Authoring.start .standard).run
      [.emit ⟨15, [0]⟩, .define ⟨200, ⟨"OpWide", [8, 1]⟩⟩, .appendListing "OpWide 7 7 # new\nOpPop",
        .patch 0 0 13, .patch 1 1 256, .patch 5 0 1, .truncate 2]
    final.draft.code = [15, 0, 13, 200, 0, 0, 0, 0, 0, 0, 0, 7, 7] ∧
      final.program = [⟨15, [13]⟩, ⟨200, [7, 7]⟩] := by
  decide

end Opstream
