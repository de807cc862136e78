import Opstream.Draft
import Opstream.Proofs.Tiling

/-!
What overwriting one operand of a stream does to its scan. Main statement: the operand changes
and nothing else, in streams with faults too, because an operand's bytes are read by its own
instruction alone and everything in front depends only on how many bytes follow.
-/

namespace Opstream

def Decoded.setOperand (decoded : Decoded) (field : Nat) (value : Operand) : Decoded :=
  { decoded with instruction := decoded.instruction.setOperand field value }

namespace Table

theorem decode_head_refused {table : Table} {offset : Nat} {opcode : UInt8}
    {window other : List UInt8} {cause : CodeError}
    (refused : table.decodeHead offset opcode window = .error cause)
    (length : other.length = window.length) :
    table.decodeHead offset opcode other = .error cause := by
  rw [decode_head_error_iff] at refused ⊢
  rw [length]
  exact refused

/-- Where a scan finds an instruction, the stream falls into the bytes in front, the bytes of the
instruction and the rest. What is found in front depends on the bytes from there on only by their
number. -/
theorem scan_from_around {table : Table} {offset index : Nat} {stream : List UInt8}
    {decoded : Decoded}
    (found : (table.scanFrom offset stream)[index]? = some (.instruction decoded)) :
    ∃ before bytes rest earlier,
      stream = before ++ (bytes ++ rest) ∧ decoded.offset = offset + before.length ∧
      earlier.length = index ∧
      table.lookup decoded.instruction.opcode = .ok decoded.operation ∧
      table.encode decoded.instruction = .ok bytes ∧
      table.scanFrom offset stream =
        earlier ++ .instruction decoded :: table.scanFrom (decoded.offset + bytes.length) rest ∧
      ∀ others : List UInt8, others.length = (bytes ++ rest).length →
        table.scanFrom offset (before ++ others) =
          earlier ++ table.scanFrom decoded.offset others := by
  induction offset, stream using table.scan_induction generalizing index with
  | finished offset => cases found
  | instruction offset operation instruction bytes rest known encoded induction =>
      rw [scan_from_encoded known encoded] at found ⊢
      cases index with
      | zero =>
          cases found
          exact ⟨[], bytes, rest, [], rfl, rfl, rfl, known, encoded, rfl, fun _ _ => rfl⟩
      | succ index =>
          obtain ⟨before, inner, after, earlier, rfl, place, count, looked, center, whole, front⟩ :=
            induction found
          refine ⟨bytes ++ before, inner, after, _ :: earlier, (List.append_assoc ..).symm, ?_,
            congrArg Nat.succ count, looked, center, congrArg (List.cons _) whole, ?_⟩
          · rw [place, List.length_append, Nat.add_assoc]
          · intro others length
            rw [List.append_assoc, scan_from_encoded known encoded, front others length,
              List.cons_append]
  | fault offset byte rest cause refused induction =>
      rw [scan_from_fault refused] at found ⊢
      cases index with
      | zero => cases found
      | succ index =>
          obtain ⟨before, inner, after, earlier, rfl, place, count, looked, center, whole, front⟩ :=
            induction found
          refine ⟨byte :: before, inner, after, _ :: earlier, rfl, ?_, congrArg Nat.succ count,
            looked, center, congrArg (List.cons _) whole, ?_⟩
          · rw [place, List.length_cons, Nat.add_right_comm, Nat.add_assoc]
          · intro others length
            have still_refused : table.decodeHead offset byte (before ++ others) = .error cause := by
              apply decode_head_refused refused
              rw [List.length_append, List.length_append, length]
            rw [List.cons_append, scan_from_fault still_refused, front others length,
              List.cons_append]

theorem overwrite_inside (before piece rest front : List UInt8) {place width : Nat}
    (inside : place + width ≤ piece.length) :
    (before ++ (piece ++ rest)).take (before.length + place) ++
        (front ++ ((before ++ (piece ++ rest)).drop (before.length + place)).drop width) =
      before ++ (piece.take place ++ front ++ piece.drop (place + width) ++ rest) := by
  rw [List.take_length_add_append, List.drop_length_add_append, List.drop_drop,
    List.take_append_of_le_length (by omega), List.drop_append_of_le_length inside]
  simp only [List.append_assoc]

/-- The patched instruction is as long as it was, so the scan goes on where it went on before. -/
theorem scan_patched {table : Table} {stream front : List UInt8} {index field width : Nat}
    {decoded : Decoded} {value : Operand}
    (found : (table.scan stream)[index]? = some (.instruction decoded))
    (here : decoded.operation.widths[field]? = some width)
    (written : Operand.encode value width = .ok front) :
    let place := decoded.offset + decoded.operation.fieldOffset field
    place + width ≤ stream.length ∧
      table.scan (stream.take place ++ (front ++ (stream.drop place).drop width)) =
        (table.scan stream).set index (.instruction (decoded.setOperand field value)) := by
  obtain ⟨before, bytes, rest, earlier, rfl, start, count, known, encoded, whole, settled⟩ :=
    scan_from_around found
  rw [Nat.zero_add] at start
  have patched := encode_set_operand encoded known here written
  have size := length_of_encode encoded known
  have inside : decoded.operation.fieldOffset field + width ≤ bytes.length := by
    have field_inside := Operand.field_inside here
    rw [size, Operation.size_eq, Operation.fieldOffset]
    omega
  have spliced := overwrite_inside before bytes rest front inside
  rw [← start] at spliced
  have still_known : table.lookup (decoded.instruction.setOperand field value).opcode =
      .ok decoded.operation := known
  intro place
  constructor
  · simp only [place, start, List.length_append]
    omega
  · rw [spliced]
    generalize bytes.take _ ++ front ++ bytes.drop _ = fresh at patched ⊢
    have same_size := (length_of_encode patched still_known).trans size.symm
    have found_again := settled (fresh ++ rest) (by simp [same_size])
    rw [scan_from_encoded still_known patched, same_size] at found_again
    rw [scan, scan, found_again, whole, List.set_append_right _ _ (Nat.le_of_eq count), count,
      Nat.sub_self, List.set_cons_zero]
    rfl

end Table

namespace Draft

theorem step_patch_ok {draft : Draft} {offset width : Nat} {value : Operand} {tail : List UInt8}
    (written : Operand.write (draft.code.drop offset) value width = .ok tail) :
    draft.step (.patch offset value width) =
      { draft with code := draft.code.take offset ++ tail } := by
  simp only [step, apply, written]
  rfl

theorem step_patch_error {draft : Draft} {offset width : Nat} {value : Operand}
    {cause : CodeError}
    (refused : Operand.write (draft.code.drop offset) value width = .error cause) :
    draft.step (.patch offset value width) = draft := by
  simp only [step, apply, refused]
  rfl

end Draft

/-- Take any operand of any instruction that the scan of a stream finds, among faults or not.
Writing a value over it in place succeeds exactly if the value fits the operand's width. Then the
scan finds the same items with the same offsets and faults, but for the value of that operand;
otherwise the value is refused as too large and the stream stays as it was. -/
theorem patch_changes_one_operand (table : Table) (stream : List UInt8) {index field width : Nat}
    {decoded : Decoded} (value : Operand)
    (found : (table.scan stream)[index]? = some (.instruction decoded))
    (here : decoded.operation.widths[field]? = some width) :
    let place := decoded.offset + decoded.operation.fieldOffset field
    let outcome := Operand.write (stream.drop place) value width
    let draft := (Draft.mk table stream).step (.patch place value width)
    ((∃ tail, outcome = .ok tail) ↔ value.toNat < 256 ^ width) ∧
      (∀ tail, outcome = .ok tail →
        draft = ⟨table, stream.take place ++ tail⟩ ∧
        table.scan (stream.take place ++ tail) =
          (table.scan stream).set index (.instruction (decoded.setOperand field value))) ∧
      (¬ value.toNat < 256 ^ width →
        outcome = .error (.oversizedOperand value width) ∧ draft = ⟨table, stream⟩) := by
  intro place outcome draft
  have known := (Table.scanned_accepted (List.mem_of_getElem? found)).1
  have supported : width ∈ supportedWidths :=
    table.supported _ (Table.lookup_ok_iff.mp known) width (List.mem_of_getElem? here)
  have refused : ¬ value.toNat < 256 ^ width →
      outcome = .error (.oversizedOperand value width) := by
    intro oversized
    simp only [outcome, Operand.write, Operand.encode_oversized supported oversized]
    rfl
  refine ⟨⟨?_, ?_⟩, ?_, ?_⟩
  · intro written
    obtain ⟨tail, written⟩ := written
    by_contra oversized
    rw [refused oversized] at written
    contradiction
  · intro fits
    obtain ⟨front, written⟩ := Operand.encode_succeeds supported fits
    have room := (Table.scan_patched found here written).1
    refine ⟨_, Operand.write_ok_iff.mpr ⟨front, written, ?_, rfl⟩⟩
    rw [List.length_drop]
    exact Nat.le_sub_of_add_le' room
  · intro tail written
    obtain ⟨front, encoded, _, rfl⟩ := Operand.write_ok_iff.mp written
    exact ⟨Draft.step_patch_ok written, (Table.scan_patched found here encoded).2⟩
  · intro oversized
    exact ⟨refused oversized, Draft.step_patch_error (refused oversized)⟩

/-- A jump behind an unknown opcode and in front of one that is cut short. -/
theorem jump_among_faults_patched :
    let stream : List UInt8 := [255, 15, 0, 7, 14, 0]
    let jump : Decoded := ⟨1, ⟨"OpJump", [2]⟩, ⟨15, [7]⟩⟩
    (Table.standard.scan stream)[1]? = some (.instruction jump) ∧
      jump.operation.widths[0]? = some 2 ∧
      Operand.write (stream.drop 2) 258 2 = .ok [1, 2, 14, 0] ∧
      Table.standard.scan [255, 15, 1, 2, 14, 0] =
        [.fault 0 255 (.undefinedOpcode 255), .instruction ⟨1, ⟨"OpJump", [2]⟩, ⟨15, [258]⟩⟩,
          .fault 4 14 (.shortOperand 5 2 1), .fault 5 0 (.shortOperand 6 2 0)] ∧
      Operand.write (stream.drop 2) 65536 2 = .error (.oversizedOperand 65536 2) := by
  intro stream jump
  have found : (Table.standard.scan stream)[1]? = some (.instruction jump) := by decide
  have here : jump.operation.widths[0]? = some 2 := rfl
  have written : Operand.write (stream.drop 2) 258 2 = .ok [1, 2, 14, 0] := by decide
  obtain ⟨_, accepted, _⟩ := patch_changes_one_operand Table.standard stream 258 found here
  obtain ⟨_, _, refused⟩ := patch_changes_one_operand Table.standard stream 65536 found here
  have scanned := (accepted _ written).2
  exact ⟨found, here, written, scanned.trans (by decide), (refused (by decide)).1⟩

end Opstream
