import Opstream.Proofs.Tiling

/-!
Streams one behind the other. Main statements: bytes in front of a stream move the positions in
what is decoded from it and change nothing else, and the scans of two streams give that of both
together exactly if no operand of the first is cut short.
-/

namespace Opstream

/-- Unknown opcodes are allowed. -/
def Uncut (items : List Item) : Prop :=
  ∀ offset byte place width available,
    .fault offset byte (.shortOperand place width available) ∉ items

theorem uncut_instruction_iff {decoded : Decoded} {items : List Item} :
    Uncut (.instruction decoded :: items) ↔ Uncut items := by
  simp [Uncut]

theorem uncut_fault_iff {offset : Nat} {byte : UInt8} {cause : CodeError} {items : List Item} :
    Uncut (.fault offset byte cause :: items) ↔
      (∀ place width available, cause ≠ .shortOperand place width available) ∧ Uncut items := by
  constructor
  · intro uncut
    constructor
    · intro place width available same
      exact uncut offset byte place width available (by simp [same])
    · intro offset byte place width available member
      exact uncut offset byte place width available (List.mem_cons_of_mem _ member)
  · intro parts offset byte place width available member
    rcases List.mem_cons.mp member with same | member
    · cases same
      exact parts.1 place width available rfl
    · exact parts.2 offset byte place width available member

/-- The same refusal with `distance` more bytes in front of the stream. -/
def CodeError.shift (distance : Nat) : CodeError → CodeError
  | .shortOperand offset width available => .shortOperand (offset + distance) width available
  | .pastEnd offset length => .pastEnd (offset + distance) (length + distance)
  | cause => cause

def Decoded.shift (distance : Nat) (decoded : Decoded) : Decoded :=
  { decoded with offset := decoded.offset + distance }

def Item.shift (distance : Nat) : Item → Item
  | .instruction decoded => .instruction (decoded.shift distance)
  | .fault offset byte cause => .fault (offset + distance) byte (cause.shift distance)

def shiftAnswer (distance : Nat) : Except CodeError Decoded → Except CodeError Decoded
  | .ok decoded => .ok (decoded.shift distance)
  | .error cause => .error (cause.shift distance)

theorem Operand.short_field_shift (distance : Nat) (widths : List Nat) (offset available : Nat) :
    shortField? widths (offset + distance) available =
      (shortField? widths offset available).map (CodeError.shift distance) := by
  induction widths generalizing offset available with
  | nil => rfl
  | cons width widths induction =>
      rw [shortField?, shortField?, Nat.add_right_comm, induction]
      split_ifs <;> rfl

namespace Table

theorem decode_head_shift (table : Table) (distance offset : Nat) (opcode : UInt8)
    (window : List UInt8) :
    table.decodeHead (offset + distance) opcode window =
      shiftAnswer distance (table.decodeHead offset opcode window) := by
  cases outcome : table.decodeHead offset opcode window with
  | ok decoded =>
      obtain ⟨rfl, found, encoded⟩ := decode_head_ok_iff.mp outcome
      exact decode_head_ok_iff.mpr ⟨rfl, found, encoded⟩
  | error cause =>
      apply decode_head_error_iff.mpr
      rcases decode_head_error_iff.mp outcome with ⟨unknown, rfl⟩ | ⟨operation, found, short⟩
      · exact .inl ⟨unknown, rfl⟩
      · refine .inr ⟨operation, found, ?_⟩
        rw [Nat.add_right_comm, Operand.short_field_shift, short]
        rfl

theorem decode_append (table : Table) (before stream : List UInt8) (offset : Nat) :
    table.decode (before ++ stream) (before.length + offset) =
      shiftAnswer before.length (table.decode stream offset) := by
  rw [decode, decode, List.drop_length_add_append, Nat.add_comm before.length]
  cases stream.drop offset with
  | nil =>
      rw [List.length_append, Nat.add_comm before.length]
      rfl
  | cons opcode window => exact table.decode_head_shift before.length offset opcode window

theorem scan_from_shift (table : Table) (distance offset : Nat) (stream : List UInt8) :
    table.scanFrom (offset + distance) stream =
      (table.scanFrom offset stream).map (Item.shift distance) := by
  induction offset, stream using table.scan_induction with
  | finished offset => rfl
  | instruction offset operation instruction bytes rest found encoded induction =>
      rw [scan_from_encoded found encoded, scan_from_encoded found encoded, List.map_cons,
        Nat.add_right_comm, induction]
      rfl
  | fault offset byte rest cause refused induction =>
      have shifted := table.decode_head_shift distance offset byte rest
      rw [refused] at shifted
      rw [scan_from_fault shifted, scan_from_fault refused, List.map_cons, Nat.add_right_comm,
        induction]
      rfl

theorem decode_head_unknown {table : Table} {offset : Nat} {opcode : UInt8}
    {window : List UInt8} {cause : CodeError}
    (refused : table.decodeHead offset opcode window = .error cause)
    (whole : ∀ place width available, cause ≠ .shortOperand place width available)
    (other : List UInt8) : table.decodeHead offset opcode other = .error cause := by
  rcases decode_head_error_iff.mp refused with unknown | ⟨operation, _, short⟩
  · exact decode_head_error_iff.mpr (.inl unknown)
  · obtain ⟨field, width, _, same⟩ := Operand.short_field_some_iff.mp short
    exact absurd same (whole _ _ _)

theorem scan_from_append {table : Table} {offset : Nat} {front : List UInt8}
    (uncut : Uncut (table.scanFrom offset front)) (rest : List UInt8) :
    table.scanFrom offset (front ++ rest) =
      table.scanFrom offset front ++ table.scanFrom (offset + front.length) rest := by
  induction offset, front using table.scan_induction with
  | finished offset => rfl
  | instruction offset operation instruction bytes behind found encoded induction =>
      rw [scan_from_encoded found encoded, uncut_instruction_iff] at uncut
      rw [List.append_assoc, scan_from_encoded found encoded, scan_from_encoded found encoded,
        induction uncut, List.cons_append, List.length_append, Nat.add_assoc]
  | fault offset byte behind cause refused induction =>
      rw [scan_from_fault refused, uncut_fault_iff] at uncut
      obtain ⟨whole, uncut⟩ := uncut
      have still_refused := decode_head_unknown refused whole (behind ++ rest)
      rw [List.cons_append, scan_from_fault still_refused, scan_from_fault refused,
        induction uncut, List.cons_append, List.length_cons, Nat.add_right_comm, Nat.add_assoc]

theorem scan_append {table : Table} {front : List UInt8} (uncut : Uncut (table.scan front))
    (rest : List UInt8) :
    table.scan (front ++ rest) = table.scan front ++ table.scanFrom front.length rest := by
  have joined := scan_from_append uncut rest
  rwa [Nat.zero_add] at joined

theorem short_operand_completed {table : Table} {front : List UInt8}
    {offset place width available : Nat}
    (cut : table.decode front offset = .error (.shortOperand place width available)) :
    ∃ rest decoded, table.decode (front ++ rest) offset = .ok decoded := by
  rw [decode] at cut
  cases ahead : front.drop offset with
  | nil =>
      rw [ahead] at cut
      cases cut
  | cons opcode window =>
      rw [ahead] at cut
      rcases decode_head_error_iff.mp cut with ⟨_, same⟩ | ⟨operation, found, _⟩
      · cases same
      · have inside : offset ≤ front.length := by
          by_contra outside
          rw [List.drop_eq_nil_of_le (by omega)] at ahead
          cases ahead
        have room : operation.widths.sum ≤
            (window ++ List.replicate operation.widths.sum 0).length := by simp
        obtain ⟨decoded, complete⟩ := decode_head_succeeds found room offset
        refine ⟨List.replicate operation.widths.sum 0, decoded, ?_⟩
        rw [decode, List.drop_append_of_le_length inside, ahead]
        exact complete

end Table

/-- Decoding behind other bytes gives what it gives without them, but for the positions in the
answer, which count from the start of the stream. Two streams are scanned one after the other,
whatever the second is, exactly if no operand of the first is cut short. -/
theorem scans_join_unless_cut (table : Table) :
    (∀ before stream offset, table.decode (before ++ stream) (before.length + offset) =
      shiftAnswer before.length (table.decode stream offset)) ∧
    ∀ front, Uncut (table.scan front) ↔ ∀ rest,
      table.scan (front ++ rest) =
        table.scan front ++ (table.scan rest).map (Item.shift front.length) := by
  refine ⟨table.decode_append, ?_⟩
  intro front
  constructor
  · intro uncut rest
    have shifted := table.scan_from_shift front.length 0 rest
    rw [Nat.zero_add] at shifted
    rw [Table.scan_append uncut, shifted]
    rfl
  · intro joined offset byte place width available member
    have cut : table.decode front offset = .error (.shortOperand place width available) :=
      table.decode_scan_from [] front _ member
    obtain ⟨rest, decoded, complete⟩ := Table.short_operand_completed cut
    have still : .fault offset byte (.shortOperand place width available) ∈
        table.scan (front ++ rest) := by
      rw [joined rest]
      exact List.mem_append_left _ member
    have answer := table.decode_scan_from [] (front ++ rest) _ still
    rw [List.nil_append, Item.offset, complete] at answer
    cases answer

end Opstream
