import Opstream.Proofs.Encoding
import Opstream.Proofs.Numerals
import Opstream.Table.Standard

/-!
Operands out of bytes. Main statements: the operands of any operation are read from a window up to
the first that is short, and what decoding at an offset answers is told by how many bytes there are
from the opcode on, whatever their values.
-/

namespace Opstream

namespace Operand

/-- Operands that stand in a window one behind the other, each a number in its own width. -/
structure Spelled (widths : List Nat) (window : List UInt8) (values : List Operand) : Prop where
  arity : values.length = widths.length
  number : ∀ (field width : Nat) (value : Operand), widths[field]? = some width →
    values[field]? = some value →
      value.toNat = BigEndian.number width (window.drop (widths.take field).sum)
  bound : ∀ (field width : Nat) (value : Operand), widths[field]? = some width →
    values[field]? = some value → value.toNat < 256 ^ width

theorem Spelled.unique {widths : List Nat} {window : List UInt8} {left right : List Operand}
    (first : Spelled widths window left) (second : Spelled widths window right) :
    left = right := by
  apply List.ext_getElem (first.arity.trans second.arity.symm)
  intro field inLeft inRight
  have inside : field < widths.length := first.arity ▸ inLeft
  apply UInt64.toNat_inj.mp
  rw [first.number field widths[field] left[field] (List.getElem?_eq_getElem inside)
      (List.getElem?_eq_getElem inLeft),
    second.number field widths[field] right[field] (List.getElem?_eq_getElem inside)
      (List.getElem?_eq_getElem inRight)]

theorem read_of_read_fields {widths : List Nat} {offset stop : Nat} {window : List UInt8}
    {values : List Operand} (found : readFields widths offset window = .ok (values, stop)) :
    ∀ (field width : Nat) (value : Operand), widths[field]? = some width →
      values[field]? = some value → read (window.drop (widths.take field).sum) width = .ok value := by
  induction widths generalizing offset window values with
  | nil => simp
  | cons first widths induction =>
      cases values with
      | nil => simp
      | cons head values =>
          obtain ⟨leading, others⟩ := read_fields_cons_iff.mp found
          intro field width value here there
          cases field with
          | zero =>
              cases here
              cases there
              exact leading
          | succ field =>
              have inner := induction others field width value here there
              rw [List.drop_drop] at inner
              rw [List.take_succ_cons, List.sum_cons]
              exact inner

theorem spelled_of_read_fields {widths : List Nat} {offset stop : Nat} {window : List UInt8}
    {values : List Operand} (found : readFields widths offset window = .ok (values, stop)) :
    Spelled widths window values where
  arity := (read_fields_ok_iff.mp found).2.1
  number field width value here there :=
    (read_ok_iff_number.mp (read_of_read_fields found field width value here there)).2.2
  bound field width value here there :=
    lt_of_read (read_of_read_fields found field width value here there)

theorem read_fields_succeeds_iff {widths : List Nat} {window : List UInt8} (offset : Nat) :
    (∃ result, readFields widths offset window = .ok result) ↔
      (∀ width ∈ widths, width ∈ supportedWidths) ∧ widths.sum ≤ window.length := by
  rw [← short_field_none_iff]
  cases outcome : readFields widths offset window with
  | error cause =>
      rw [read_fields_error_iff.mp outcome]
      simp
  | ok result =>
      have whole : shortField? widths offset window.length = none := by
        rw [Option.eq_none_iff_forall_ne_some]
        intro cause short
        rw [read_fields_error_iff.mpr short] at outcome
        contradiction
      simp [whole]

theorem read_fields_ok_iff_spelled {widths : List Nat} {offset stop : Nat} {window : List UInt8}
    {values : List Operand} :
    readFields widths offset window = .ok (values, stop) ↔
      ((∀ width ∈ widths, width ∈ supportedWidths) ∧ widths.sum ≤ window.length) ∧
        stop = offset + widths.sum ∧ Spelled widths window values := by
  constructor
  · intro found
    have readable := (read_fields_succeeds_iff offset).mp ⟨_, found⟩
    exact ⟨readable, (read_fields_ok_iff.mp found).1, spelled_of_read_fields found⟩
  · intro stands
    obtain ⟨readable, rfl, spelled⟩ := stands
    obtain ⟨⟨others, stop⟩, found⟩ := (read_fields_succeeds_iff offset).mpr readable
    have ends := (read_fields_ok_iff.mp found).1
    have same := spelled.unique (spelled_of_read_fields found)
    rw [found, ends, same]

theorem read_fields_error_iff_first {widths : List Nat} {offset : Nat} {window : List UInt8}
    {cause : CodeError} :
    readFields widths offset window = .error cause ↔
      ∃ field width, FirstShort widths window.length field width ∧
        cause = .shortOperand (offset + (widths.take field).sum) width
          (window.length - (widths.take field).sum) :=
  read_fields_error_iff.trans short_field_some_iff

/-- The part of a window from `start` on. There is none if `start` is behind the end. -/
def tail? (window : List UInt8) (start : Nat) : Option (List UInt8) :=
  if start ≤ window.length then some (window.drop start) else none

/-- Reads the fields of a window that stays whole, with the position where the next one begins. A
field that begins behind the end of the window is not a refusal but `none`. -/
def readFieldsAt (window : List UInt8) :
    List Nat → (offset : Nat) → Option (Except CodeError (List Operand × Nat))
  | [], offset => some (.ok ([], offset))
  | width :: widths, offset => do
      let tail ← tail? window offset
      match read tail width with
      | .error _ => some (.error (.shortOperand offset width (window.length - offset)))
      | .ok value =>
          let rest ← readFieldsAt window widths (offset + width)
          some (rest.map fun fields => (value :: fields.1, fields.2))

/-- No field begins behind the end: one that is read ends inside, and the next begins there. -/
theorem read_fields_at_eq {window : List UInt8} {widths : List Nat} {offset : Nat}
    (inside : offset ≤ window.length) :
    readFieldsAt window widths offset =
      some (readFields widths offset (window.drop offset)) := by
  induction widths generalizing offset with
  | nil => rfl
  | cons width widths induction =>
      have tail : tail? window offset = some (window.drop offset) := if_pos inside
      rw [readFieldsAt, readFields, tail, Option.bind_eq_bind, Option.bind_some]
      cases found : read (window.drop offset) width with
      | error cause => rw [List.length_drop]
      | ok value =>
          have room := (read_ok_iff_number.mp found).2.1
          rw [List.length_drop] at room
          have next : offset + width ≤ window.length := by omega
          rw [induction next, List.drop_drop]
          cases readFields widths (offset + width) (window.drop (offset + width)) with
          | error cause => rfl
          | ok fields => rfl

end Operand

namespace Operation

/-- How reading the operands of an operation from a window ends. Its widths may be any numbers. -/
inductive Reads (operation : Operation) (window : List UInt8) :
    Except CodeError (List Operand × Nat) → Prop where
  | whole {values : List Operand}
      (supported : ∀ width ∈ operation.widths, width ∈ supportedWidths)
      (room : operation.widths.sum ≤ window.length)
      (spelled : Operand.Spelled operation.widths window values) :
      Reads operation window (.ok (values, operation.widths.sum))
  | short {field width : Nat}
      (first : Operand.FirstShort operation.widths window.length field width) :
      Reads operation window (.error (.shortOperand (operation.widths.take field).sum width
        (window.length - (operation.widths.take field).sum)))

theorem read_operands_iff {operation : Operation} {window : List UInt8}
    {outcome : Except CodeError (List Operand × Nat)} :
    operation.readOperands window = outcome ↔ operation.Reads window outcome := by
  unfold readOperands
  apply answer_iff
  · cases outcome : Operand.readFields operation.widths 0 window with
    | ok result =>
        obtain ⟨values, stop⟩ := result
        obtain ⟨⟨supported, room⟩, ends, spelled⟩ :=
          Operand.read_fields_ok_iff_spelled.mp outcome
        rw [Nat.zero_add] at ends
        subst ends
        exact .whole supported room spelled
    | error cause =>
        obtain ⟨field, width, first, rfl⟩ := Operand.read_fields_error_iff_first.mp outcome
        rw [Nat.zero_add]
        exact .short first
  · intro outcome reads
    cases reads with
    | whole supported room spelled =>
        apply Operand.read_fields_ok_iff_spelled.mpr
        exact ⟨⟨supported, room⟩, (Nat.zero_add _).symm, spelled⟩
    | @short field width first =>
        apply Operand.read_fields_error_iff_first.mpr
        exact ⟨field, width, first, by rw [Nat.zero_add]⟩

theorem read_operands_append {operation : Operation} {window : List UInt8}
    {values : List Operand} {stop : Nat}
    (found : operation.readOperands window = .ok (values, stop)) (rest : List UInt8) :
    operation.readOperands (window.take stop ++ rest) = .ok (values, stop) := by
  have room := ((Operand.read_fields_succeeds_iff 0).mp ⟨_, found⟩).2
  obtain ⟨ends, arity, encoded⟩ := Operand.read_fields_ok_iff.mp found
  apply Operand.read_fields_ok_iff.mpr
  rw [ends, Nat.zero_add, List.take_left' (List.length_take_of_le room)]
  exact ⟨rfl, arity, encoded⟩

end Operation

/-- Take an operation with any widths at all, whether they have an encoding or not. Its operands
are read exactly if every width is supported and the window is as long as their sum; then each of
them is the number that its own bytes spell, and bytes behind the last have no effect. Otherwise
the refusal is for the first field that is not supported or does not fit, it says truly where in the
window that field begins, and how many bytes there are from there to the window's end. No field is
ever looked for behind the end of the window. -/
theorem operands_read_up_to_first_short (operation : Operation) (window : List UInt8) :
    (∀ outcome, operation.readOperands window = outcome ↔ operation.Reads window outcome) ∧
    ((∃ read, operation.readOperands window = .ok read) ↔
      (∀ width ∈ operation.widths, width = 1 ∨ width = 2 ∨ width = 4 ∨ width = 8) ∧
        operation.widths.sum ≤ window.length) ∧
    (∀ values stop, operation.readOperands window = .ok (values, stop) →
      ∀ rest, operation.readOperands (window.take stop ++ rest) = .ok (values, stop)) ∧
    (∀ place width available,
      operation.readOperands window = .error (.shortOperand place width available) →
        place + available = window.length) ∧
    Operand.readFieldsAt window operation.widths 0 = some (operation.readOperands window) := by
  refine ⟨fun _ => Operation.read_operands_iff, ?_, ?_, ?_,
    Operand.read_fields_at_eq (Nat.zero_le _)⟩
  · have readable : (∃ read, operation.readOperands window = .ok read) ↔
        (∀ width ∈ operation.widths, width ∈ supportedWidths) ∧
          operation.widths.sum ≤ window.length := Operand.read_fields_succeeds_iff 0
    simpa only [supportedWidths, List.mem_cons, List.not_mem_nil, or_false] using readable
  · intro values stop found
    exact Operation.read_operands_append found
  · intro place width available refused
    cases Operation.read_operands_iff.mp refused with
    | short first => exact Nat.add_sub_of_le first.start_le

/-- A width of three bytes is refused with room for it too, and so is one that never fits; operands
of other widths in front of it are read. -/
theorem odd_width_refused_in_place :
    let odd : Operation := ⟨"Odd", [2, 3, 1]⟩
    let pair : Operation := ⟨"Pair", [1, 2]⟩
    let window : List UInt8 := [7, 1, 2, 9, 9, 9]
    odd.readOperands window = .error (.shortOperand 2 3 4) ∧ 2 + 4 = window.length ∧
      pair.readOperands window = .ok ([7, 258], 3) ∧
      pair.readOperands [7, 1, 2] = .ok ([7, 258], 3) ∧
      Operand.readFieldsAt window pair.widths 0 = some (.ok ([7, 258], 3)) := by
  intro odd pair window
  obtain ⟨_, _, _, placed, _⟩ := operands_read_up_to_first_short odd window
  obtain ⟨_, _, stable, _, inside⟩ := operands_read_up_to_first_short pair window
  have refused : odd.readOperands window = .error (.shortOperand 2 3 4) := by decide
  have found : pair.readOperands window = .ok ([7, 258], 3) := by decide
  have whole := inside.trans (congrArg some found)
  exact ⟨refused, placed 2 3 4 refused, found, stable [7, 258] 3 found [], whole⟩

namespace Table

inductive Decodes (table : Table) (stream : List UInt8) (offset : Nat) :
    Except CodeError Decoded → Prop where
  | pastEnd (beyond : stream.length ≤ offset) :
      Decodes table stream offset (.error (.pastEnd offset stream.length))
  | unknown {opcode : UInt8} (here : stream[offset]? = some opcode)
      (undefined : opcode ∉ table.opcodes) :
      Decodes table stream offset (.error (.undefinedOpcode opcode))
  | short {opcode : UInt8} {operation : Operation} {field width : Nat}
      (here : stream[offset]? = some opcode) (found : table.lookup opcode = .ok operation)
      (cut : stream.length < offset + operation.size)
      (reached : operation.widths[field]? = some width)
      (beyond : stream.length < offset + operation.fieldOffset field + width)
      (before : ∀ earlier other, earlier < field → operation.widths[earlier]? = some other →
        offset + operation.fieldOffset earlier + other ≤ stream.length) :
      Decodes table stream offset (.error (.shortOperand (offset + operation.fieldOffset field)
        width (stream.length - (offset + operation.fieldOffset field))))
  | whole {opcode : UInt8} {operation : Operation} {operands : List Operand}
      (here : stream[offset]? = some opcode) (found : table.lookup opcode = .ok operation)
      (room : offset + operation.size ≤ stream.length)
      (spelled : Operand.Spelled operation.widths (stream.drop (offset + 1)) operands) :
      Decodes table stream offset (.ok ⟨offset, operation, ⟨opcode, operands⟩⟩)

theorem decode_beyond (table : Table) {stream : List UInt8} {offset : Nat}
    (beyond : stream.length ≤ offset) :
    table.decode stream offset = .error (.pastEnd offset stream.length) := by
  rw [decode, List.drop_eq_nil_of_le beyond]

theorem decode_at (table : Table) {stream : List UInt8} {offset : Nat} {opcode : UInt8}
    (here : stream[offset]? = some opcode) :
    table.decode stream offset = table.decodeHead offset opcode (stream.drop (offset + 1)) := by
  obtain ⟨inside, rfl⟩ := List.getElem?_eq_some_iff.mp here
  rw [decode, List.drop_eq_getElem_cons inside]

theorem decode_head_spelled_iff {table : Table} {offset : Nat} {opcode : UInt8}
    {window : List UInt8} {decoded : Decoded} :
    table.decodeHead offset opcode window = .ok decoded ↔
      ∃ operation operands, table.lookup opcode = .ok operation ∧
        operation.widths.sum ≤ window.length ∧
        Operand.Spelled operation.widths window operands ∧
        decoded = ⟨offset, operation, ⟨opcode, operands⟩⟩ := by
  simp only [decodeHead, bind_ok_iff, Prod.exists, Operand.read_fields_ok_iff_spelled,
    Except.ok.injEq]
  constructor
  · intro read
    obtain ⟨operation, found, operands, stop, ⟨⟨_, room⟩, _, spelled⟩, rfl⟩ := read
    exact ⟨operation, operands, found, room, spelled, rfl⟩
  · intro stands
    obtain ⟨operation, operands, found, room, spelled, rfl⟩ := stands
    have supported := table.supported _ (lookup_ok_iff.mp found)
    exact ⟨operation, found, operands, _, ⟨⟨supported, room⟩, rfl, spelled⟩, rfl⟩

/-- In a table all widths are supported, so a field is short only for want of bytes. -/
theorem first_short_iff {table : Table} {opcode : UInt8} {operation : Operation}
    (found : table.lookup opcode = .ok operation) {available field width : Nat} :
    Operand.FirstShort operation.widths available field width ↔
      operation.widths[field]? = some width ∧
        available < (operation.widths.take field).sum + width ∧
        ∀ earlier other, earlier < field → operation.widths[earlier]? = some other →
          (operation.widths.take earlier).sum + other ≤ available := by
  have supported := table.supported _ (lookup_ok_iff.mp found)
  constructor
  · intro first
    refine ⟨first.here, ?_, ?_⟩
    · apply Nat.not_le.mp
      intro room
      exact first.stuck ⟨supported width (List.mem_of_getElem? first.here), room⟩
    · intro earlier other below there
      exact (first.before earlier other below there).2
  · intro cut
    obtain ⟨here, beyond, before⟩ := cut
    refine ⟨here, ?_, ?_⟩
    · intro fit
      exact absurd fit.2 (Nat.not_le.mpr beyond)
    · intro earlier other below there
      exact ⟨supported other (List.mem_of_getElem? there), before earlier other below there⟩

theorem short_field_at_iff {table : Table} {stream : List UInt8} {offset : Nat} {opcode : UInt8}
    {operation : Operation} {cause : CodeError} (inside : offset < stream.length)
    (found : table.lookup opcode = .ok operation) :
    Operand.shortField? operation.widths (offset + 1) (stream.drop (offset + 1)).length =
        some cause ↔
      ∃ field width, operation.widths[field]? = some width ∧
        stream.length < offset + operation.fieldOffset field + width ∧
        (∀ earlier other, earlier < field → operation.widths[earlier]? = some other →
          offset + operation.fieldOffset earlier + other ≤ stream.length) ∧
        cause = .shortOperand (offset + operation.fieldOffset field) width
          (stream.length - (offset + operation.fieldOffset field)) := by
  have start (field : Nat) : offset + 1 + (operation.widths.take field).sum =
      offset + operation.fieldOffset field := Nat.add_assoc ..
  have room (field width : Nat) :
      (operation.widths.take field).sum + width ≤ stream.length - (offset + 1) ↔
        offset + operation.fieldOffset field + width ≤ stream.length := by
    rw [← start]
    omega
  have remaining (field : Nat) :
      stream.length - (offset + 1) - (operation.widths.take field).sum =
        stream.length - (offset + operation.fieldOffset field) := by
    rw [← start]
    omega
  rw [Operand.short_field_some_iff, List.length_drop]
  simp only [first_short_iff found, start, remaining, room, ← Nat.not_le, and_assoc]

theorem decodes_decode (table : Table) (stream : List UInt8) (offset : Nat) :
    table.Decodes stream offset (table.decode stream offset) := by
  cases here : stream[offset]? with
  | none =>
      have beyond := List.getElem?_eq_none_iff.mp here
      rw [decode_beyond table beyond]
      exact .pastEnd beyond
  | some opcode =>
      have inside := (List.getElem?_eq_some_iff.mp here).1
      rw [decode_at table here]
      cases outcome : table.decodeHead offset opcode (stream.drop (offset + 1)) with
      | ok decoded =>
          obtain ⟨operation, operands, found, room, spelled, rfl⟩ :=
            decode_head_spelled_iff.mp outcome
          rw [List.length_drop] at room
          refine .whole here found ?_ spelled
          rw [Operation.size_eq]
          omega
      | error cause =>
          rcases decode_head_error_iff.mp outcome with ⟨undefined, rfl⟩ | ⟨operation, found, short⟩
          · exact .unknown here undefined
          · obtain ⟨field, width, reached, beyond, before, rfl⟩ :=
              (short_field_at_iff inside found).mp short
            have ended := Operand.field_inside reached
            refine .short here found ?_ reached beyond before
            rw [Operation.fieldOffset] at beyond
            rw [Operation.size_eq]
            omega

theorem decode_of_decodes {table : Table} {stream : List UInt8} {offset : Nat}
    {outcome : Except CodeError Decoded} (decodes : table.Decodes stream offset outcome) :
    table.decode stream offset = outcome := by
  cases decodes with
  | pastEnd beyond => exact decode_beyond table beyond
  | unknown here undefined =>
      rw [decode_at table here]
      exact decode_head_error_iff.mpr (.inl ⟨undefined, rfl⟩)
  | short here found cut reached beyond before =>
      have inside := (List.getElem?_eq_some_iff.mp here).1
      have short := (short_field_at_iff inside found).mpr ⟨_, _, reached, beyond, before, rfl⟩
      rw [decode_at table here]
      exact decode_head_error_iff.mpr (.inr ⟨_, found, short⟩)
  | whole here found room spelled =>
      rw [Operation.size_eq] at room
      rw [decode_at table here]
      refine decode_head_spelled_iff.mpr ⟨_, _, found, ?_, spelled, rfl⟩
      rw [List.length_drop]
      omega

end Table

/-- Decoding at an offset answers in one of four ways, and the length of the stream alone tells
which of them it is for a given opcode. Behind the end there is no opcode; an opcode may stand for
nothing; the stream may end before the instruction does, which is told of the first operand that it
ends in front of or inside, with where that operand begins and how many bytes are left of it; and
otherwise all operands are the numbers that their own bytes spell. -/
theorem decoding_told_by_stream_end (table : Table) (stream : List UInt8) (offset : Nat) :
    (∀ outcome, table.decode stream offset = outcome ↔ table.Decodes stream offset outcome) ∧
    ∀ place width available,
      table.decode stream offset = .error (.shortOperand place width available) →
        available < width ∧ place + available = stream.length := by
  have answers {outcome : Except CodeError Decoded} :
      table.decode stream offset = outcome ↔ table.Decodes stream offset outcome :=
    answer_iff (table.decodes_decode stream offset) Table.decode_of_decodes
  refine ⟨fun _ => answers, ?_⟩
  intro place width available refused
  cases answers.mp refused with
  | @short opcode operation field width here found cut reached beyond before =>
      have inside := (List.getElem?_eq_some_iff.mp here).1
      have short := (Table.short_field_at_iff inside found).mpr
        ⟨field, width, reached, beyond, before, rfl⟩
      obtain ⟨_, _, first, same⟩ := Operand.short_field_some_iff.mp short
      have begun := first.start_le
      rw [List.length_drop] at begun
      injection same with place
      constructor
      · omega
      · omega

/-- The second operand of a pair that is two bytes short, behind a byte that stands for nothing. -/
theorem pair_short_of_two_bytes :
    let table : Table := ⟨[⟨1, ⟨"Pair", [2, 4]⟩⟩], by decide, by decide, by decide⟩
    let stream : List UInt8 := [255, 1, 0, 7, 0, 1]
    table.decode stream 0 = .error (.undefinedOpcode 255) ∧
      table.decode stream 1 = .error (.shortOperand 4 4 2) ∧ 2 < 4 ∧ 4 + 2 = stream.length ∧
      table.decode stream 6 = .error (.pastEnd 6 6) ∧
      table.decode (stream ++ [2, 3, 4]) 1 = .ok ⟨1, ⟨"Pair", [2, 4]⟩, ⟨1, [7, 66051]⟩⟩ := by
  intro table stream
  have short : table.decode stream 1 = .error (.shortOperand 4 4 2) := by decide
  obtain ⟨below, reaches⟩ := (decoding_told_by_stream_end table stream 1).2 4 4 2 short
  have beyond : stream.length ≤ 6 := by decide
  have ended := ((decoding_told_by_stream_end table stream 6).1 _).mpr (.pastEnd beyond)
  exact ⟨by decide, short, below, reaches, ended, by decide⟩

end Opstream
