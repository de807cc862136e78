import Opstream.Proofs.Unpacking

/-!
Operands into bytes. Main statement: what encoding an instruction answers, refusal by refusal, and
that building the instruction in place, field by field in a blank buffer, comes to the same.
-/

namespace Opstream

namespace Operand

theorem encode_error_iff {value : Operand} {width : Nat} {cause : CodeError}
    (supported : width ∈ supportedWidths) :
    encode value width = .error cause ↔
      256 ^ width ≤ value.toNat ∧ cause = .oversizedOperand value width := by
  by_cases fits : value.toNat < 256 ^ width
  · obtain ⟨front, encoded⟩ := encode_succeeds supported fits
    simp [encoded, fits]
  · rw [encode_oversized supported fits, Except.error.injEq]
    simp only [Nat.not_lt.mp fits, true_and, eq_comm]

structure FirstOversized (widths : List Nat) (values : List Operand) (field width : Nat)
    (value : Operand) : Prop where
  here : widths[field]? = some width
  there : values[field]? = some value
  oversized : 256 ^ width ≤ value.toNat
  before : ∀ (earlier room : Nat) (other : Operand), earlier < field →
    widths[earlier]? = some room → values[earlier]? = some other → other.toNat < 256 ^ room

theorem first_oversized_zero_iff {first width : Nat} {widths : List Nat} {head value : Operand}
    {values : List Operand} :
    FirstOversized (first :: widths) (head :: values) 0 width value ↔
      first = width ∧ head = value ∧ 256 ^ first ≤ head.toNat := by
  constructor
  · intro leading
    have narrow : first = width := Option.some.inj leading.here
    have large : head = value := Option.some.inj leading.there
    have oversized := leading.oversized
    rw [← narrow, ← large] at oversized
    exact ⟨narrow, large, oversized⟩
  · intro leading
    obtain ⟨rfl, rfl, oversized⟩ := leading
    exact ⟨rfl, rfl, oversized, by simp⟩

theorem first_oversized_succ_iff {first field width : Nat} {widths : List Nat}
    {head value : Operand} {values : List Operand} :
    FirstOversized (first :: widths) (head :: values) (field + 1) width value ↔
      head.toNat < 256 ^ first ∧ FirstOversized widths values field width value := by
  constructor
  · intro whole
    have fits := whole.before 0 first head (Nat.succ_pos field) rfl rfl
    refine ⟨fits, whole.here, whole.there, whole.oversized, ?_⟩
    intro earlier room other below
    exact whole.before (earlier + 1) room other (Nat.succ_lt_succ below)
  · intro parts
    have rest := parts.2
    refine ⟨rest.here, rest.there, rest.oversized, ?_⟩
    intro earlier room other below narrow small
    cases earlier with
    | zero =>
        cases narrow
        cases small
        exact parts.1
    | succ earlier =>
        exact rest.before earlier room other (Nat.lt_of_succ_lt_succ below) narrow small

theorem encode_fields_cons_error_iff {width : Nat} {widths : List Nat} {value : Operand}
    {values : List Operand} {cause : CodeError} (supported : width ∈ supportedWidths) :
    encodeFields (width :: widths) (value :: values) = .error cause ↔
      (256 ^ width ≤ value.toNat ∧ cause = .oversizedOperand value width) ∨
        (value.toNat < 256 ^ width ∧ encodeFields widths values = .error cause) := by
  rw [encodeFields, bind_error_iff, encode_error_iff supported]
  apply or_congr_right
  rw [← capacity_eq_pow]
  simp [bind_error_iff, encode_ok_iff, supported]

theorem encode_fields_error_iff {widths : List Nat} {values : List Operand} {cause : CodeError}
    (supported : ∀ width ∈ widths, width ∈ supportedWidths) :
    encodeFields widths values = .error cause ↔
      ∃ field width value, FirstOversized widths values field width value ∧
        cause = .oversizedOperand value width := by
  induction widths generalizing values with
  | nil =>
      constructor
      · intro refused
        cases refused
      · intro found
        obtain ⟨field, width, value, first, _⟩ := found
        cases first.here
  | cons head widths induction =>
      cases values with
      | nil =>
          constructor
          · intro refused
            cases refused
          · intro found
            obtain ⟨field, width, value, first, _⟩ := found
            cases first.there
      | cons leading values =>
          rw [List.forall_mem_cons] at supported
          rw [encode_fields_cons_error_iff supported.1, induction supported.2]
          constructor
          · intro refused
            rcases refused with ⟨oversized, rfl⟩ | ⟨fits, field, width, value, first, rfl⟩
            · exact ⟨0, head, leading, first_oversized_zero_iff.mpr ⟨rfl, rfl, oversized⟩, rfl⟩
            · exact ⟨field + 1, width, value, first_oversized_succ_iff.mpr ⟨fits, first⟩, rfl⟩
          · intro found
            obtain ⟨field, width, value, first, rfl⟩ := found
            cases field with
            | zero =>
                obtain ⟨rfl, rfl, oversized⟩ := first_oversized_zero_iff.mp first
                exact .inl ⟨oversized, rfl⟩
            | succ field =>
                have parts := first_oversized_succ_iff.mp first
                exact .inr ⟨parts.1, field, width, value, parts.2, rfl⟩

theorem encode_fields_ok_iff_spelled {widths : List Nat} {values : List Operand}
    {bytes : List UInt8} (supported : ∀ width ∈ widths, width ∈ supportedWidths)
    (arity : values.length = widths.length) :
    encodeFields widths values = .ok bytes ↔
      bytes.length = widths.sum ∧ Spelled widths bytes values := by
  constructor
  · intro encoded
    have length := length_of_encode_fields arity encoded
    have found : readFields widths 0 bytes = .ok (values, 0 + widths.sum) := by
      apply read_fields_ok_iff.mpr
      rw [List.take_of_length_le (Nat.le_of_eq length)]
      exact ⟨rfl, arity, encoded⟩
    exact ⟨length, spelled_of_read_fields found⟩
  · intro stands
    have length := stands.1
    have found : readFields widths 0 bytes = .ok (values, 0 + widths.sum) := by
      apply read_fields_ok_iff_spelled.mpr
      exact ⟨⟨supported, Nat.le_of_eq length.symm⟩, rfl, stands.2⟩
    have encoded := (read_fields_ok_iff.mp found).2.2
    rwa [List.take_of_length_le (Nat.le_of_eq length)] at encoded

/-- Writes operands over a buffer from `offset` on, each into the tail that begins where the
operands before it end. -/
def overwriteFields : List Nat → List Operand → (offset : Nat) → (buffer : List UInt8) →
    Except CodeError (List UInt8)
  | width :: widths, value :: values, offset, buffer => do
      let tail ← write (buffer.drop offset) value width
      overwriteFields widths values (offset + width) (buffer.take offset ++ tail)
  | _, _, _, buffer => .ok buffer

/-- With room for all fields from the start no tail is ever too short, and what is written is what
the fields are by themselves. -/
theorem overwrite_fields_eq {widths : List Nat} {values : List Operand} {offset : Nat}
    {buffer : List UInt8} (arity : values.length = widths.length)
    (room : offset + widths.sum ≤ buffer.length) :
    overwriteFields widths values offset buffer =
      (encodeFields widths values).map fun fields =>
        buffer.take offset ++ (fields ++ buffer.drop (offset + widths.sum)) := by
  -- The fields that are written already become part of what stands in front of the offset.
  induction widths generalizing values offset buffer with
  | nil =>
      cases values with
      | nil => simp [overwriteFields, encodeFields, Except.map]
      | cons value values => contradiction
  | cons width widths induction =>
      cases values with
      | nil => contradiction
      | cons value values =>
          rw [List.sum_cons] at room ⊢
          rw [overwriteFields, encodeFields]
          cases leading : encode value width with
          | error cause =>
              simp only [write, leading]
              rfl
          | ok front =>
              have length := length_of_encode leading
              have wrote : write (buffer.drop offset) value width =
                  .ok (front ++ buffer.drop (offset + width)) := by
                apply write_ok_iff.mpr
                refine ⟨front, leading, ?_, ?_⟩
                · rw [List.length_drop]
                  omega
                · rw [List.drop_drop]
              have begun : (buffer.take offset ++ front).length = offset + width := by
                rw [List.length_append, List.length_take, length]
                omega
              have size : (buffer.take offset ++ (front ++ buffer.drop (offset + width))).length =
                  buffer.length := by
                rw [← List.append_assoc, List.length_append, begun, List.length_drop]
                omega
              rw [wrote, ok_bind, ok_bind,
                induction (Nat.succ.inj arity) (by rw [size]; omega), ← List.append_assoc,
                List.take_left' begun, ← begun, List.drop_length_add_append, begun,
                List.drop_drop, ← Nat.add_assoc]
              cases encodeFields widths values with
              | error cause => rfl
              | ok rest => simp [Except.map, bind, Except.bind]

end Operand

namespace Table

inductive Encodes (table : Table) (instruction : Instruction) :
    Except CodeError (List UInt8) → Prop where
  | unknown (undefined : instruction.opcode ∉ table.opcodes) :
      Encodes table instruction (.error (.undefinedOpcode instruction.opcode))
  | miscounted {operation : Operation}
      (found : table.lookup instruction.opcode = .ok operation)
      (differ : instruction.operands.length ≠ operation.arity) :
      Encodes table instruction (.error
        (.operandCount operation.name operation.arity instruction.operands.length))
  | oversized {operation : Operation} {field width : Nat} {value : Operand}
      (found : table.lookup instruction.opcode = .ok operation)
      (counted : instruction.operands.length = operation.arity)
      (first : Operand.FirstOversized operation.widths instruction.operands field width value) :
      Encodes table instruction (.error (.oversizedOperand value width))
  | written {operation : Operation} {fields : List UInt8}
      (found : table.lookup instruction.opcode = .ok operation)
      (counted : instruction.operands.length = operation.arity)
      (length : fields.length = operation.widths.sum)
      (spelled : Operand.Spelled operation.widths fields instruction.operands) :
      Encodes table instruction (.ok (instruction.opcode :: fields))

/-- Builds an instruction in place: a blank one as long as its operation says, then its opcode, then
its operands in the order of their fields. -/
def encodeInPlace (table : Table) (instruction : Instruction) :
    Except CodeError (List UInt8) := do
  let operation ← table.lookup instruction.opcode
  let given := instruction.operands.length
  if given ≠ operation.arity then
    .error (.operandCount operation.name operation.arity given)
  else
    let blank := List.replicate operation.size 0
    Operand.overwriteFields operation.widths instruction.operands 1
      (blank.set 0 instruction.opcode)

section

variable {table : Table} {instruction : Instruction} {operation : Operation}

theorem encode_unknown (undefined : instruction.opcode ∉ table.opcodes) :
    table.encode instruction = .error (.undefinedOpcode instruction.opcode) := by
  have missing := lookup_error_iff.mpr ⟨undefined, rfl⟩
  simp only [encode, missing]
  rfl

theorem encode_miscounted (found : table.lookup instruction.opcode = .ok operation)
    (differ : instruction.operands.length ≠ operation.arity) :
    table.encode instruction =
      .error (.operandCount operation.name operation.arity instruction.operands.length) := by
  simp only [encode, found, ok_bind, ne_eq, differ, not_false_eq_true, if_true]

theorem encode_counted (found : table.lookup instruction.opcode = .ok operation)
    (counted : instruction.operands.length = operation.arity) :
    table.encode instruction =
      (Operand.encodeFields operation.widths instruction.operands).map
        (instruction.opcode :: ·) := by
  simp only [encode, found, ok_bind, ne_eq, counted, not_true, if_false]
  cases Operand.encodeFields operation.widths instruction.operands with
  | error cause => rfl
  | ok fields => rfl

theorem encode_of_encodes {outcome : Except CodeError (List UInt8)}
    (encodes : table.Encodes instruction outcome) : table.encode instruction = outcome := by
  cases encodes with
  | unknown undefined => exact encode_unknown undefined
  | miscounted found differ => exact encode_miscounted found differ
  | oversized found counted first =>
      have supported := table.supported _ (lookup_ok_iff.mp found)
      have refused := (Operand.encode_fields_error_iff supported).mpr ⟨_, _, _, first, rfl⟩
      rw [encode_counted found counted, refused]
      rfl
  | written found counted length spelled =>
      have supported := table.supported _ (lookup_ok_iff.mp found)
      have encoded := (Operand.encode_fields_ok_iff_spelled supported counted).mpr
        ⟨length, spelled⟩
      rw [encode_counted found counted, encoded]
      rfl

end

theorem encodes_encode (table : Table) (instruction : Instruction) :
    table.Encodes instruction (table.encode instruction) := by
  cases found : table.lookup instruction.opcode with
  | error cause =>
      have undefined := (lookup_error_iff.mp found).1
      rw [encode_unknown undefined]
      exact .unknown undefined
  | ok operation =>
      have supported := table.supported _ (lookup_ok_iff.mp found)
      by_cases counted : instruction.operands.length = operation.arity
      · rw [encode_counted found counted]
        cases outcome : Operand.encodeFields operation.widths instruction.operands with
        | error cause =>
            obtain ⟨field, width, value, first, rfl⟩ :=
              (Operand.encode_fields_error_iff supported).mp outcome
            exact .oversized found counted first
        | ok fields =>
            obtain ⟨length, spelled⟩ :=
              (Operand.encode_fields_ok_iff_spelled supported counted).mp outcome
            exact .written found counted length spelled
      · rw [encode_miscounted found counted]
        exact .miscounted found counted

/-- The buffer has the right length from the start, so no operand is ever short of room. -/
theorem encode_in_place_eq (table : Table) (instruction : Instruction) :
    table.encodeInPlace instruction = table.encode instruction := by
  unfold encodeInPlace encode
  apply congrArg (table.lookup instruction.opcode >>= ·)
  funext operation
  by_cases counted : instruction.operands.length = operation.arity
  · have blank : (List.replicate operation.size (0 : UInt8)).set 0 instruction.opcode =
        instruction.opcode :: List.replicate operation.widths.sum 0 := by
      rw [Operation.size_eq]
      rfl
    have room : 1 + operation.widths.sum ≤
        (instruction.opcode :: List.replicate operation.widths.sum 0).length := by
      simp [Nat.add_comm]
    simp only [counted, ne_eq, not_true, if_false, blank,
      Operand.overwrite_fields_eq counted room]
    cases Operand.encodeFields operation.widths instruction.operands with
    | error cause => rfl
    | ok fields => simp [Except.map, bind, Except.bind, Nat.add_comm 1]
  · simp only [counted, ne_eq, not_false_eq_true, if_true]

end Table

/-- Encoding an instruction answers in one of four ways: its opcode is not defined, its operands are
too few or too many, the first of them that is too large for its width is refused, or its opcode is
followed by every operand as a number in exactly its own width. So the length is that of the
operation whatever the operands are, and no width or lack of room is ever the cause of a refusal,
also where the fields are written one behind the other into a blank buffer. -/
theorem instructions_written_or_refused (table : Table) (instruction : Instruction) :
    (∀ outcome, table.encode instruction = outcome ↔ table.Encodes instruction outcome) ∧
    (∀ operation bytes, table.lookup instruction.opcode = .ok operation →
      table.encode instruction = .ok bytes → bytes.length = 1 + operation.widths.sum) ∧
    (∀ width, table.encode instruction ≠ .error (.unsupportedWidth width)) ∧
    (∀ offset width available,
      table.encode instruction ≠ .error (.shortOperand offset width available)) ∧
    table.encodeInPlace instruction = table.encode instruction := by
  have answers {outcome : Except CodeError (List UInt8)} :
      table.encode instruction = outcome ↔ table.Encodes instruction outcome :=
    answer_iff (table.encodes_encode instruction) Table.encode_of_encodes
  refine ⟨fun _ => answers, ?_, ?_, ?_, table.encode_in_place_eq instruction⟩
  · intro operation bytes found encoded
    rw [Table.length_of_encode encoded found, Operation.size_eq, Nat.add_comm]
  · intro width refused
    cases answers.mp refused
  · intro offset width available refused
    cases answers.mp refused

/-- The second operand is the first that is too large; in the same widths, one smaller fits. -/
theorem second_operand_too_large :
    let table : Table := ⟨[⟨7, ⟨"Mixed", [8, 1, 2]⟩⟩], by decide, by decide, by decide⟩
    let large : Instruction := ⟨7, [18446744073709551615, 256, 65536]⟩
    let small : Instruction := ⟨7, [18446744073709551615, 255, 258]⟩
    let bytes : List UInt8 := [7, 255, 255, 255, 255, 255, 255, 255, 255, 255, 1, 2]
    table.encode large = .error (.oversizedOperand 256 1) ∧
      table.lookup small.opcode = .ok ⟨"Mixed", [8, 1, 2]⟩ ∧
      table.encode small = .ok bytes ∧ bytes.length = 1 + (8 + (1 + (2 + 0))) ∧
      table.encodeInPlace small = .ok bytes := by
  intro table large small bytes
  have found : table.lookup small.opcode = .ok ⟨"Mixed", [8, 1, 2]⟩ := by decide
  have encoded : table.encode small = .ok bytes := by decide
  obtain ⟨_, length, _, _, inPlace⟩ := instructions_written_or_refused table small
  exact ⟨by decide, found, encoded, length _ _ found encoded, inPlace.trans encoded⟩

end Opstream
