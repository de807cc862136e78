import Opstream.Proofs.Shifting

/-!
Streams cut off anywhere. Main statement: what ends in front of the cut is found as before, and an
instruction that the cut goes through becomes a fault that tells which operand is short and by how
much. How the scan goes on inside that instruction depends on its operands.
-/

namespace Opstream

/-- The stream falls apart cleanly there: between two items, at its start or at its end. -/
def EndsAt (items : List Item) (count : Nat) : Prop :=
  count = 0 ∨ ∃ item ∈ items, item.offset + item.size = count

instance (items : List Item) (count : Nat) : Decidable (EndsAt items count) :=
  inferInstanceAs (Decidable (_ ∨ _))

theorem Tiling.last_ends {start stop : Nat} {items : List Item} (tiling : Tiling start stop items)
    (some_bytes : start < stop) : ∃ item ∈ items, item.offset + item.size = stop := by
  induction tiling with
  | done stop => exact absurd some_bytes (Nat.lt_irrefl stop)
  | @next start stop item items place rest induction =>
      have bounded := rest.length_le
      by_cases last : start + item.size = stop
      · exact ⟨item, List.mem_cons_self, by rw [place, last]⟩
      · obtain ⟨other, member, ends⟩ := induction (by omega)
        exact ⟨other, List.mem_cons_of_mem _ member, ends⟩

theorem Tiling.ends_at {stop : Nat} {items : List Item} (tiling : Tiling 0 stop items)
    (behind : List Item) : EndsAt (items ++ behind) stop := by
  rcases Nat.eq_zero_or_pos stop with rfl | begun
  · exact .inl rfl
  · obtain ⟨item, member, ends⟩ := tiling.last_ends begun
    exact .inr ⟨item, List.mem_append_left _ member, ends⟩

theorem filter_parted {front behind : List Item} {count : Nat}
    (early : ∀ item ∈ front, item.offset + item.size ≤ count)
    (late : ∀ item ∈ behind, count < item.offset + item.size) :
    (front ++ behind).filter (fun item => item.offset + item.size ≤ count) = front := by
  have kept : front.filter (fun item => item.offset + item.size ≤ count) = front := by
    apply List.filter_eq_self.mpr
    intro item member
    exact decide_eq_true (early item member)
  have dropped : behind.filter (fun item => item.offset + item.size ≤ count) = [] := by
    apply List.filter_eq_nil_iff.mpr
    intro item member within
    exact absurd (of_decide_eq_true within) (Nat.not_le.mpr (late item member))
  rw [List.filter_append, kept, dropped, List.append_nil]

theorem not_ends_at {front behind : List Item} {count : Nat} (begun : 0 < count)
    (early : ∀ item ∈ front, item.offset + item.size < count)
    (late : ∀ item ∈ behind, count < item.offset + item.size) :
    ¬ EndsAt (front ++ behind) count := by
  rintro (nothing | ⟨item, member, ends⟩)
  · exact absurd nothing (Nat.ne_of_gt begun)
  · rcases List.mem_append.mp member with member | member
    · exact Nat.ne_of_lt (early item member) ends
    · exact Nat.ne_of_gt (late item member) ends

namespace Table

theorem decode_head_cut {table : Table} {opcode : UInt8} {operation : Operation}
    {window : List UInt8} (found : table.lookup opcode = .ok operation)
    (short : window.length < operation.widths.sum) (offset : Nat) :
    ∃ field width available,
      operation.widths[field]? = some width ∧
      table.decodeHead offset opcode window =
        .error (.shortOperand (offset + operation.fieldOffset field) width available) ∧
      operation.fieldOffset field + available = window.length + 1 ∧ available < width := by
  cases refused : Operand.shortField? operation.widths (offset + 1) window.length with
  | none =>
      have room := (Operand.short_field_none_iff.mp refused).2
      exact absurd short (Nat.not_lt.mpr room)
  | some cause =>
      obtain ⟨field, width, first, rfl⟩ := Operand.short_field_some_iff.mp refused
      have supported := table.supported _ (lookup_ok_iff.mp found) width
        (List.mem_of_getElem? first.here)
      have inside := first.start_le
      have beyond : window.length < (operation.widths.take field).sum + width := by
        apply Nat.not_le.mp
        intro room
        exact first.stuck ⟨supported, room⟩
      rw [Nat.add_assoc] at refused
      refine ⟨field, width, _, first.here,
        decode_head_error_iff.mpr (.inr ⟨operation, found, refused⟩), ?_, ?_⟩
      · rw [Operation.fieldOffset]
        omega
      · omega

/-- A cut `inner` bytes behind the last item that it leaves whole, with `rest` from there on. -/
inductive CutAt (table : Table) : (inner : Nat) → (rest : List UInt8) → Prop where
  | between (rest : List UInt8) : CutAt table 0 rest
  | inside {inner : Nat} {operation : Operation} {instruction : Instruction} {bytes : List UInt8}
      (behind : List UInt8) (found : table.lookup instruction.opcode = .ok operation)
      (encoded : table.encode instruction = .ok bytes) (begun : 0 < inner)
      (beyond : inner < bytes.length) : CutAt table inner (bytes ++ behind)

/-- An unknown opcode is a whole item, so the cut is between two items or inside an instruction,
and the bytes in front of that are scanned with no operand cut short. -/
theorem scan_from_parted {table : Table} {offset : Nat} {stream : List UInt8}
    (uncut : Uncut (table.scanFrom offset stream)) {count : Nat} (inside : count ≤ stream.length) :
    ∃ front inner rest, stream = front ++ rest ∧ count = front.length + inner ∧
      Uncut (table.scanFrom offset front) ∧ table.CutAt inner rest := by
  -- Items that end in front of the cut are passed, and `count` falls by their size.
  have nothing (offset : Nat) : Uncut (table.scanFrom offset []) := by simp [Uncut, scan_from_nil]
  induction offset, stream using table.scan_induction generalizing count with
  | finished offset => exact ⟨[], 0, [], rfl, Nat.le_zero.mp inside, nothing offset, .between []⟩
  | instruction offset operation instruction bytes behind found encoded induction =>
      rw [scan_from_encoded found encoded, uncut_instruction_iff] at uncut
      by_cases beyond : count < bytes.length
      · refine ⟨[], count, bytes ++ behind, rfl, (Nat.zero_add count).symm, nothing offset, ?_⟩
        rcases Nat.eq_zero_or_pos count with rfl | begun
        · exact .between _
        · exact .inside behind found encoded begun beyond
      · obtain ⟨further, rfl⟩ := Nat.exists_eq_add_of_le (Nat.not_lt.mp beyond)
        rw [List.length_append, Nat.add_le_add_iff_left] at inside
        obtain ⟨front, inner, rest, rfl, rfl, clear, cut⟩ := induction uncut inside
        refine ⟨bytes ++ front, inner, rest, (List.append_assoc ..).symm, ?_, ?_, cut⟩
        · rw [List.length_append, Nat.add_assoc]
        · rw [scan_from_encoded found encoded, uncut_instruction_iff]
          exact clear
  | fault offset byte behind cause refused induction =>
      rw [scan_from_fault refused, uncut_fault_iff] at uncut
      obtain ⟨whole, uncut⟩ := uncut
      cases count with
      | zero => exact ⟨[], 0, byte :: behind, rfl, rfl, nothing offset, .between _⟩
      | succ count =>
          obtain ⟨front, inner, rest, rfl, rfl, clear, cut⟩ :=
            induction uncut (Nat.le_of_succ_le_succ inside)
          have still_refused := decode_head_unknown refused whole front
          refine ⟨byte :: front, inner, rest, rfl, ?_, ?_, cut⟩
          · rw [List.length_cons, Nat.add_right_comm]
          · rw [scan_from_fault still_refused, uncut_fault_iff]
            exact ⟨whole, clear⟩

/-- The part of an instruction that is in front of a cut begins with the fault for the operand
that the cut goes through. -/
theorem scan_from_straddled {table : Table} {instruction : Instruction} {operation : Operation}
    {bytes : List UInt8} {inner : Nat} (found : table.lookup instruction.opcode = .ok operation)
    (encoded : table.encode instruction = .ok bytes) (begun : 0 < inner)
    (beyond : inner < bytes.length) (offset : Nat) :
    ∃ field width available others,
      operation.widths[field]? = some width ∧
      table.scanFrom offset (bytes.take inner) =
        .fault offset instruction.opcode
          (.shortOperand (offset + operation.fieldOffset field) width available) :: others ∧
      operation.fieldOffset field + available = inner ∧ available < width := by
  have size := length_of_encode encoded found
  obtain ⟨_, fields, _, _, _, rfl⟩ := encode_ok_iff.mp encoded
  obtain ⟨ahead, rfl⟩ := Nat.exists_eq_add_of_le' begun
  rw [List.length_cons] at beyond size
  have taken : (fields.take ahead).length = ahead := by
    rw [List.length_take]
    omega
  have short : (fields.take ahead).length < operation.widths.sum := by
    rw [Operation.size_eq] at size
    omega
  obtain ⟨field, width, available, here, refused, reached, cut⟩ :=
    decode_head_cut found short offset
  rw [taken] at reached
  exact ⟨field, width, available, _, here, scan_from_fault refused, reached, cut⟩

theorem scan_from_late (table : Table) {offset count : Nat} (behind : count ≤ offset)
    (stream : List UInt8) :
    ∀ item ∈ table.scanFrom offset stream, count < item.offset + item.size := by
  intro item member
  have placed := ((table.tiling_scan_from offset stream).inside item member).1
  have positive := item.size_positive
  omega

theorem scan_from_beyond {table : Table} {instruction : Instruction} {operation : Operation}
    {bytes : List UInt8} {inner : Nat} (found : table.lookup instruction.opcode = .ok operation)
    (encoded : table.encode instruction = .ok bytes) (beyond : inner < bytes.length)
    (offset : Nat) (behind : List UInt8) :
    ∀ item ∈ table.scanFrom offset (bytes ++ behind),
      offset + inner < item.offset + item.size := by
  have size := length_of_encode encoded found
  rw [scan_from_encoded found encoded, List.forall_mem_cons]
  constructor
  · change offset + inner < offset + operation.size
    omega
  · exact table.scan_from_late (by omega) behind

end Table

/-- A stream that is scanned with no operand cut short is cut off behind any number of its bytes.
Then the items that end in front of the cut are found as before. Between two items nothing else is
found; otherwise the cut goes through an instruction, and its opcode is the next fault: an operand
of it is short, begins in front of the cut and would have gone beyond it. -/
theorem cut_found_at_straddler (table : Table) {stream : List UInt8} {count : Nat}
    (uncut : Uncut (table.scan stream)) (inside : count ≤ stream.length) :
    let items := table.scan stream
    let kept := items.filter fun item => item.offset + item.size ≤ count
    (EndsAt items count → table.scan (stream.take count) = kept) ∧
    (¬ EndsAt items count → ∃ decoded field width available others,
      .instruction decoded ∈ items ∧
      decoded.offset < count ∧ count < decoded.offset + decoded.size ∧
      decoded.operation.widths[field]? = some width ∧
      let place := decoded.offset + decoded.operation.fieldOffset field
      table.scan (stream.take count) = kept ++
        .fault decoded.offset decoded.instruction.opcode (.shortOperand place width available) ::
          others ∧
      place + available = count ∧ available < width) := by
  obtain ⟨front, inner, rest, rfl, rfl, clear, cut⟩ := Table.scan_from_parted uncut inside
  have tiling := table.tiling_scan_from 0 front
  rw [Nat.zero_add] at tiling
  have early : ∀ item ∈ table.scan front, item.offset + item.size ≤ front.length := by
    intro item member
    exact (tiling.inside item member).2
  rw [List.take_length_add_append, Table.scan_append clear, Table.scan_append clear]
  intro items kept
  cases cut with
  | between rest =>
      have late := table.scan_from_late (Nat.le_refl front.length) rest
      have found : kept = table.scan front := filter_parted early late
      have ends : EndsAt items front.length := tiling.ends_at _
      constructor
      · intro _
        rw [found]
        exact List.append_nil _
      · intro between
        exact absurd ends between
  | @inside inner operation instruction bytes behind known encoded begun beyond =>
      have size : bytes.length = operation.size := Table.length_of_encode encoded known
      have before : ∀ item ∈ table.scan front,
          item.offset + item.size < front.length + inner := by
        intro item member
        have ended := early item member
        omega
      have late := Table.scan_from_beyond known encoded beyond front.length behind
      have found : kept = table.scan front := by
        apply filter_parted _ late
        intro item member
        exact Nat.le_of_lt (before item member)
      have broken : ¬ EndsAt items (front.length + inner) :=
        not_ends_at (Nat.add_pos_right _ begun) before late
      obtain ⟨field, width, available, others, here, fault, reached, short⟩ :=
        Table.scan_from_straddled known encoded begun beyond front.length
      constructor
      · intro ends
        exact absurd ends broken
      · intro _
        refine ⟨⟨front.length, operation, instruction⟩, field, width, available, others, ?_,
          Nat.lt_add_of_pos_right begun, ?_, here, ?_, ?_, short⟩
        · apply List.mem_append_right
          rw [Table.scan_from_encoded known encoded]
          exact List.mem_cons_self
        · change front.length + inner < front.length + operation.size
          omega
        · rw [found, List.take_append_of_le_length (Nat.le_of_lt beyond), fault]
        · rw [Nat.add_assoc, reached]

/-- The second operand of the only instruction loses two of its four bytes, behind a byte that
starts none. -/
theorem second_operand_cut :
    let table : Table := ⟨[⟨1, ⟨"Pair", [2, 4]⟩⟩], by decide, by decide, by decide⟩
    let stream : List UInt8 := [255, 1, 0, 7, 0, 0, 0, 1]
    let unknown : Item := .fault 0 255 (.undefinedOpcode 255)
    Uncut (table.scan stream) ∧
      table.scan (stream.take 1) = [unknown] ∧
      table.scan (stream.take 6) = [unknown, .fault 1 1 (.shortOperand 4 4 2)] ++
        table.scanFrom 2 [0, 7, 0, 0] ∧
      ∃ place width available others,
        table.scan (stream.take 6) =
          [unknown, .fault 1 1 (.shortOperand place width available)] ++ others ∧
        place + available = 6 ∧ available < width := by
  intro table stream unknown
  have scanned : table.scan stream =
      [unknown, .instruction ⟨1, ⟨"Pair", [2, 4]⟩, ⟨1, [7, 1]⟩⟩] := by decide
  have uncut : Uncut (table.scan stream) := by
    simp [Uncut, scanned, unknown]
  obtain ⟨between, _⟩ := cut_found_at_straddler table uncut (show 1 ≤ stream.length by decide)
  obtain ⟨_, straddled⟩ := cut_found_at_straddler table uncut (show 6 ≤ stream.length by decide)
  obtain ⟨decoded, field, width, available, others, member, _, _, _, shown, reached, short⟩ :=
    straddled (by decide)
  have straddler : decoded = ⟨1, ⟨"Pair", [2, 4]⟩, ⟨1, [7, 1]⟩⟩ := by
    simpa [scanned, unknown] using member
  subst straddler
  exact ⟨uncut, between (by decide), by decide, _, width, available, others, shown, reached, short⟩

end Opstream
