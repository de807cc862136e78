import Opstream.Proofs.Tiling

/-!
Programs: instructions in a row, without regard to where they are in a stream. Main statement:
a program encodes to a stream exactly if the stream scans to the program and holds no fault.
-/

namespace Opstream

def FaultFree (items : List Item) : Prop := ∀ item ∈ items, ∃ decoded, item = .instruction decoded

/-- Without faults nothing is lost when only the instructions of a scan are kept. -/
theorem FaultFree.instructions {items : List Item} (clean : FaultFree items) :
    items.map Item.instruction? = (items.filterMap Item.instruction?).map some := by
  induction items with
  | nil => rfl
  | cons item items induction =>
      obtain ⟨decoded, rfl⟩ := clean item (by simp)
      have rest := induction (by intro other member; exact clean other (by simp [member]))
      rw [List.map_cons, rest]
      rfl

theorem fault_free_of_instructions {items : List Item} {program : List Instruction}
    (same : items.map Item.instruction? = program.map some) : FaultFree items := by
  intro item member
  have found : item.instruction? ∈ program.map some := same ▸ List.mem_map_of_mem member
  obtain ⟨instruction, _, kept⟩ := List.mem_map.mp found
  cases item with
  | instruction decoded => exact ⟨decoded, rfl⟩
  | fault offset byte cause => cases kept

theorem Tiling.offset_eq {start stop : Nat} {items : List Item} (tiling : Tiling start stop items)
    (index : Nat) (bound : index < items.length) :
    items[index].offset = start + ((items.take index).map Item.size).sum := by
  induction tiling generalizing index with
  | done stop => contradiction
  | @next start stop item items place rest induction =>
      cases index with
      | zero => exact place
      | succ index =>
          have inner := induction index (Nat.lt_of_succ_lt_succ bound)
          rw [List.getElem_cons_succ, inner, List.take_succ_cons, List.map_cons, List.sum_cons,
            Nat.add_assoc]

namespace Table

def encodeAll (table : Table) (program : List Instruction) : Except CodeError (List UInt8) := do
  let pieces ← program.mapM table.encode
  .ok pieces.flatten

theorem encode_all_ok_iff {table : Table} {program : List Instruction} {stream : List UInt8} :
    table.encodeAll program = .ok stream ↔
      ∃ pieces, program.mapM table.encode = .ok pieces ∧ pieces.flatten = stream := by
  simp only [encodeAll, bind_ok_iff, Except.ok.injEq]

theorem encode_all_nil_iff {table : Table} {stream : List UInt8} :
    table.encodeAll [] = .ok stream ↔ stream = [] := by
  simp [encodeAll, eq_comm]

theorem encode_all_cons_iff {table : Table} {instruction : Instruction}
    {program : List Instruction} {stream : List UInt8} :
    table.encodeAll (instruction :: program) = .ok stream ↔
      ∃ bytes rest, table.encode instruction = .ok bytes ∧
        table.encodeAll program = .ok rest ∧ bytes ++ rest = stream := by
  simp only [encode_all_ok_iff, each_ok_iff, List.forall₂_cons_left_iff]
  constructor
  · intro encoded
    obtain ⟨_, ⟨bytes, pieces, first, others, rfl⟩, rfl⟩ := encoded
    exact ⟨bytes, pieces.flatten, first, ⟨pieces, others, rfl⟩, rfl⟩
  · intro parts
    obtain ⟨bytes, _, first, ⟨pieces, others, rfl⟩, rfl⟩ := parts
    exact ⟨bytes :: pieces, ⟨bytes, pieces, first, others, rfl⟩, rfl⟩

theorem encode_all_append_iff {table : Table} {first second : List Instruction}
    {stream : List UInt8} :
    table.encodeAll (first ++ second) = .ok stream ↔
      ∃ front back, table.encodeAll first = .ok front ∧ table.encodeAll second = .ok back ∧
        front ++ back = stream := by
  induction first generalizing stream with
  | nil => simp [encode_all_nil_iff]
  | cons instruction first induction =>
      simp only [List.cons_append, encode_all_cons_iff, induction]
      constructor
      · intro encoded
        obtain ⟨bytes, _, head, ⟨front, back, others, last, rfl⟩, rfl⟩ := encoded
        exact ⟨bytes ++ front, back, ⟨bytes, front, head, others, rfl⟩, last, by simp⟩
      · intro parts
        obtain ⟨_, back, ⟨bytes, front, head, others, rfl⟩, last, rfl⟩ := parts
        exact ⟨bytes, front ++ back, head, ⟨front, back, others, last, rfl⟩, by simp⟩

theorem encode_all_of_subset {table extended : Table} (grown : table.entries ⊆ extended.entries)
    {program : List Instruction} {stream : List UInt8}
    (encoded : table.encodeAll program = .ok stream) :
    extended.encodeAll program = .ok stream := by
  induction program generalizing stream with
  | nil => exact encoded
  | cons instruction program induction =>
      obtain ⟨bytes, rest, first, others, same⟩ := encode_all_cons_iff.mp encoded
      apply encode_all_cons_iff.mpr
      exact ⟨bytes, rest, encode_of_subset grown first, induction others, same⟩

theorem encode_all_succeeds {table : Table} {program : List Instruction}
    (accepted : ∀ instruction ∈ program, ∃ bytes, table.encode instruction = .ok bytes) :
    ∃ stream, table.encodeAll program = .ok stream := by
  induction program with
  | nil => exact ⟨[], encode_all_nil_iff.mpr rfl⟩
  | cons instruction program induction =>
      obtain ⟨bytes, first⟩ := accepted instruction (by simp)
      obtain ⟨rest, others⟩ :=
        induction (by intro other member; exact accepted other (by simp [member]))
      exact ⟨bytes ++ rest, encode_all_cons_iff.mpr ⟨bytes, rest, first, others, rfl⟩⟩

theorem scan_from_program {table : Table} {program : List Instruction} {stream : List UInt8}
    (encoded : table.encodeAll program = .ok stream) (offset : Nat) :
    (table.scanFrom offset stream).map Item.instruction? = program.map some := by
  induction program generalizing stream offset with
  | nil =>
      rw [encode_all_nil_iff.mp encoded]
      rfl
  | cons instruction program induction =>
      obtain ⟨bytes, rest, first, others, rfl⟩ := encode_all_cons_iff.mp encoded
      obtain ⟨operation, _, found, _⟩ := encode_ok_iff.mp first
      rw [scan_from_encoded found first, List.map_cons, induction others]
      rfl

theorem program_of_scan_from {table : Table} {program : List Instruction} {offset : Nat}
    {stream : List UInt8}
    (scanned : (table.scanFrom offset stream).map Item.instruction? = program.map some) :
    table.encodeAll program = .ok stream := by
  induction offset, stream using table.scan_induction generalizing program with
  | finished offset =>
      have empty : program = [] := List.map_eq_nil_iff.mp scanned.symm
      exact empty ▸ encode_all_nil_iff.mpr rfl
  | instruction offset operation instruction bytes rest found encoded induction =>
      rw [scan_from_encoded found encoded] at scanned
      cases program with
      | nil => cases scanned
      | cons first program =>
          obtain ⟨same, others⟩ := List.cons.inj scanned
          cases same
          apply encode_all_cons_iff.mpr
          exact ⟨bytes, rest, encoded, induction others, rfl⟩
  | fault offset byte rest cause refused induction =>
      rw [scan_from_fault refused] at scanned
      cases program with
      | nil => cases scanned
      | cons first program => cases (List.cons.inj scanned).1

/-- Encoding a program and scanning a stream are each other's inverse. -/
theorem encode_all_iff_scan {table : Table} {program : List Instruction} {stream : List UInt8} :
    table.encodeAll program = .ok stream ↔
      (table.scan stream).map Item.instruction? = program.map some :=
  ⟨fun encoded => scan_from_program encoded 0, program_of_scan_from⟩

theorem encode_all_of_fault_free {table : Table} {stream : List UInt8}
    (clean : FaultFree (table.scan stream)) :
    table.encodeAll ((table.scan stream).filterMap Item.instruction?) = .ok stream :=
  encode_all_iff_scan.mpr clean.instructions

theorem encode_all_injective {table : Table} {first second : List Instruction}
    {stream : List UInt8} (left : table.encodeAll first = .ok stream)
    (right : table.encodeAll second = .ok stream) : first = second := by
  apply List.map_injective_iff.mpr (fun _ _ => Option.some.inj)
  exact (encode_all_iff_scan.mp left).symm.trans (encode_all_iff_scan.mp right)

end Table

/-- Accepted instructions in a row are found again, in order, without a fault, each at the
offset that those before it add up to. A stream without a fault is what its instructions
encode to, and no two programs encode to the same stream. -/
theorem programs_and_clean_streams (table : Table) :
    (∀ program : List Instruction,
      (∀ instruction ∈ program, ∃ bytes, table.encode instruction = .ok bytes) →
        ∃ stream, table.encodeAll program = .ok stream ∧
          (table.scan stream).map Item.instruction? = program.map some ∧
          ∀ index, ∀ bound : index < (table.scan stream).length,
            (table.scan stream)[index].offset =
              (((table.scan stream).take index).map Item.size).sum) ∧
      (∀ stream, FaultFree (table.scan stream) →
        table.encodeAll ((table.scan stream).filterMap Item.instruction?) = .ok stream) ∧
      ∀ first second stream, table.encodeAll first = .ok stream →
        table.encodeAll second = .ok stream → first = second := by
  refine ⟨?_, ?_, ?_⟩
  · intro program accepted
    obtain ⟨stream, encoded⟩ := Table.encode_all_succeeds accepted
    refine ⟨stream, encoded, Table.encode_all_iff_scan.mp encoded, ?_⟩
    intro index bound
    have place := (table.tiling_scan_from 0 stream).offset_eq index bound
    rwa [Nat.zero_add] at place
  · intro stream clean
    exact Table.encode_all_of_fault_free clean
  · intro first second stream left right
    exact Table.encode_all_injective left right

theorem sum_program_scanned :
    let program : List Instruction := [⟨0, [1]⟩, ⟨0, [65535]⟩, ⟨1, []⟩]
    let stream : List UInt8 := [0, 0, 1, 0, 255, 255, 1]
    (Table.standard.scan stream).map Item.instruction? = program.map some ∧
      Table.standard.encodeAll ((Table.standard.scan stream).filterMap Item.instruction?) =
        .ok stream ∧
      (Table.standard.scan stream).filterMap Item.instruction? = program := by
  intro program stream
  obtain ⟨forth, back, unique⟩ := programs_and_clean_streams Table.standard
  have known : Table.standard.encodeAll program = .ok stream := by decide
  have accepted : ∀ instruction ∈ program, ∃ bytes,
      Table.standard.encode instruction = .ok bytes := by
    intro instruction member
    simp only [program, List.mem_cons, List.not_mem_nil, or_false] at member
    rcases member with rfl | rfl | rfl
    · exact ⟨[0, 0, 1], by decide⟩
    · exact ⟨[0, 255, 255], by decide⟩
    · exact ⟨[1], by decide⟩
  obtain ⟨_, encoded, scanned, _⟩ := forth program accepted
  cases known.symm.trans encoded
  have restored := back stream (fault_free_of_instructions scanned)
  exact ⟨scanned, restored, unique _ _ stream restored known⟩

end Opstream
