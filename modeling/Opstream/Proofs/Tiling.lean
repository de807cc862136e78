import Opstream.Proofs.Encoding
import Opstream.Scan
import Opstream.Table.Standard

/-!
What a scan covers. Main statements: an induction principle that follows a scan item by item,
and that the items of every stream, faulty or not, lie in a row from its first byte to its
end and give its bytes back.
-/

namespace Opstream

namespace Item

def instruction? : Item → Option Instruction
  | .instruction decoded => some decoded.instruction
  | .fault _ _ _ => none

def Counted : Item → Prop
  | .instruction decoded => decoded.Counted
  | .fault _ _ _ => True

/-- What decoding at the item's offset must have answered. -/
def answer : Item → Except CodeError Decoded
  | .instruction decoded => .ok decoded
  | .fault _ _ cause => .error cause

end Item

/-- Items in a row: each begins where the one before it ends, the first at `start`, and the
last ends at `stop`. -/
inductive Tiling : Nat → Nat → List Item → Prop where
  | done (stop : Nat) : Tiling stop stop []
  | next {start stop : Nat} {item : Item} {items : List Item} (place : item.offset = start)
      (rest : Tiling (start + item.size) stop items) : Tiling start stop (item :: items)

namespace Table

theorem scan_from_encoded {table : Table} {instruction : Instruction} {operation : Operation}
    {bytes : List UInt8} (found : table.lookup instruction.opcode = .ok operation)
    (encoded : table.encode instruction = .ok bytes) (offset : Nat) (rest : List UInt8) :
    table.scanFrom offset (bytes ++ rest) =
      .instruction ⟨offset, operation, instruction⟩ ::
        table.scanFrom (offset + bytes.length) rest := by
  have size := length_of_encode encoded found
  obtain ⟨_, fields, _, _, _, rfl⟩ := encode_ok_iff.mp encoded
  have item : table.itemAt offset instruction.opcode (fields ++ rest) =
      .instruction ⟨offset, operation, instruction⟩ := by
    rw [itemAt, decode_head_encoded encoded found]
  rw [List.cons_append, scan_from_cons, item, Item.size, Decoded.size, ← size,
    ← List.cons_append, List.drop_left]

theorem scan_from_fault {table : Table} {offset : Nat} {byte : UInt8} {rest : List UInt8}
    {cause : CodeError} (refused : table.decodeHead offset byte rest = .error cause) :
    table.scanFrom offset (byte :: rest) =
      .fault offset byte cause :: table.scanFrom (offset + 1) rest := by
  have item : table.itemAt offset byte rest = .fault offset byte cause := by
    rw [itemAt, refused]
  rw [scan_from_cons, item, Item.size, List.drop_succ_cons, List.drop_zero]

/-- To prove something of every scan, look at what lies in front: nothing, the bytes of an
instruction that the table encodes, or a byte that starts none. -/
theorem scan_induction (table : Table) {motive : Nat → List UInt8 → Prop}
    (finished : ∀ offset, motive offset [])
    (instruction : ∀ offset operation instruction bytes rest,
      table.lookup instruction.opcode = .ok operation →
      table.encode instruction = .ok bytes →
      motive (offset + bytes.length) rest → motive offset (bytes ++ rest))
    (fault : ∀ offset byte rest cause,
      table.decodeHead offset byte rest = .error cause →
      motive (offset + 1) rest → motive offset (byte :: rest))
    (offset : Nat) (stream : List UInt8) : motive offset stream := by
  induction length : stream.length using Nat.strongRecOn generalizing offset stream with
  | ind length shorter =>
      cases stream with
      | nil => exact finished offset
      | cons byte window =>
          cases front : table.decodeHead offset byte window with
          | error cause =>
              exact fault offset byte window cause front
                (shorter window.length (by simp [← length]) _ window rfl)
          | ok decoded =>
              obtain ⟨_, found, encoded⟩ := decode_head_ok_iff.mp front
              have whole := List.take_append_drop decoded.size (byte :: window)
              have opcode : decoded.instruction.opcode = byte := by
                obtain ⟨_, _, _, _, _, same⟩ := encode_ok_iff.mp encoded
                rw [Decoded.size, Operation.size_eq, List.take_succ_cons] at same
                exact (List.cons.inj same).1
              rw [← opcode] at found
              have taken := length_of_encode encoded found
              have positive : 0 < decoded.operation.size := Nat.lt_add_right _ (by decide)
              rw [← whole]
              refine instruction offset decoded.operation decoded.instruction _ _ found encoded ?_
              apply shorter _ _ _ _ rfl
              rw [List.length_drop, ← length, Decoded.size, List.length_cons]
              omega

theorem scanned_accepted {table : Table} {offset : Nat} {stream : List UInt8} {decoded : Decoded}
    (member : .instruction decoded ∈ table.scanFrom offset stream) :
    table.lookup decoded.instruction.opcode = .ok decoded.operation ∧
      ∃ bytes, table.encode decoded.instruction = .ok bytes := by
  induction offset, stream using table.scan_induction with
  | finished offset => cases member
  | instruction offset operation instruction bytes rest found encoded induction =>
      rw [scan_from_encoded found encoded] at member
      rcases List.mem_cons.mp member with same | member
      · cases same
        exact ⟨found, bytes, encoded⟩
      · exact induction member
  | fault offset byte rest cause refused induction =>
      rw [scan_from_fault refused] at member
      rcases List.mem_cons.mp member with same | member
      · cases same
      · exact induction member

theorem counted_of_scanned {table : Table} {offset : Nat} {stream : List UInt8} {item : Item}
    (member : item ∈ table.scanFrom offset stream) : item.Counted := by
  cases item with
  | instruction decoded =>
      obtain ⟨found, bytes, encoded⟩ := scanned_accepted member
      exact counted_of_encode encoded found
  | fault offset byte cause => trivial

theorem scanned_refused {table : Table} {start offset : Nat} {stream : List UInt8} {byte : UInt8}
    {cause : CodeError} (member : .fault offset byte cause ∈ table.scanFrom start stream) :
    ∃ window, table.decodeHead offset byte window = .error cause := by
  induction start, stream using table.scan_induction with
  | finished start => cases member
  | instruction start operation instruction bytes rest found encoded induction =>
      rw [scan_from_encoded found encoded] at member
      rcases List.mem_cons.mp member with same | member
      · cases same
      · exact induction member
  | fault start byte rest cause refused induction =>
      rw [scan_from_fault refused] at member
      rcases List.mem_cons.mp member with same | member
      · cases same
        exact ⟨rest, refused⟩
      · exact induction member

/-- The bytes that an item stands for: an instruction is encoded again, and for a fault the
stream is asked at its offset. -/
def restore (table : Table) (stream : List UInt8) : Item → Except CodeError (List UInt8)
  | .instruction decoded => table.encode decoded.instruction
  | .fault offset _ _ => .ok stream[offset]?.toList

theorem tiling_scan_from (table : Table) (offset : Nat) (stream : List UInt8) :
    Tiling offset (offset + stream.length) (table.scanFrom offset stream) := by
  induction offset, stream using table.scan_induction with
  | finished offset => exact .done offset
  | instruction offset operation instruction bytes rest found encoded induction =>
      rw [scan_from_encoded found encoded, List.length_append, ← Nat.add_assoc]
      rw [length_of_encode encoded found] at induction ⊢
      exact .next rfl induction
  | fault offset byte rest cause refused induction =>
      rw [scan_from_fault refused, List.length_cons, Nat.add_comm rest.length, ← Nat.add_assoc]
      exact .next rfl induction

theorem decode_behind (table : Table) (before : List UInt8) (opcode : UInt8)
    (window : List UInt8) :
    table.decode (before ++ opcode :: window) before.length =
      table.decodeHead before.length opcode window := by
  rw [decode, List.drop_left]

/-- Decoding looks only at what lies ahead, so the bytes in front of the scan may be any. -/
theorem decode_scan_from (table : Table) (before stream : List UInt8) :
    ∀ item ∈ table.scanFrom before.length stream,
      table.decode (before ++ stream) item.offset = item.answer := by
  generalize place : before.length = offset
  induction offset, stream using table.scan_induction generalizing before with
  | finished offset =>
      intro item member
      contradiction
  | instruction offset operation instruction bytes rest found encoded induction =>
      intro item member
      rw [scan_from_encoded found encoded, List.mem_cons] at member
      rcases member with rfl | member
      · obtain ⟨_, fields, _, _, _, rfl⟩ := encode_ok_iff.mp encoded
        subst place
        exact (decode_behind ..).trans (decode_head_encoded encoded found before.length rest)
      · rw [← List.append_assoc]
        exact induction (before ++ bytes) (by rw [List.length_append, place]) item member
  | fault offset byte rest cause refused induction =>
      intro item member
      rw [scan_from_fault refused, List.mem_cons] at member
      rcases member with rfl | member
      · subst place
        exact (decode_behind ..).trans refused
      · rw [List.append_cons]
        exact induction (before ++ [byte]) (by simp [place]) item member

theorem restore_scan_from (table : Table) (before stream : List UInt8) :
    ∃ pieces, (table.scanFrom before.length stream).mapM (table.restore (before ++ stream)) =
        .ok pieces ∧
      pieces.map List.length = (table.scanFrom before.length stream).map Item.size ∧
      pieces.flatten = stream := by
  generalize place : before.length = offset
  induction offset, stream using table.scan_induction generalizing before with
  | finished offset => exact ⟨[], rfl, rfl, rfl⟩
  | instruction offset operation instruction bytes rest found encoded induction =>
      obtain ⟨pieces, restored, sizes, whole⟩ :=
        induction (before ++ bytes) (by rw [List.length_append, place])
      rw [List.append_assoc] at restored
      rw [scan_from_encoded found encoded]
      refine ⟨bytes :: pieces, ?_, ?_, by rw [List.flatten_cons, whole]⟩
      · rw [each_ok_iff] at restored ⊢
        exact .cons encoded restored
      · rw [List.map_cons, List.map_cons, sizes, length_of_encode encoded found]
        rfl
  | fault offset byte rest cause refused induction =>
      obtain ⟨pieces, restored, sizes, whole⟩ := induction (before ++ [byte]) (by simp [place])
      rw [← List.append_cons] at restored
      rw [scan_from_fault refused]
      refine ⟨[byte] :: pieces, ?_, ?_, by rw [List.flatten_cons, whole, List.singleton_append]⟩
      · rw [each_ok_iff] at restored ⊢
        refine .cons ?_ restored
        simp [restore, ← place]
      · rw [List.map_cons, List.map_cons, sizes]
        rfl

end Table

namespace Tiling

theorem length_le {start stop : Nat} {items : List Item} (tiling : Tiling start stop items) :
    start + items.length ≤ stop := by
  induction tiling with
  | done stop => exact Nat.le_refl stop
  | @next start stop item items place rest induction =>
      have positive := item.size_positive
      rw [List.length_cons]
      omega

theorem inside {start stop : Nat} {items : List Item} (tiling : Tiling start stop items) :
    ∀ item ∈ items, start ≤ item.offset ∧ item.offset + item.size ≤ stop := by
  induction tiling with
  | done stop => simp
  | @next start stop item items place rest induction =>
      have bounded := rest.length_le
      intro other member
      rcases List.mem_cons.mp member with rfl | member
      · omega
      · have inner := induction other member
        omega

end Tiling

namespace Scanner

theorem take_finished (scanner : Scanner) (finished : scanner.next.1 = none) (count : Nat) :
    scanner.next.2.take count = List.replicate count none := by
  obtain ⟨table, offset, rest⟩ := scanner
  cases rest with
  | nil =>
      rw [next, take_ahead]
      simp [ahead, Table.scan_from_nil]
  | cons byte window => cases finished

end Scanner

/-- Every stream, faulty or not, is scanned in at most as many items as it has bytes. They
lie in a row from its first byte to its end, each is what decoding answers at its offset, and
together they give the bytes of the stream back. A scanner answers with them one after the
other, and once it has come to the end it stays there. -/
theorem scan_tiles_stream (table : Table) (stream : List UInt8) :
    (table.scan stream).length ≤ stream.length ∧
      Tiling 0 stream.length (table.scan stream) ∧
      (∀ item ∈ table.scan stream, item.offset + item.size ≤ stream.length ∧
        table.decode stream item.offset = item.answer) ∧
      (∃ pieces, (table.scan stream).mapM (table.restore stream) = .ok pieces ∧
        pieces.map List.length = (table.scan stream).map Item.size ∧
        pieces.flatten = stream) ∧
      (∀ count, (Scanner.start table stream).take count =
        ((table.scan stream).take count).map some ++
          List.replicate (count - (table.scan stream).length) none) ∧
      ∀ scanner : Scanner, scanner.next.1 = none →
        ∀ count, scanner.next.2.take count = List.replicate count none := by
  have tiling : Tiling 0 stream.length (table.scan stream) := by
    have whole := table.tiling_scan_from 0 stream
    rwa [Nat.zero_add] at whole
  refine ⟨?_, tiling, ?_, table.restore_scan_from [] stream, ?_, Scanner.take_finished⟩
  · have short := tiling.length_le
    omega
  · intro item member
    exact ⟨(tiling.inside item member).2, table.decode_scan_from [] stream item member⟩
  · intro count
    exact (Scanner.start table stream).take_ahead count

/-- An unknown opcode and a constant cut short are faults of one byte each, and the scan finds
the addition inside what would have been the operand. -/
theorem garbled_stream_scanned :
    let ended := (Scanner.start Table.standard [255, 0, 1]).next.2.next.2.next.2
    Table.standard.scan [255, 0, 1] =
        [.fault 0 255 (.undefinedOpcode 255), .fault 1 0 (.shortOperand 2 2 1),
          .instruction ⟨2, ⟨"OpAdd", []⟩, ⟨1, []⟩⟩] ∧
      ended.next.1 = none ∧
      ∀ count, ended.next.2.take count = List.replicate count none := by
  intro ended
  obtain ⟨_, _, _, _, _, stays⟩ := scan_tiles_stream Table.standard [255, 0, 1]
  have finished : ended.next.1 = none := by decide
  exact ⟨by decide, finished, stays ended finished⟩

end Opstream
