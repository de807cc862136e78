import Opstream.Instruction

/-!
A scan walks a stream from its start. Where an instruction decodes it goes on behind it; a
byte that does not is a fault, and the scan goes on at the next byte. So every stream is
scanned to its end, and each of its bytes belongs to exactly one item.
-/

namespace Opstream

inductive Item where
  | instruction (decoded : Decoded)
  | fault (offset : Nat) (byte : UInt8) (cause : CodeError)
  deriving DecidableEq, Repr

namespace Item

def offset : Item → Nat
  | .instruction decoded => decoded.offset
  | .fault offset _ _ => offset

def size : Item → Nat
  | .instruction decoded => decoded.size
  | .fault _ _ _ => 1

def bytes : Item → List UInt8
  | .instruction decoded => decoded.bytes
  | .fault _ byte _ => [byte]

theorem size_positive (item : Item) : 0 < item.size := by
  cases item with
  | instruction decoded => exact Nat.lt_add_right _ (by decide)
  | fault _ _ _ => exact Nat.one_pos

end Item

namespace Table

def itemAt (table : Table) (offset : Nat) (byte : UInt8) (window : List UInt8) : Item :=
  match table.decodeHead offset byte window with
  | .ok decoded => .instruction decoded
  | .error cause => .fault offset byte cause

/-- `skipped` counts the bytes ahead that belong to the item found last. -/
def scanOnto (table : Table) (found : List Item) :
    (offset skipped : Nat) → List UInt8 → List Item
  | _, _, [] => found.reverse
  | offset, skipped + 1, _ :: rest => table.scanOnto found (offset + 1) skipped rest
  | offset, 0, byte :: window =>
      let item := table.itemAt offset byte window
      table.scanOnto (item :: found) (offset + 1) (item.size - 1) window

def scanFrom (table : Table) (offset : Nat) (rest : List UInt8) : List Item :=
  table.scanOnto [] offset 0 rest

def scan (table : Table) (stream : List UInt8) : List Item := table.scanFrom 0 stream

theorem scan_onto_append (table : Table) (found : List Item) (offset skipped : Nat)
    (rest : List UInt8) :
    table.scanOnto found offset skipped rest =
      found.reverse ++ table.scanFrom (offset + skipped) (rest.drop skipped) := by
  induction rest generalizing found offset skipped with
  | nil => simp [scanOnto, scanFrom]
  | cons byte window induction =>
      cases skipped with
      | zero => simp [scanOnto, scanFrom, induction]
      | succ skipped => simp [scanOnto, induction, Nat.add_assoc, Nat.add_comm 1]

theorem scan_from_nil (table : Table) (offset : Nat) : table.scanFrom offset [] = [] := rfl

theorem scan_from_cons (table : Table) (offset : Nat) (byte : UInt8) (window : List UInt8) :
    let item := table.itemAt offset byte window
    table.scanFrom offset (byte :: window) =
      item :: table.scanFrom (offset + item.size) ((byte :: window).drop item.size) := by
  intro item
  have size : item.size = item.size - 1 + 1 := by have := item.size_positive; omega
  rw [size, List.drop_succ_cons, scanFrom, scanOnto, scan_onto_append]
  simp [item, Nat.add_assoc, Nat.add_comm 1]

end Table

/-- A scan under way: `rest` is what lies ahead, and `offset` is where it starts. -/
structure Scanner where
  table : Table
  offset : Nat
  rest : List UInt8

namespace Scanner

def start (table : Table) (stream : List UInt8) : Scanner := ⟨table, 0, stream⟩

/-- A scanner at the end stays there. -/
def next (scanner : Scanner) : Option Item × Scanner :=
  match scanner.rest with
  | [] => (none, scanner)
  | byte :: window =>
      let item := scanner.table.itemAt scanner.offset byte window
      (some item, { scanner with
        offset := scanner.offset + item.size
        rest := (byte :: window).drop item.size })

def take : Nat → Scanner → List (Option Item)
  | 0, _ => []
  | count + 1, scanner =>
      let (answer, after) := scanner.next
      answer :: after.take count

def ahead (scanner : Scanner) : List Item :=
  scanner.table.scanFrom scanner.offset scanner.rest

theorem ahead_next (scanner : Scanner) :
    scanner.ahead = match scanner.next with
      | (none, _) => []
      | (some item, after) => item :: after.ahead := by
  obtain ⟨table, offset, rest⟩ := scanner
  cases rest with
  | nil => rfl
  | cons byte window => exact table.scan_from_cons offset byte window

/-- Behind the last item every answer is `none`. -/
theorem take_ahead (count : Nat) (scanner : Scanner) :
    scanner.take count =
      (scanner.ahead.take count).map some ++
        List.replicate (count - scanner.ahead.length) none := by
  induction count generalizing scanner with
  | zero => simp [take]
  | succ count induction =>
      have step := scanner.ahead_next
      obtain ⟨table, offset, rest⟩ := scanner
      cases rest with
      | nil =>
          simp only [next] at step
          simp only [take, next, induction, step]
          simp [List.replicate_succ]
      | cons byte window =>
          simp only [next] at step
          simp only [take, next, induction, step]
          simp

end Scanner

end Opstream
