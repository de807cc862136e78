import Opstream.Disassembly

/-!
What a scan reports while it runs: one record per item. An instruction is shown as in the
disassembly, but its offset is padded to four digits however long the stream is. A walk keeps the
whole stream and a cursor in it, and logs each record when the cursor has passed the item.
-/

namespace Opstream

inductive Severity where
  | trace
  | debug
  deriving DecidableEq, Repr

structure LogRecord where
  severity : Severity
  message : String
  deriving DecidableEq, Repr

def Item.logRecord : Item → LogRecord
  | .instruction decoded =>
      ⟨.trace, Text.Decimal.padded 4 decoded.offset ++ " " ++ decoded.text⟩
  | .fault offset byte cause =>
      ⟨.debug, s!"cannot decode byte {byte} at offset {offset}: {cause.message}"⟩

def Table.scanLog (table : Table) (stream : List UInt8) : List LogRecord :=
  (table.scan stream).map Item.logRecord

/-- A walk over a stream and what it has logged so far, the oldest record first. -/
structure Walk where
  table : Table
  stream : List UInt8
  cursor : Nat
  log : List LogRecord

namespace Walk

def start (table : Table) (stream : List UInt8) : Walk := ⟨table, stream, 0, []⟩

def report (walk : Walk) (record : LogRecord) : Walk := { walk with log := walk.log ++ [record] }

/-- A walk that has come to the end logs nothing more. A fault is logged when the walk has already
gone on to the next byte. -/
def next (walk : Walk) : Option Item × Walk :=
  if inside : walk.cursor < walk.stream.length then
    let offset := walk.cursor
    match walk.table.decode walk.stream offset with
    | .ok decoded =>
        let behind := { walk with cursor := offset + decoded.size }
        (some (.instruction decoded),
          behind.report ⟨.trace, Text.Decimal.padded 4 offset ++ " " ++ decoded.text⟩)
    | .error cause =>
        let behind := { walk with cursor := offset + 1 }
        let byte := walk.stream[offset]
        (some (.fault offset byte cause),
          behind.report ⟨.debug, s!"cannot decode byte {byte} at offset {offset}: {cause.message}"⟩)
  else (none, walk)

def take : Nat → Walk → List (Option Item) × Walk
  | 0, walk => ([], walk)
  | count + 1, walk =>
      let (answer, after) := walk.next
      let (answers, last) := after.take count
      (answer :: answers, last)

def scanner (walk : Walk) : Scanner := ⟨walk.table, walk.cursor, walk.stream.drop walk.cursor⟩

end Walk

end Opstream
