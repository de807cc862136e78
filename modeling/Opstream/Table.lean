import Opstream.Operand

/-!
An operation is what an opcode stands for: a name and the width of each operand. Its widths alone
fix how many bytes an instruction takes. A table says which operation each opcode stands for. It
grows one checked definition at a time, and its type keeps what every definition is checked for: one
operation per opcode, one opcode per name, and only widths that can be encoded.
-/

namespace Opstream

structure Operation where
  name : String
  widths : List Nat
  deriving DecidableEq, Repr

namespace Operation

def arity (operation : Operation) : Nat := operation.widths.length

def operandBytes (operation : Operation) : Nat := operation.widths.foldr (· + ·) 0

/-- The opcode takes one byte in front of the operands. -/
def size (operation : Operation) : Nat := 1 + operation.operandBytes

def signature (operation : Operation) : String :=
  operation.name ++ "(" ++ ", ".intercalate (operation.widths.map toString) ++ ")"

/-- Reads the operands from the window behind the opcode; the second number is how many
bytes they took. -/
def readOperands (operation : Operation) (window : List UInt8) :
    Except CodeError (List Operand × Nat) :=
  Operand.readFields operation.widths 0 window

end Operation

structure Entry where
  opcode : UInt8
  operation : Operation
  deriving DecidableEq, Repr

/-- Entries stay in opcode order, so the order of definitions leaves no trace. -/
def Entry.insert (entry : Entry) : List Entry → List Entry
  | [] => [entry]
  | head :: tail =>
      if entry.opcode < head.opcode then entry :: head :: tail
      else head :: entry.insert tail

theorem insert_perm (entry : Entry) (entries : List Entry) :
    (entry.insert entries).Perm (entry :: entries) := by
  induction entries with
  | nil => exact List.Perm.refl _
  | cons head tail induction =>
      rw [Entry.insert]
      split
      · exact List.Perm.refl _
      · exact (induction.cons head).trans (List.Perm.swap ..)

theorem mem_insert {entry other : Entry} {entries : List Entry} :
    other ∈ entry.insert entries ↔ other = entry ∨ other ∈ entries := by
  rw [(insert_perm entry entries).mem_iff, List.mem_cons]

theorem insert_ordered (entry : Entry) (entries : List Entry)
    (ordered : entries.Pairwise fun earlier later => earlier.opcode < later.opcode)
    (free : entry.opcode ∉ entries.map Entry.opcode) :
    (entry.insert entries).Pairwise fun earlier later => earlier.opcode < later.opcode := by
  induction entries with
  | nil => simp [Entry.insert]
  | cons head tail induction =>
      rw [List.map_cons, List.mem_cons, not_or] at free
      rw [List.pairwise_cons] at ordered
      rw [Entry.insert]
      split
      · next before =>
          refine List.pairwise_cons.mpr ⟨?_, List.pairwise_cons.mpr ordered⟩
          intro other member
          rcases List.mem_cons.mp member with rfl | member
          · exact before
          · exact UInt8.lt_trans before (ordered.1 other member)
      · next behind =>
          refine List.pairwise_cons.mpr ⟨?_, induction ordered.2 free.2⟩
          intro other member
          rcases mem_insert.mp member with rfl | member
          · exact UInt8.lt_of_le_of_ne (UInt8.not_lt.mp behind) (Ne.symm free.1)
          · exact ordered.1 other member

structure Table where
  entries : List Entry
  ordered : entries.Pairwise fun earlier later => earlier.opcode < later.opcode
  named : entries.Pairwise fun earlier later => earlier.operation.name ≠ later.operation.name
  supported : ∀ entry ∈ entries, ∀ width ∈ entry.operation.widths, width ∈ supportedWidths

namespace Table

def empty : Table := ⟨[], by simp, by simp, by simp⟩

def size (table : Table) : Nat := table.entries.length

def opcodes (table : Table) : List UInt8 := table.entries.map Entry.opcode

def names (table : Table) : List String := table.entries.map fun entry => entry.operation.name

def lookup (table : Table) (opcode : UInt8) : Except CodeError Operation :=
  match table.entries.find? fun entry => entry.opcode == opcode with
  | some entry => .ok entry.operation
  | none => .error (.undefinedOpcode opcode)

def entryNamed? (table : Table) (name : String) : Option Entry :=
  table.entries.find? fun entry => entry.operation.name == name

def opcodeNamed? (table : Table) (name : String) : Option UInt8 :=
  (table.entryNamed? name).map Entry.opcode

/-- A taken opcode is refused first, then a taken name, then the first width without an
encoding. -/
def define (table : Table) (entry : Entry) : Except CodeError Table :=
  if taken : entry.opcode ∈ table.opcodes then .error (.opcodeTaken entry.opcode)
  else if known : entry.operation.name ∈ table.names then
    .error (.nameTaken entry.operation.name)
  else
    match odd : entry.operation.widths.find? fun width => width ∉ supportedWidths with
    | some width => .error (.unsupportedWidth width)
    | none => .ok {
        entries := entry.insert table.entries
        ordered := insert_ordered entry table.entries table.ordered taken
        named := by
          refine (insert_perm entry table.entries).symm.pairwise ?_ Ne.symm
          refine List.pairwise_cons.mpr ⟨?_, table.named⟩
          intro other member same
          exact known (same ▸ List.mem_map_of_mem member)
        supported := by
          intro other member width inside
          rcases mem_insert.mp member with rfl | member
          · simpa using List.find?_eq_none.mp odd width inside
          · exact table.supported other member width inside }

def defineAll (table : Table) (entries : List Entry) : Except CodeError Table :=
  entries.foldlM define table

/-- Tries every entry in turn; a refused one leaves the table as it was. The answer for an
entry is the cause of its refusal. -/
def defineEach (table : Table) : List Entry → List (Option CodeError) × Table
  | [] => ([], table)
  | entry :: entries =>
      match table.define entry with
      | .ok extended =>
          let (answers, final) := extended.defineEach entries
          (none :: answers, final)
      | .error cause =>
          let (answers, final) := table.defineEach entries
          (some cause :: answers, final)

end Table

end Opstream
