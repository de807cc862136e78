import Opstream.Listing

/-!
Code that is still being written: a table that grows and a buffer whose end is appended to and
whose fields are patched in place. An edit that is refused changes nothing.
-/

namespace Opstream

structure Draft where
  table : Table
  code : List UInt8

inductive Edit where
  | define (entry : Entry)
  | emit (instruction : Instruction)
  | patch (offset : Nat) (value : Operand) (width : Nat)
  | appendBytes (bytes : List UInt8)
  | appendListing (text : String)
  | truncate (length : Nat)

inductive Refusal where
  | code (cause : CodeError)
  | listing (error : ListingError)
  deriving DecidableEq, Repr

namespace Draft

def empty : Draft := ⟨.empty, []⟩

def append (draft : Draft) (bytes : List UInt8) : Draft :=
  { draft with code := draft.code ++ bytes }

/-- The bytes before a patch stay; an offset beyond the end leaves no room for a value. -/
def apply (draft : Draft) : Edit → Except Refusal Draft
  | .define entry => do
      let extended ← (draft.table.define entry).mapError .code
      .ok { draft with table := extended }
  | .emit instruction => do
      let bytes ← (draft.table.encode instruction).mapError .code
      .ok (draft.append bytes)
  | .patch offset value width => do
      let patched ← (Operand.write (draft.code.drop offset) value width).mapError .code
      .ok { draft with code := draft.code.take offset ++ patched }
  | .appendBytes bytes => .ok (draft.append bytes)
  | .appendListing text => do
      let bytes ← (draft.table.assemble text).mapError .listing
      .ok (draft.append bytes)
  | .truncate length => .ok { draft with code := draft.code.take length }

def step (draft : Draft) (edit : Edit) : Draft :=
  match draft.apply edit with
  | .ok edited => edited
  | .error _ => draft

def run (draft : Draft) (edits : List Edit) : Draft := edits.foldl step draft

def read (draft : Draft) (offset width : Nat) : Except CodeError Operand :=
  Operand.read (draft.code.drop offset) width

end Draft

end Opstream
