import Opstream.Listing
import Opstream.Proofs.Defining
import Opstream.Proofs.Parsing

/-!
What a line of a listing means. Main statement: a line with a layout means what the table says of
its name and operands, a line without an operation means nothing, and any other line is kept as
malformed, without the white space at its ends.
-/

namespace Opstream

namespace Text

/-- White space stands around `text` at most, and none at its own ends. -/
def Trimmed (whole text : List Char) : Prop :=
  ∃ left right, whole = left ++ (text ++ right) ∧
    (∀ char ∈ left, isWhiteSpace char = true) ∧ (∀ char ∈ right, isWhiteSpace char = true) ∧
    (∀ char ∈ text.head?, isWhiteSpace char = false) ∧
    ∀ char ∈ text.getLast?, isWhiteSpace char = false

theorem trim_end_split (text : List Char) :
    ∃ right, text = trimEnd text ++ right ∧ (∀ char ∈ right, isWhiteSpace char = true) ∧
      ∀ char ∈ (trimEnd text).getLast?, isWhiteSpace char = false := by
  obtain ⟨run, rest, split, blank, stop⟩ := run_exists isWhiteSpace text.reverse
  have kept : trimEnd text = rest.reverse := by
    rw [trimEnd, split, drop_run blank stop]
  refine ⟨run.reverse, ?_, ?_, ?_⟩
  · rw [kept, ← List.reverse_append, ← split, List.reverse_reverse]
  · intro char member
    exact blank char (List.mem_reverse.mp member)
  · rw [kept, List.getLast?_reverse]
    exact stop

theorem trimmed_trim (text : List Char) : Trimmed text (trim text) := by
  obtain ⟨left, rest, rfl, blank, start⟩ := run_exists isWhiteSpace text
  obtain ⟨right, split, ended, stop⟩ := trim_end_split rest
  rw [trim, drop_run blank start]
  refine ⟨left, right, by rw [← split], blank, ended, ?_, stop⟩
  intro char head
  apply start char
  rw [split]
  exact List.mem_head?_append_of_mem_head? head

end Text

namespace Table

inductive Means (table : Table) (name : String) (operands : List Operand) :
    Listing.Statement → Prop where
  | unknownName (unknown : table.opcodeNamed? name = none) :
      Means table name operands (.unknownName name)
  | wrongArity {opcode : UInt8} {operation : Operation}
      (known : table.opcodeNamed? name = some opcode)
      (found : table.lookup opcode = .ok operation)
      (arity : operands.length ≠ operation.arity) :
      Means table name operands (.wrongArity name operation.arity operands)
  | instruction {opcode : UInt8} {operation : Operation}
      (known : table.opcodeNamed? name = some opcode)
      (found : table.lookup opcode = .ok operation)
      (arity : operands.length = operation.arity) :
      Means table name operands (.instruction ⟨opcode, operands⟩)

theorem means_of_read {table : Table} {line : List Char} {name : String} {operands : List Operand}
    (read : Listing.Line.read line = .instruction name operands) :
    ∃ statement, table.statement? line = some statement ∧
      table.Means name operands statement := by
  simp only [statement?, read]
  cases named : table.entryNamed? name with
  | none => exact ⟨_, rfl, .unknownName (by rw [opcodeNamed?, named]; rfl)⟩
  | some entry =>
      obtain ⟨member, _⟩ := entry_named_iff.mp named
      have known : table.opcodeNamed? name = some entry.opcode := by
        rw [opcodeNamed?, named]
        rfl
      have found := lookup_ok_iff.mpr member
      by_cases arity : operands.length = entry.operation.arity
      · simp only [arity, ne_eq, not_true, if_false]
        exact ⟨_, rfl, .instruction known found arity⟩
      · simp only [arity, ne_eq, not_false_eq_true, if_true]
        exact ⟨_, rfl, .wrongArity known found arity⟩

end Table

open Listing in
/-- No line has two layouts. A line that has one with operands of at most 64 bits means what the
table says of its name and operands, whatever its offset and its comment; a line without an
operation means nothing; and any other is malformed. Parsers that take each part of a line as
far as it goes read it alike. -/
theorem lines_mean_what_they_spell (table : Table) (line : List Char) :
    (∀ layout : Layout, layout.text = line → layout.Fits →
        (∀ other : Layout, other.text = line → other = layout) ∧
        ∃ statement, table.statement? line = some statement ∧
          table.Means (String.ofList layout.name) layout.values statement) ∧
      (BlankLine line → table.statement? line = none) ∧
      ((∀ layout : Layout, layout.text = line → ¬ layout.Fits) → ¬ BlankLine line →
        ∃ text, Text.Trimmed line text ∧
          table.statement? line = some (.malformed (String.ofList text))) ∧
      ('\n' ∉ line → parseLine line = Line.read line) := by
  refine ⟨?_, ?_, ?_, parse_line_eq_read⟩
  · rintro layout rfl fits
    refine ⟨?_, Table.means_of_read (layout.read_text fits)⟩
    intro other same
    exact Layout.text_injective same
  · intro blank
    simp only [Table.statement?, read_blank_iff.mpr blank]
  · intro unfit solid
    refine ⟨Text.trim line, Text.trimmed_trim line, ?_⟩
    cases read : Line.read line with
    | blank => exact absurd (read_blank_iff.mp read) solid
    | malformed => simp only [Table.statement?, read]
    | instruction name operands =>
        obtain ⟨layout, spelled, fits⟩ := layout_of_read read
        exact absurd fits (unfit layout spelled)

open Listing in
/-- Gaps and zeros in front do not matter, but one operand that is too large spoils its line. -/
theorem lines_of_load_read :
    let table : Table := ⟨[⟨4, ⟨"LdI", [1]⟩⟩], by decide, by decide, by decide⟩
    let layout : Layout := {
      indent := [' ']
      column := some ⟨['0', '7'], ['\t'], by simp [Numeral], by simp [Blanks], by simp⟩
      name := ['L', 'd', 'I']
      operands := [⟨['0', '4', '2'], [' ', ' '], by simp [Numeral], by simp [Blanks], by simp⟩]
      trail := []
      comment := some ['4', '2', '#']
      indented := by simp [Blanks]
      named := is_name_iff.mp rfl
      trailed := by simp [Blanks]
      unbroken := by simp }
    let large := "LdI 18446744073709551616 ".toList
    layout.text = " 07\tLdI  042#42#".toList ∧ layout.Fits ∧
      (∃ statement, table.statement? layout.text = some statement ∧
        table.Means "LdI" [42] statement) ∧
      BlankLine ['\t', '#'] ∧ table.statement? ['\t', '#'] = none ∧
      parseLine large = .malformed ∧
      ∃ text, Text.Trimmed large text ∧
        table.statement? large = some (.malformed (String.ofList text)) := by
  intro table layout large
  have fits : layout.Fits := by
    simp only [Layout.Fits, Layout.figures, layout, List.map_cons, List.map_nil, List.mem_singleton,
      forall_eq]
    decide
  have said := ((lines_mean_what_they_spell table layout.text).1 layout rfl fits).2
  have blank : BlankLine ['\t', '#'] := read_blank_iff.mp (by decide)
  have silent := (lines_mean_what_they_spell table ['\t', '#']).2.1 blank
  have spoiled : Line.read large = .malformed := by decide
  have unfit : ∀ other : Layout, other.text = large → ¬ other.Fits := by
    intro other same small
    have read := other.read_text small
    rw [same, spoiled] at read
    contradiction
  have solid : ¬ BlankLine large := by
    intro empty
    rw [read_blank_iff.mpr empty] at spoiled
    contradiction
  obtain ⟨_, _, malformed, parsed⟩ := lines_mean_what_they_spell table large
  have refused := (parsed (by decide)).trans spoiled
  exact ⟨by decide, fits, said, blank, silent, refused, malformed unfit solid⟩

end Opstream
