import Opstream.Proofs.Reading
import Opstream.Text

/-!
What is written can be read. Main statements: lines that were each ended by a line feed are
found again, and the line of an instruction reads as its name and operands if the name is one
that listings can spell, whatever the offset in front of it.
-/

namespace Opstream

namespace Text

theorem lines_ended_append (lines : List (List Char)) (whole : ∀ line ∈ lines, '\n' ∉ line)
    (rest : List Char) :
    Text.lines ((lines.flatMap fun line => line ++ ['\n']) ++ rest) =
      lines.map dropReturn ++ Text.lines rest := by
  induction lines with
  | nil => rfl
  | cons line lines induction =>
      have others := induction (by intro other member; exact whole other (by simp [member]))
      rw [List.flatMap_cons, List.append_assoc, List.append_assoc, List.singleton_append,
        lines_cons line _ (whole line (by simp)), others, List.map_cons, List.cons_append]

theorem lines_ended (lines : List (List Char)) (whole : ∀ line ∈ lines, '\n' ∉ line) :
    Text.lines (lines.flatMap fun line => line ++ ['\n']) = lines.map dropReturn := by
  have alone := lines_ended_append lines whole []
  rwa [List.append_nil, lines_nil, List.append_nil] at alone

theorem drop_return_of_absent {line : List Char} (absent : '\r' ∉ line) :
    dropReturn line = line := by
  rw [dropReturn, if_neg]
  intro last
  exact absent (List.mem_of_getLast? last)

namespace Decimal

theorem is_numeral_padded (width value : Nat) :
    isNumeral (padded width value).toList = true := by
  have digits := is_numeral_digits value
  simp only [isNumeral, Bool.and_eq_true, List.all_eq_true] at digits ⊢
  rw [padded, String.toList_ofList, List.leftpad]
  constructor
  · simp [Nat.toDigits_ne_nil]
  · intro char member
    rcases List.mem_append.mp member with zero | digit
    · rw [List.eq_of_mem_replicate zero]
      rfl
    · exact digits.2 char digit

end Decimal

end Text

namespace Listing

/-- The characters of an instruction's line: those of names and numerals, and blanks. -/
def isPlain (char : Char) : Bool := char.isAlphanum || char == ' '

theorem not_mem_of_plain {text : List Char} (plain : ∀ char ∈ text, isPlain char = true)
    {other : Char} (odd : isPlain other = false) : other ∉ text := by
  intro member
  rw [plain other member] at odd
  contradiction

/-- The line of an instruction without what stands in front of its name. -/
def spell (name : List Char) (operands : List Operand) : List Char :=
  name ++ operands.flatMap fun operand => ' ' :: Nat.toDigits 10 operand.toNat

theorem plain_spelled {column name : List Char} (operands : List Operand)
    (numeral : Text.Decimal.isNumeral column = true) (grammatical : isName name = true) :
    ∀ char ∈ column ++ ' ' :: spell name operands, isPlain char = true := by
  have plain_digits {digits : List Char} (numeral : Text.Decimal.isNumeral digits = true) :
      ∀ char ∈ digits, isPlain char = true := by
    intro char member
    have digit := (is_numeral_iff.mp numeral).2 char member
    simp [isPlain, is_alphanum_of_digit digit]
  intro char member
  simp only [spell, List.mem_append, List.mem_cons, List.mem_flatMap] at member
  rcases member with digit | blank | letter | ⟨operand, _, blank | digit⟩
  · exact plain_digits numeral char digit
  · simp [isPlain, blank]
  · simp [isPlain, is_alphanum_of_name (is_name_iff.mp grammatical) char letter]
  · simp [isPlain, blank]
  · exact plain_digits (Text.Decimal.is_numeral_digits operand.toNat) char digit

theorem blanks_single : Blanks [' '] := by
  simp [Blanks]

def spaced (operand : Operand) : Spaced where
  digits := Nat.toDigits 10 operand.toNat
  gap := [' ']
  numeral := is_numeral_iff.mp (Text.Decimal.is_numeral_digits operand.toNat)
  blank := blanks_single
  apart := by simp

def spelledLayout {column name : List Char} (operands : List Operand)
    (numeral : Numeral column) (named : Name name) : Layout where
  indent := []
  column := some ⟨column, [' '], numeral, blanks_single, by simp⟩
  name := name
  operands := operands.map spaced
  trail := []
  comment := none
  indented := by simp [Blanks]
  named := named
  trailed := by simp [Blanks]
  unbroken := by simp

theorem text_spelled {column name : List Char} (operands : List Operand)
    (numeral : Numeral column) (named : Name name) :
    (spelledLayout operands numeral named).text = column ++ ' ' :: spell name operands := by
  have operands_text : operandsText (operands.map spaced) =
      operands.flatMap fun operand => ' ' :: Nat.toDigits 10 operand.toNat := by
    induction operands with
    | nil => rfl
    | cons operand operands induction =>
        simp [operandsText, spaced, induction]
  simp [Layout.text, Layout.body, spelledLayout, columnText, commentText, operands_text, spell]

theorem figures_spelled {column name : List Char} (operands : List Operand)
    (numeral : Numeral column) (named : Name name) :
    (spelledLayout operands numeral named).figures = operands.map UInt64.toNat := by
  simp only [Layout.figures, spelledLayout, List.map_map]
  apply List.map_congr_left
  intro operand _
  exact Nat.ofDigitChars_ten_toDigits

/-- The offset column is told from the name by its digits, so it is read over. -/
theorem read_spelled {column name : List Char} (operands : List Operand)
    (numeral : Text.Decimal.isNumeral column = true) (grammatical : isName name = true) :
    Line.read (column ++ ' ' :: spell name operands) =
      .instruction (String.ofList name) operands := by
  have digits := is_numeral_iff.mp numeral
  have named := is_name_iff.mp grammatical
  have figures := figures_spelled operands digits named
  have fits : (spelledLayout operands digits named).Fits := by
    intro figure member
    rw [figures] at member
    obtain ⟨operand, _, rfl⟩ := List.mem_map.mp member
    exact operand.toNat_lt
  have values : (spelledLayout operands digits named).values = operands := by
    rw [Layout.values, figures, List.map_map]
    exact (List.map_congr_left fun operand _ => UInt64.ofNat_toNat).trans (List.map_id operands)
  have read := (spelledLayout operands digits named).read_text fits
  rw [text_spelled, values] at read
  exact read

end Listing

end Opstream
