import Mathlib.Data.List.TakeWhile
import Opstream.Listing.Line

/-!
The lines of a listing as a grammar. Main statement: no line has two layouts, because each part of
a line begins with a character that the part in front of it cannot have.
-/

namespace Opstream

section Runs

variable {Value : Type} {kind : Value → Bool} {run rest : List Value}

theorem take_run (inside : ∀ value ∈ run, kind value = true)
    (ended : ∀ value ∈ rest.head?, kind value = false) : (run ++ rest).takeWhile kind = run := by
  rw [List.takeWhile_append_of_pos inside]
  cases rest with
  | nil => simp
  | cons value rest => simp [ended value rfl]

theorem drop_run (inside : ∀ value ∈ run, kind value = true)
    (ended : ∀ value ∈ rest.head?, kind value = false) : (run ++ rest).dropWhile kind = rest := by
  rw [List.dropWhile_append_of_pos inside]
  cases rest with
  | nil => rfl
  | cons value rest => simp [ended value rfl]

/-- A run of values of one kind ends where another kind begins, so it is the same run however the
list is split. -/
theorem run_unique (kind : Value → Bool) {run rest other behind : List Value}
    (same : run ++ rest = other ++ behind)
    (inside : ∀ value ∈ run, kind value = true) (within : ∀ value ∈ other, kind value = true)
    (ended : ∀ value ∈ rest.head?, kind value = false)
    (stopped : ∀ value ∈ behind.head?, kind value = false) : run = other ∧ rest = behind := by
  have runs := congrArg (List.takeWhile kind) same
  rw [take_run inside ended, take_run within stopped] at runs
  subst runs
  exact ⟨rfl, List.append_cancel_left same⟩

theorem run_exists (kind : Value → Bool) (values : List Value) :
    ∃ run rest, values = run ++ rest ∧ (∀ value ∈ run, kind value = true) ∧
      ∀ value ∈ rest.head?, kind value = false := by
  refine ⟨values.takeWhile kind, values.dropWhile kind,
    List.takeWhile_append_dropWhile.symm, ?_, ?_⟩
  · intro value member
    exact List.mem_takeWhile_imp member
  · intro value head
    have stop := List.head?_dropWhile_not kind values
    rw [Option.mem_def.mp head] at stop
    exact stop

theorem head_of_run {kind : Value → Prop} (nonempty : run ≠ [])
    (inside : ∀ value ∈ run, kind value) (rest : List Value) :
    ∀ value ∈ (run ++ rest).head?, kind value := by
  cases run with
  | nil => contradiction
  | cons first run =>
      intro value head
      cases head
      exact inside _ (List.mem_cons_self ..)

end Runs

namespace Listing

def Blanks (text : List Char) : Prop := ∀ char ∈ text, char = ' ' ∨ char = '\t'

def Numeral (text : List Char) : Prop := text ≠ [] ∧ ∀ char ∈ text, char.isDigit = true

def Name (text : List Char) : Prop :=
  ∃ first rest, text = first :: rest ∧ first.isAlpha = true ∧
    ∀ char ∈ rest, char.isAlphanum = true

/-- A numeral and the blanks that keep it apart from its neighbour. -/
structure Spaced where
  digits : List Char
  gap : List Char
  numeral : Numeral digits
  blank : Blanks gap
  apart : gap ≠ []

/-- The parts of a line with an operation, from the left to the right. -/
structure Layout where
  indent : List Char
  column : Option Spaced
  name : List Char
  operands : List Spaced
  trail : List Char
  comment : Option (List Char)
  indented : Blanks indent
  named : Name name
  trailed : Blanks trail
  unbroken : ∀ remark ∈ comment, '\r' ∉ remark

def columnText : Option Spaced → List Char
  | none => []
  | some column => column.digits ++ column.gap

def operandsText : List Spaced → List Char
  | [] => []
  | operand :: operands => operand.gap ++ (operand.digits ++ operandsText operands)

def commentText : Option (List Char) → List Char
  | none => []
  | some remark => '#' :: remark

namespace Layout

def body (layout : Layout) : List Char :=
  layout.indent ++ (columnText layout.column ++
    (layout.name ++ (operandsText layout.operands ++ layout.trail)))

def text (layout : Layout) : List Char := layout.body ++ commentText layout.comment

/-- Zeros in front do not matter. -/
def figures (layout : Layout) : List Nat :=
  layout.operands.map fun operand => Nat.ofDigitChars 10 operand.digits 0

def Fits (layout : Layout) : Prop := ∀ figure ∈ layout.figures, figure < UInt64.size

def values (layout : Layout) : List Operand := layout.figures.map UInt64.ofNat

end Layout

def BlankLine (text : List Char) : Prop :=
  ∃ indent comment, text = indent ++ commentText comment ∧ Blanks indent ∧
    ∀ remark ∈ comment, '\r' ∉ remark

theorem is_gap_iff {char : Char} : isGap char = true ↔ char = ' ' ∨ char = '\t' := by
  simp [isGap]

theorem is_gap_of_alphanum {char : Char} (solid : char.isAlphanum = true) :
    isGap char = false := by
  rw [← Bool.not_eq_true, is_gap_iff]
  intro blank
  rcases blank with rfl | rfl
  · exact absurd solid (by decide)
  · exact absurd solid (by decide)

theorem is_alphanum_of_digit {char : Char} (digit : char.isDigit = true) :
    char.isAlphanum = true := by
  simp [Char.isAlphanum, digit]

theorem alphanum_of_letter {char : Char} (letter : char.isAlpha = true) :
    char.isAlphanum = true := by
  simp [Char.isAlphanum, letter]

theorem not_digit_of_letter {char : Char} (letter : char.isAlpha = true) :
    char.isDigit = false := by
  rw [← Bool.not_eq_true]
  intro digit
  have nine : char.val ≤ '9'.val := of_decide_eq_true (Bool.and_eq_true_iff.mp digit).2
  rcases Bool.or_eq_true_iff.mp letter with upper | lower
  · have first : 'A'.val ≤ char.val := (of_decide_eq_true upper).1
    exact absurd (UInt32.le_trans first nine) (by decide)
  · have first : 'a'.val ≤ char.val := of_decide_eq_true (Bool.and_eq_true_iff.mp lower).1
    exact absurd (UInt32.le_trans first nine) (by decide)

theorem is_alphanum_of_name {name : List Char} (named : Name name) :
    ∀ char ∈ name, char.isAlphanum = true := by
  obtain ⟨first, rest, rfl, letter, others⟩ := named
  intro char member
  rcases List.mem_cons.mp member with rfl | member
  · exact alphanum_of_letter letter
  · exact others char member

theorem head_of_name {name : List Char} (named : Name name) (rest : List Char) :
    ∀ char ∈ (name ++ rest).head?, char.isAlpha = true := by
  obtain ⟨first, others, rfl, letter, _⟩ := named
  intro char head
  cases head
  exact letter

theorem head_behind (operands : List Spaced) {trail : List Char} (trailed : Blanks trail)
    (comment : Option (List Char)) :
    ∀ char ∈ (operandsText operands ++ (trail ++ commentText comment)).head?,
      char = ' ' ∨ char = '\t' ∨ char = '#' := by
  have blank_first {gap : List Char} (blank : Blanks gap) (apart : gap ≠ []) (rest : List Char) :
      ∀ char ∈ (gap ++ rest).head?, char = ' ' ∨ char = '\t' ∨ char = '#' := by
    intro char head
    rcases head_of_run apart blank rest char head with space | tab
    · exact .inl space
    · exact .inr (.inl tab)
  cases operands with
  | cons operand operands =>
      rw [operandsText, List.append_assoc]
      exact blank_first operand.blank operand.apart _
  | nil =>
      by_cases empty : trail = []
      · subst empty
        cases comment with
        | none => simp [operandsText, commentText]
        | some remark => simp [operandsText, commentText]
      · exact blank_first trailed empty _

theorem no_word_behind (operands : List Spaced) {trail : List Char} (trailed : Blanks trail)
    (comment : Option (List Char)) :
    ∀ char ∈ (operandsText operands ++ (trail ++ commentText comment)).head?,
      char.isAlphanum = false := by
  intro char head
  rcases head_behind operands trailed comment char head with rfl | rfl | rfl <;> rfl

theorem no_digit_behind (operands : List Spaced) {trail : List Char} (trailed : Blanks trail)
    (comment : Option (List Char)) :
    ∀ char ∈ (operandsText operands ++ (trail ++ commentText comment)).head?,
      char.isDigit = false := by
  intro char head
  rcases head_behind operands trailed comment char head with rfl | rfl | rfl <;> rfl

theorem comment_text_injective {first second : Option (List Char)}
    (same : commentText first = commentText second) : first = second := by
  cases first <;> cases second <;> simp_all [commentText]

theorem gap_of_blanks {text : List Char} (blank : Blanks text) :
    ∀ char ∈ text, isGap char = true := fun char member => is_gap_iff.mpr (blank char member)

theorem Spaced.digit_first (spaced : Spaced) (rest : List Char) :
    ∀ char ∈ (spaced.digits ++ rest).head?, char.isDigit = true :=
  head_of_run spaced.numeral.1 spaced.numeral.2 rest

theorem Spaced.no_gap_first (spaced : Spaced) (rest : List Char) :
    ∀ char ∈ (spaced.digits ++ rest).head?, isGap char = false := by
  intro char head
  exact is_gap_of_alphanum (is_alphanum_of_digit (spaced.digit_first rest char head))

theorem Spaced.no_digit_in_gap (spaced : Spaced) (rest : List Char) :
    ∀ char ∈ (spaced.gap ++ rest).head?, char.isDigit = false := by
  intro char head
  rcases head_of_run spaced.apart spaced.blank rest char head with rfl | rfl <;> rfl

theorem no_gap_in_comment (comment : Option (List Char)) :
    ∀ char ∈ (commentText comment).head?, isGap char = false := by
  cases comment with
  | none => simp [commentText]
  | some remark =>
      intro char head
      cases head
      rfl

theorem no_gap_in_name {name : List Char} (named : Name name) (rest : List Char) :
    ∀ char ∈ (name ++ rest).head?, isGap char = false := by
  intro char head
  exact is_gap_of_alphanum (alphanum_of_letter (head_of_name named rest char head))

theorem no_gap_behind_indent (column : Option Spaced) {name : List Char} (named : Name name)
    (rest : List Char) :
    ∀ char ∈ (columnText column ++ (name ++ rest)).head?, isGap char = false := by
  cases column with
  | none => exact no_gap_in_name named rest
  | some column =>
      rw [columnText, List.append_assoc]
      exact column.no_gap_first _

theorem comment_ne_digits (comment : Option (List Char)) (spaced : Spaced) (rest : List Char) :
    commentText comment ≠ spaced.digits ++ rest := by
  intro same
  cases comment with
  | none => exact spaced.numeral.1 (List.append_eq_nil_iff.mp same.symm).1
  | some remark =>
      have digit := spaced.digit_first rest '#' (by rw [← same]; rfl)
      exact absurd digit (by decide)

theorem name_ne_digits {name : List Char} (named : Name name) (behind : List Char)
    (spaced : Spaced) (rest : List Char) : name ++ behind ≠ spaced.digits ++ rest := by
  intro same
  obtain ⟨letter, letters, rfl, alpha, _⟩ := named
  have digit := spaced.digit_first rest letter (by rw [← same]; rfl)
  rw [not_digit_of_letter alpha] at digit
  contradiction

theorem Spaced.injective {first second : Spaced} (digits : first.digits = second.digits)
    (gap : first.gap = second.gap) : first = second := by
  cases first
  cases second
  cases digits
  cases gap
  rfl

theorem operands_unique {first second : List Spaced} {trail ending : List Char}
    {comment remark : Option (List Char)} (trailed : Blanks trail) (ended : Blanks ending)
    (same : operandsText first ++ (trail ++ commentText comment) =
      operandsText second ++ (ending ++ commentText remark)) :
    first = second ∧ trail = ending ∧ comment = remark := by
  induction first generalizing second with
  | nil =>
      cases second with
      | nil =>
          simp only [operandsText, List.nil_append] at same
          obtain ⟨trails, comments⟩ := run_unique isGap same (gap_of_blanks trailed)
            (gap_of_blanks ended) (no_gap_in_comment comment) (no_gap_in_comment remark)
          exact ⟨rfl, trails, comment_text_injective comments⟩
      | cons operand second =>
          simp only [operandsText, List.nil_append, List.append_assoc] at same
          obtain ⟨_, comments⟩ := run_unique isGap same (gap_of_blanks trailed)
            (gap_of_blanks operand.blank) (no_gap_in_comment comment) (operand.no_gap_first _)
          exact absurd comments (comment_ne_digits comment operand _)
  | cons operand first induction =>
      cases second with
      | nil =>
          simp only [operandsText, List.nil_append, List.append_assoc] at same
          obtain ⟨_, comments⟩ := run_unique isGap same (gap_of_blanks operand.blank)
            (gap_of_blanks ended) (operand.no_gap_first _) (no_gap_in_comment remark)
          exact absurd comments.symm (comment_ne_digits remark operand _)
      | cons other second =>
          simp only [operandsText, List.append_assoc] at same
          obtain ⟨gaps, numerals⟩ := run_unique isGap same (gap_of_blanks operand.blank)
            (gap_of_blanks other.blank) (operand.no_gap_first _) (other.no_gap_first _)
          obtain ⟨digits, others⟩ := run_unique Char.isDigit numerals operand.numeral.2
            other.numeral.2 (no_digit_behind first trailed comment) (no_digit_behind second ended remark)
          obtain ⟨rfl, trails, comments⟩ := induction others
          exact ⟨by rw [Spaced.injective digits gaps], trails, comments⟩

theorem column_unique {first second : Option Spaced} {name word rest behind : List Char}
    (named : Name name) (worded : Name word)
    (same : columnText first ++ (name ++ rest) = columnText second ++ (word ++ behind)) :
    first = second ∧ name ++ rest = word ++ behind := by
  cases first with
  | none =>
      cases second with
      | none => exact ⟨rfl, same⟩
      | some column =>
          simp only [columnText, List.nil_append, List.append_assoc] at same
          exact absurd same (name_ne_digits named rest column _)
  | some column =>
      cases second with
      | none =>
          simp only [columnText, List.nil_append, List.append_assoc] at same
          exact absurd same.symm (name_ne_digits worded behind column _)
      | some other =>
          simp only [columnText, List.append_assoc] at same
          obtain ⟨digits, gaps⟩ := run_unique Char.isDigit same column.numeral.2 other.numeral.2
            (column.no_digit_in_gap _) (other.no_digit_in_gap _)
          obtain ⟨gap, words⟩ := run_unique isGap gaps (gap_of_blanks column.blank)
            (gap_of_blanks other.blank) (no_gap_in_name named rest) (no_gap_in_name worded behind)
          exact ⟨by rw [Spaced.injective digits gap], words⟩

/-- Each part of a line is told from the next by the kind of its characters. -/
theorem Layout.text_injective {first second : Layout} (same : first.text = second.text) :
    first = second := by
  obtain ⟨indent, column, name, operands, trail, comment, indented, named, trailed, _⟩ := first
  obtain ⟨margin, offset, word, others, ending, remark, blank, worded, ended, _⟩ := second
  simp only [text, body, List.append_assoc] at same
  obtain ⟨rfl, columns⟩ := run_unique isGap same (gap_of_blanks indented) (gap_of_blanks blank)
    (no_gap_behind_indent column named _) (no_gap_behind_indent offset worded _)
  obtain ⟨rfl, names⟩ := column_unique named worded columns
  obtain ⟨rfl, tails⟩ := run_unique Char.isAlphanum names (is_alphanum_of_name named)
    (is_alphanum_of_name worded) (no_word_behind operands trailed comment)
    (no_word_behind others ended remark)
  obtain ⟨rfl, rfl, rfl⟩ := operands_unique trailed ended tails
  rfl

end Listing

end Opstream
