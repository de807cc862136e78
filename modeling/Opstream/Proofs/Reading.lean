import Opstream.Proofs.Grammar

/-!
Reading a line follows the grammar. Main statements: a line that is laid out with operands that
are small enough reads as its name and their values, a line without an operation reads as blank,
and no other line reads as either.
-/

namespace Opstream

namespace Listing

section Words

theorem words_blanks_append {gap : List Char} (blank : Blanks gap) (text : List Char) :
    words (gap ++ text) = words text := by
  induction gap with
  | nil => rfl
  | cons char gap induction =>
      have first := is_gap_iff.mpr (blank char (List.mem_cons_self ..))
      have rest := induction (by intro other member; exact blank other (by simp [member]))
      have split := words_gap_append [] (gap ++ text) char first
      rw [List.nil_append] at split
      rw [List.cons_append, split, rest]
      rfl

theorem words_blanks {gap : List Char} (blank : Blanks gap) : words gap = [] := by
  have none_behind := words_blanks_append blank []
  rw [List.append_nil] at none_behind
  exact none_behind

theorem words_cons {word behind : List Char} (nonempty : word ≠ [])
    (solid : ∀ char ∈ word, isGap char = false) (ended : ∀ char ∈ behind.head?, isGap char = true) :
    words (word ++ behind) = word :: words behind := by
  have single := words_single word solid nonempty
  cases behind with
  | nil =>
      rw [List.append_nil, single]
      rfl
  | cons char behind =>
      have blank := ended char rfl
      have skipped := words_gap_append [] behind char blank
      rw [List.nil_append] at skipped
      rw [words_gap_append word behind char blank, single, skipped]
      rfl

theorem words_operands {word trail : List Char} (nonempty : word ≠ [])
    (solid : ∀ char ∈ word, char.isAlphanum = true) (operands : List Spaced)
    (trailed : Blanks trail) :
    words (word ++ (operandsText operands ++ trail)) = word :: operands.map Spaced.digits := by
  have no_gap : ∀ char ∈ word, isGap char = false := by
    intro char member
    exact is_gap_of_alphanum (solid char member)
  induction operands generalizing word with
  | nil =>
      have ended : ∀ char ∈ trail.head?, isGap char = true := by
        intro char head
        exact gap_of_blanks trailed char (List.mem_of_mem_head? head)
      rw [operandsText, List.nil_append, words_cons nonempty no_gap ended, words_blanks trailed]
      rfl
  | cons operand operands induction =>
      have digits : ∀ char ∈ operand.digits, char.isAlphanum = true := by
        intro char member
        exact is_alphanum_of_digit (operand.numeral.2 char member)
      have digits_no_gap : ∀ char ∈ operand.digits, isGap char = false := by
        intro char member
        exact is_gap_of_alphanum (digits char member)
      have ended := head_of_run operand.apart (gap_of_blanks operand.blank)
      rw [operandsText, List.append_assoc, words_cons nonempty no_gap (ended _),
        words_blanks_append operand.blank, List.append_assoc,
        induction operand.numeral.1 digits digits_no_gap]
      rfl

theorem blanks_or_word (text : List Char) :
    Blanks text ∨ ∃ indent word behind, text = indent ++ (word ++ behind) ∧ Blanks indent ∧
      word ≠ [] ∧ (∀ char ∈ word, isGap char = false) ∧
      ∀ char ∈ behind.head?, isGap char = true := by
  obtain ⟨indent, rest, rfl, inside, start⟩ := run_exists isGap text
  have indented : Blanks indent := fun char member => is_gap_iff.mp (inside char member)
  obtain ⟨word, behind, rfl, solid, stop⟩ := run_exists (fun char => !isGap char) rest
  by_cases nonempty : word = []
  · subst nonempty
    left
    cases behind with
    | nil => simpa using indented
    | cons char behind =>
        have gap := start char rfl
        have solid := stop char rfl
        simp [gap] at solid
  · right
    refine ⟨indent, word, behind, rfl, indented, nonempty, ?_, ?_⟩
    · intro char member
      simpa using solid char member
    · intro char head
      simpa using stop char head

theorem blanks_of_words {text : List Char} (wordless : words text = []) : Blanks text := by
  rcases blanks_or_word text with
    blank | ⟨indent, word, behind, rfl, indented, nonempty, solid, ended⟩
  · exact blank
  · rw [words_blanks_append indented, words_cons nonempty solid ended] at wordless
    contradiction

theorem first_word {text first : List Char} {rest : List (List Char)}
    (found : words text = first :: rest) :
    ∃ indent behind, text = indent ++ (first ++ behind) ∧ Blanks indent ∧ words behind = rest ∧
      (∀ char ∈ behind.head?, isGap char = true) ∧
      ((∀ char ∈ text.head?, isGap char = true) → indent ≠ []) := by
  rcases blanks_or_word text with
    blank | ⟨indent, word, behind, rfl, indented, nonempty, solid, ended⟩
  · rw [words_blanks blank] at found
    contradiction
  · rw [words_blanks_append indented, words_cons nonempty solid ended] at found
    obtain ⟨rfl, others⟩ := List.cons.inj found
    refine ⟨indent, behind, rfl, indented, others, ended, ?_⟩
    rintro start rfl
    cases word with
    | nil => contradiction
    | cons char word =>
        have gap := start char rfl
        rw [solid char (List.mem_cons_self ..)] at gap
        contradiction

theorem operands_of_words {text : List Char} {rest : List (List Char)}
    (found : words text = rest) (numerals : ∀ word ∈ rest, Numeral word)
    (start : ∀ char ∈ text.head?, isGap char = true) :
    ∃ operands trail, text = operandsText operands ++ trail ∧ Blanks trail ∧
      operands.map Spaced.digits = rest := by
  induction rest generalizing text with
  | nil => exact ⟨[], text, rfl, blanks_of_words found, rfl⟩
  | cons word rest induction =>
      obtain ⟨gap, behind, rfl, blank, others, ended, apart⟩ := first_word found
      have later : ∀ word ∈ rest, Numeral word := by
        intro other member
        exact numerals other (List.mem_cons_of_mem _ member)
      obtain ⟨operands, trail, rfl, trailed, rfl⟩ := induction others later ended
      refine ⟨⟨word, gap, numerals word (List.mem_cons_self ..), blank, apart start⟩ :: operands,
        trail, ?_, trailed, rfl⟩
      simp only [operandsText, List.append_assoc]

end Words

theorem is_name_iff {text : List Char} : isName text = true ↔ Name text := by
  cases text with
  | nil => simp [isName, Name]
  | cons first rest =>
      simp only [isName, Bool.and_eq_true, List.all_eq_true]
      constructor
      · intro named
        exact ⟨first, rest, rfl, named⟩
      · intro named
        obtain ⟨_, _, same, letters⟩ := named
        cases same
        exact letters

theorem is_numeral_iff {text : List Char} : Text.Decimal.isNumeral text = true ↔ Numeral text := by
  cases text <;> simp [Text.Decimal.isNumeral, Numeral]

theorem operand_iff {word : List Char} {operand : Operand} :
    operand? word = some operand ↔ Numeral word ∧
      Nat.ofDigitChars 10 word 0 < UInt64.size ∧
      operand = UInt64.ofNat (Nat.ofDigitChars 10 word 0) := by
  rw [← is_numeral_iff]
  by_cases numeral : Text.Decimal.isNumeral word = true
  · by_cases small : Nat.ofDigitChars 10 word 0 < UInt64.size
    · simp [operand?, Text.Decimal.read?, numeral, small, eq_comm]
    · simp [operand?, Text.Decimal.read?, numeral, small]
  · simp [operand?, Text.Decimal.read?, numeral]

theorem operands_iff {operands : List Spaced} {values : List Operand} :
    (operands.map Spaced.digits).mapM operand? = some values ↔
      (∀ operand ∈ operands, Nat.ofDigitChars 10 operand.digits 0 < UInt64.size) ∧
      values = operands.map fun operand => UInt64.ofNat (Nat.ofDigitChars 10 operand.digits 0) := by
  induction operands generalizing values with
  | nil => simp [eq_comm]
  | cons operand operands induction =>
      simp only [List.map_cons, List.mapM_cons, Option.bind_eq_bind, Option.bind_eq_some_iff,
        operand_iff, induction, operand.numeral, true_and, List.mem_cons, forall_eq_or_imp]
      constructor
      · intro read
        obtain ⟨_, ⟨small, rfl⟩, _, ⟨others, rfl⟩, same⟩ := read
        exact ⟨⟨small, others⟩, (Option.some.inj same).symm⟩
      · intro fits
        obtain ⟨⟨small, others⟩, rfl⟩ := fits
        exact ⟨_, ⟨small, rfl⟩, _, ⟨others, rfl⟩, rfl⟩

theorem numerals_of_operands {rest : List (List Char)} {values : List Operand}
    (read : rest.mapM operand? = some values) : ∀ word ∈ rest, Numeral word := by
  induction rest generalizing values with
  | nil => simp
  | cons word rest induction =>
      simp only [List.mapM_cons, Option.bind_eq_bind, Option.bind_eq_some_iff] at read
      obtain ⟨operand, first, others, remaining, _⟩ := read
      intro other member
      rcases List.mem_cons.mp member with rfl | member
      · exact (operand_iff.mp first).1
      · exact induction remaining other member

theorem instruction_iff {row : List (List Char)} {line : Line} :
    instruction? row = some line ↔ ∃ name operands values, row = name :: operands ∧ Name name ∧
      operands.mapM operand? = some values ∧
      line = .instruction (String.ofList name) values := by
  cases row with
  | nil => simp [instruction?]
  | cons name operands =>
      rw [instruction?]
      by_cases named : isName name = true
      · rw [if_pos named, Option.map_eq_some_iff]
        constructor
        · intro read
          obtain ⟨values, read, rfl⟩ := read
          exact ⟨name, operands, values, rfl, is_name_iff.mp named, read, rfl⟩
        · intro read
          obtain ⟨_, _, values, same, _, read, rfl⟩ := read
          cases same
          exact ⟨values, read, rfl⟩
      · rw [if_neg named]
        simp only [reduceCtorEq, false_iff]
        intro read
        obtain ⟨_, _, _, same, grammatical, _⟩ := read
        cases same
        exact named (is_name_iff.mpr grammatical)

/-- What the words of a line without its comment are read as. -/
def readWords : List (List Char) → Line
  | [] => .blank
  | first :: rest =>
      (instruction? (if Text.Decimal.isNumeral first then rest else first :: rest)).getD .malformed

theorem read_words_blank_iff {row : List (List Char)} : readWords row = .blank ↔ row = [] := by
  cases row with
  | nil => simp [readWords]
  | cons first rest =>
      rw [readWords]
      cases found : instruction? (if Text.Decimal.isNumeral first then rest else first :: rest) with
      | none => simp
      | some line =>
          obtain ⟨_, _, _, _, _, _, rfl⟩ := instruction_iff.mp found
          simp

theorem read_words_instruction {row : List (List Char)} {name : String} {operands : List Operand}
    (read : readWords row = .instruction name operands) :
    ∃ column word digits, row = Option.toList column ++ word :: digits ∧
      (∀ figures ∈ column, Numeral figures) ∧ Name word ∧ digits.mapM operand? = some operands := by
  cases row with
  | nil => cases read
  | cons first rest =>
      rw [readWords] at read
      cases found : instruction? (if Text.Decimal.isNumeral first then rest else first :: rest) with
      | none =>
          rw [found] at read
          cases read
      | some line =>
          rw [found, Option.getD_some] at read
          obtain ⟨word, digits, values, same, named, each, spelled⟩ := instruction_iff.mp found
          cases read.symm.trans spelled
          split_ifs at same with numeral
          · refine ⟨some first, word, digits, by rw [same]; rfl, ?_, named, each⟩
            intro figures column
            cases column
            exact is_numeral_iff.mp numeral
          · exact ⟨none, word, digits, same, by simp, named, each⟩

theorem split_comment (line : List Char) :
    ∃ body comment, line = body ++ commentText comment ∧ '#' ∉ body := by
  obtain ⟨body, behind, rfl, unmarked, start⟩ := run_exists (fun char => char ≠ '#') line
  have absent : '#' ∉ body := by
    intro member
    simpa using unmarked '#' member
  cases behind with
  | nil => exact ⟨body, none, rfl, absent⟩
  | cons mark remark =>
      have same : mark = '#' := by simpa using start mark rfl
      subst same
      exact ⟨body, some remark, rfl, absent⟩

theorem read_parts {body : List Char} (absent : '#' ∉ body) (comment : Option (List Char)) :
    Line.read (body ++ commentText comment) =
      if '\r' ∈ commentText comment then .malformed else readWords (words body) := by
  have unmarked : ∀ char ∈ body, decide (char ≠ '#') = true := by
    intro char member
    exact decide_eq_true fun same => absent (same ▸ member)
  have marked : ∀ char ∈ (commentText comment).head?, decide (char ≠ '#') = false := by
    cases comment <;> simp [commentText]
  have taken : (body ++ commentText comment).takeWhile (· ≠ '#') = body := take_run unmarked marked
  have dropped : (body ++ commentText comment).dropWhile (· ≠ '#') = commentText comment :=
    drop_run unmarked marked
  rw [Line.read, taken, dropped]
  cases words body <;> rfl

theorem unbroken_iff {comment : Option (List Char)} :
    '\r' ∉ commentText comment ↔ ∀ remark ∈ comment, '\r' ∉ remark := by
  cases comment <;> simp [commentText]

namespace Layout

theorem solid_or_gap (layout : Layout) :
    ∀ char ∈ layout.body, char.isAlphanum = true ∨ isGap char = true := by
  have spaced (part : Spaced) : ∀ char, char ∈ part.digits ∨ char ∈ part.gap →
      char.isAlphanum = true ∨ isGap char = true := by
    intro char member
    rcases member with digit | gap
    · exact .inl (is_alphanum_of_digit (part.numeral.2 char digit))
    · exact .inr (gap_of_blanks part.blank char gap)
  have operands (operands : List Spaced) : ∀ char ∈ operandsText operands,
      char.isAlphanum = true ∨ isGap char = true := by
    induction operands with
    | nil => simp [operandsText]
    | cons operand operands induction =>
        intro char member
        simp only [operandsText, List.mem_append] at member
        rcases member with gap | digit | member
        · exact spaced operand char (.inr gap)
        · exact spaced operand char (.inl digit)
        · exact induction char member
  intro char member
  simp only [body, List.mem_append] at member
  rcases member with blank | column | letter | operand | blank
  · exact .inr (gap_of_blanks layout.indented char blank)
  · cases found : layout.column with
    | none => simp [found, columnText] at column
    | some part =>
        rw [found, columnText, List.mem_append] at column
        exact spaced part char column
  · exact .inl (is_alphanum_of_name layout.named char letter)
  · exact operands layout.operands char operand
  · exact .inr (gap_of_blanks layout.trailed char blank)

theorem not_mem_body (layout : Layout) {other : Char} (solid : other.isAlphanum = false)
    (gap : isGap other = false) : other ∉ layout.body := by
  intro member
  rcases layout.solid_or_gap other member with kind | kind
  · rw [solid] at kind
    contradiction
  · rw [gap] at kind
    contradiction

theorem name_nonempty (layout : Layout) : layout.name ≠ [] := by
  obtain ⟨first, rest, same, _⟩ := layout.named
  rw [same]
  exact List.cons_ne_nil first rest

theorem words_body (layout : Layout) :
    words layout.body = (layout.column.map Spaced.digits).toList ++
      layout.name :: layout.operands.map Spaced.digits := by
  have named := words_operands layout.name_nonempty (is_alphanum_of_name layout.named)
    layout.operands layout.trailed
  rw [body, words_blanks_append layout.indented]
  cases layout.column with
  | none => exact named
  | some column =>
      have digits : ∀ char ∈ column.digits, isGap char = false := by
        intro char member
        exact is_gap_of_alphanum (is_alphanum_of_digit (column.numeral.2 char member))
      have ended := head_of_run column.apart (gap_of_blanks column.blank)
      rw [columnText, List.append_assoc, words_cons column.numeral.1 digits (ended _),
        words_blanks_append column.blank, named]
      rfl

theorem read_words_body (layout : Layout) :
    readWords (words layout.body) =
      (instruction? (layout.name :: layout.operands.map Spaced.digits)).getD .malformed := by
  rw [words_body]
  cases layout.column with
  | none =>
      have letters : Text.Decimal.isNumeral layout.name = false := by
        obtain ⟨first, rest, same, letter, _⟩ := layout.named
        simp [same, Text.Decimal.isNumeral, not_digit_of_letter letter]
      simp [readWords, letters]
  | some column => simp [readWords, is_numeral_iff.mpr column.numeral]

/-- A line reads as what its layout says. -/
theorem read_text (layout : Layout) (fits : layout.Fits) :
    Line.read layout.text = .instruction (String.ofList layout.name) layout.values := by
  have small : ∀ operand ∈ layout.operands,
      Nat.ofDigitChars 10 operand.digits 0 < UInt64.size := by
    simpa [Fits, figures] using fits
  have read : (layout.operands.map Spaced.digits).mapM operand? = some layout.values := by
    refine operands_iff.mpr ⟨small, ?_⟩
    rw [values, figures, List.map_map]
    rfl
  have statement := instruction_iff.mpr ⟨_, _, _, rfl, layout.named, read, rfl⟩
  rw [text, read_parts (layout.not_mem_body rfl rfl), if_neg (unbroken_iff.mpr layout.unbroken),
    read_words_body, statement, Option.getD_some]

end Layout

/-- The words of an operation leave no choice but where the blanks are, and the text has these. -/
theorem layout_of_words {text name : List Char} {column : Option (List Char)}
    {operands : List (List Char)} {values : List Operand} {comment : Option (List Char)}
    (found : words text = column.toList ++ name :: operands)
    (numeral : ∀ digits ∈ column, Numeral digits) (named : Name name)
    (read : operands.mapM operand? = some values) (unbroken : ∀ remark ∈ comment, '\r' ∉ remark) :
    ∃ layout : Layout, layout.text = text ++ commentText comment ∧ layout.Fits := by
  have tail {behind : List Char} (others : words behind = operands)
      (start : ∀ char ∈ behind.head?, isGap char = true) :
      ∃ spaced trail, behind = operandsText spaced ++ trail ∧ Blanks trail ∧
        ∀ operand ∈ spaced, Nat.ofDigitChars 10 operand.digits 0 < UInt64.size := by
    obtain ⟨spaced, trail, same, trailed, rfl⟩ :=
      operands_of_words others (numerals_of_operands read) start
    exact ⟨spaced, trail, same, trailed, (operands_iff.mp read).1⟩
  cases column with
  | none =>
      obtain ⟨indent, behind, rfl, indented, others, start, _⟩ := first_word found
      obtain ⟨spaced, trail, rfl, trailed, small⟩ := tail others start
      exact ⟨⟨indent, none, name, spaced, trail, comment, indented, named, trailed, unbroken⟩,
        rfl, by simpa [Layout.Fits, Layout.figures] using small⟩
  | some digits =>
      obtain ⟨indent, rest, rfl, indented, behind_column, ended, _⟩ := first_word found
      obtain ⟨gap, behind, rfl, blank, others, start, apart⟩ := first_word behind_column
      obtain ⟨spaced, trail, rfl, trailed, small⟩ := tail others start
      refine ⟨⟨indent, some ⟨digits, gap, numeral digits rfl, blank, apart ended⟩, name, spaced,
        trail, comment, indented, named, trailed, unbroken⟩, ?_, ?_⟩
      · simp only [Layout.text, Layout.body, columnText, List.append_assoc]
      · simpa [Layout.Fits, Layout.figures] using small

theorem layout_of_read {line : List Char} {name : String} {operands : List Operand}
    (read : Line.read line = .instruction name operands) :
    ∃ layout : Layout, layout.text = line ∧ layout.Fits := by
  obtain ⟨body, comment, rfl, absent⟩ := split_comment line
  rw [read_parts absent] at read
  split_ifs at read with broken
  obtain ⟨column, word, digits, found, numeral, named, each⟩ := read_words_instruction read
  exact layout_of_words found numeral named each (unbroken_iff.mp broken)

theorem read_blank_iff {line : List Char} : Line.read line = .blank ↔ BlankLine line := by
  constructor
  · intro read
    obtain ⟨body, comment, rfl, absent⟩ := split_comment line
    rw [read_parts absent] at read
    split_ifs at read with broken
    have wordless := read_words_blank_iff.mp read
    exact ⟨body, comment, rfl, blanks_of_words wordless, unbroken_iff.mp broken⟩
  · intro blank
    obtain ⟨indent, comment, rfl, indented, unbroken⟩ := blank
    have absent : '#' ∉ indent := by
      intro member
      rcases indented '#' member with same | same <;> cases same
    rw [read_parts absent, if_neg (unbroken_iff.mpr unbroken), words_blanks indented]
    rfl

end Listing

end Opstream
