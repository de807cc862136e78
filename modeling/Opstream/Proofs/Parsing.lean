import Opstream.Proofs.Reading

/-!
Lines read from the left by parsers that take as much as they can. Each of them has one lemma that
says which texts it takes, and how it splits them. Main statement: these parsers read every line of
a listing as `Line.read` does, which cuts the comment off first and then works on words.
-/

namespace Opstream

namespace Text

theorem whole_of_mem_lines {text line : List Char} (member : line ∈ lines text) : '\n' ∉ line := by
  obtain ⟨front, rest, rfl, inside, stop⟩ := run_exists (· != '\n') text
  have whole : '\n' ∉ front := by
    intro feed
    simpa using inside '\n' feed
  cases rest with
  | nil =>
      rw [List.append_nil] at member
      by_cases empty : front = []
      · rw [empty, lines_nil] at member
        exact absurd member List.not_mem_nil
      · rw [lines_unended front whole empty, List.mem_singleton] at member
        exact member ▸ whole
  | cons feed rest =>
      have same : feed = '\n' := by simpa using stop feed rfl
      subst same
      rw [lines_cons front rest whole] at member
      rcases List.mem_cons.mp member with rfl | below
      · rw [dropReturn]
        split_ifs
        · exact fun feed => whole ((List.dropLast_subset front) feed)
        · exact whole
      · exact whole_of_mem_lines below
termination_by text.length
decreasing_by grind

end Text

namespace Listing

/-- Takes its value from the front of a text and leaves the rest, or refuses the text. -/
abbrev Parser := StateT (List Char) Option

namespace Parser

variable {Value Result : Type}

def run0 (kind : Char → Bool) : Parser (List Char) := fun text =>
  some (text.takeWhile kind, text.dropWhile kind)

def run1 (kind : Char → Bool) : Parser (List Char) := fun text =>
  if text.takeWhile kind = [] then none
  else some (text.takeWhile kind, text.dropWhile kind)

/-- The text that a parser takes, in place of its value. -/
def recognize (parser : Parser Value) : Parser (List Char) := fun text =>
  (parser.run text).map fun (_, rest) => (text.take (text.length - rest.length), rest)

/-- A refusal is no value, and then nothing is taken. -/
def opt (parser : Parser Value) : Parser (Option Value) := fun text =>
  match parser.run text with
  | some (value, rest) => some (some value, rest)
  | none => some (none, text)

def mapResult (parser : Parser Value) (convert : Value → Option Result) : Parser Result := do
  let value ← parser
  convert value

/-- As many values as there are. A value that takes nothing would never end, so it is refused. -/
def many0 (parser : Parser Value) (text : List Char) : Option (List Value × List Char) :=
  match parser.run text with
  | none => some ([], text)
  | some (value, rest) =>
      if rest.length < text.length then
        (many0 parser rest).map fun (values, rest) => (value :: values, rest)
      else none
termination_by text.length

def tag (mark : Char) : Parser Char
  | [] => none
  | char :: rest => if char = mark then some (char, rest) else none

def insideLine (char : Char) : Bool := char ≠ '\r' ∧ char ≠ '\n'

/-- The end of a line stays in the rest. A carriage return that no line feed follows ends no line
and is refused. -/
def notLineEnding : Parser (List Char) := fun text =>
  let ending := text.dropWhile insideLine
  if ending.head? = some '\r' ∧ ¬ ['\r', '\n'] <+: ending then none
  else some (text.takeWhile insideLine, ending)

def allConsuming (parser : Parser Value) (text : List Char) : Option Value :=
  match parser.run text with
  | some (value, []) => some value
  | _ => none

def comment : Parser (List Char) := do
  let _ ← tag '#'
  notLineEnding

def offset : Parser (List Char) := do
  let digits ← run1 Char.isDigit
  let _ ← run1 isGap
  pure digits

def nameParts : Parser (List Char) := do
  let _ ← run1 Char.isAlpha
  run0 Char.isAlphanum

def name : Parser (List Char) := recognize nameParts

def operand : Parser Operand := mapResult (run1 Char.isDigit) operand?

def argument : Parser Operand := do
  let _ ← run1 isGap
  operand

def blank : Parser Unit := do
  let _ ← run0 isGap
  let _ ← opt comment

def instruction : Parser (List Char × List Operand) := do
  let _ ← run0 isGap
  let _ ← opt offset
  let name ← name
  let operands ← many0 argument
  blank
  pure (name, operands)

end Parser

/-- A line that is no instruction may still be a blank one. -/
def parseLine (text : List Char) : Line :=
  match Parser.instruction.allConsuming text with
  | some (name, operands) => .instruction (String.ofList name) operands
  | none =>
      match Parser.blank.allConsuming text with
      | some () => .blank
      | none => .malformed

namespace Parser

section Combinators

variable {Value Result : Type} {text rest : List Char}

theorem run0_iff {kind : Char → Bool} {run : List Char} :
    (run0 kind).run text = some (run, rest) ↔ text = run ++ rest ∧
      (∀ char ∈ run, kind char = true) ∧ ∀ char ∈ rest.head?, kind char = false := by
  constructor
  · intro taken
    obtain ⟨front, behind, rfl, inside, stop⟩ := run_exists kind text
    change some (_, _) = _ at taken
    rw [take_run inside stop, drop_run inside stop] at taken
    cases taken
    exact ⟨rfl, inside, stop⟩
  · intro split
    obtain ⟨rfl, inside, stop⟩ := split
    change some (_, _) = _
    rw [take_run inside stop, drop_run inside stop]

theorem run1_iff {kind : Char → Bool} {run : List Char} :
    (run1 kind).run text = some (run, rest) ↔ text = run ++ rest ∧ run ≠ [] ∧
      (∀ char ∈ run, kind char = true) ∧ ∀ char ∈ rest.head?, kind char = false := by
  have taken : (run1 kind).run text = some (run, rest) ↔
      (run0 kind).run text = some (run, rest) ∧ run ≠ [] := by
    change (if _ then none else some (_, _)) = _ ↔ some (_, _) = _ ∧ _
    split_ifs with empty
    · simp +contextual [empty, eq_comm]
    · constructor
      · intro same
        cases same
        exact ⟨rfl, empty⟩
      · exact And.left
  simp only [taken, run0_iff, and_left_comm, and_comm]

theorem tag_iff {mark char : Char} :
    (tag mark).run text = some (char, rest) ↔ char = mark ∧ text = mark :: rest := by
  cases text with
  | nil => simp [tag, StateT.run]
  | cons first text =>
      change (if first = mark then some (first, text) else none) = _ ↔ _
      split_ifs with same
      · subst same
        simp [eq_comm]
      · simp [same]

theorem opt_iff {parser : Parser Value} {value : Option Value} :
    (opt parser).run text = some (value, rest) ↔
      (∃ found, value = some found ∧ parser.run text = some (found, rest)) ∨
        value = none ∧ parser.run text = none ∧ rest = text := by
  change (match parser.run text with
    | some (value, rest) => some (some value, rest)
    | none => some (none, text)) = _ ↔ _
  cases parser.run text with
  | none => simp [eq_comm]
  | some taken =>
      constructor
      · intro same
        cases same
        exact .inl ⟨_, rfl, rfl⟩
      · rintro (⟨_, rfl, same⟩ | ⟨_, impossible, _⟩)
        · cases same
          rfl
        · cases impossible

theorem bind_iff {first : Parser Value} {second : Value → Parser Result} {result : Result} :
    (first >>= second).run text = some (result, rest) ↔
      ∃ value behind, first.run text = some (value, behind) ∧
        (second value).run behind = some (result, rest) := by
  rw [StateT.run_bind, Option.bind_eq_bind, Option.bind_eq_some_iff]
  constructor
  · rintro ⟨⟨value, behind⟩, taken, others⟩
    exact ⟨value, behind, taken, others⟩
  · rintro ⟨value, behind, taken, others⟩
    exact ⟨(value, behind), taken, others⟩

theorem recognize_iff {parser : Parser Value} {front : List Char}
    (consumes : ∀ {value behind}, parser.run text = some (value, behind) →
      ∃ taken, text = taken ++ behind) :
    (recognize parser).run text = some (front, rest) ↔
      ∃ value, parser.run text = some (value, rest) ∧ text = front ++ rest := by
  change (parser.run text).map _ = _ ↔ _
  rw [Option.map_eq_some_iff]
  constructor
  · rintro ⟨⟨value, behind⟩, found, same⟩
    obtain ⟨taken, rfl⟩ := consumes found
    cases same
    exact ⟨value, found, by simp⟩
  · rintro ⟨value, found, rfl⟩
    exact ⟨_, found, by simp⟩

theorem map_result_iff {parser : Parser Value} {convert : Value → Option Result}
    {result : Result} :
    (mapResult parser convert).run text = some (result, rest) ↔
      ∃ value, parser.run text = some (value, rest) ∧ convert value = some result := by
  have lifted (value : Value) (behind : List Char) :
      StateT.run (convert value : Parser Result) behind =
        (convert value).map fun result => (result, behind) := by
    change (convert value).bind (fun result => some (result, behind)) = _
    cases convert value <;> rfl
  rw [mapResult, bind_iff]
  simp only [lifted, Option.map_eq_some_iff]
  constructor
  · rintro ⟨value, _, taken, _, converted, same⟩
    cases same
    exact ⟨value, taken, converted⟩
  · rintro ⟨value, taken, converted⟩
    exact ⟨value, rest, taken, result, converted, rfl⟩

theorem all_consuming_iff {parser : Parser Value} {value : Value} :
    parser.allConsuming text = some value ↔ parser.run text = some (value, []) := by
  rw [allConsuming]
  split
  case h_1 value taken => simp [taken]
  case h_2 unfinished =>
    simp only [reduceCtorEq, false_iff]
    exact unfinished _

end Combinators

section Parts

variable {text rest : List Char}

theorem gap_taken {gap : List Char} :
    (run1 isGap).run text = some (gap, rest) ↔ text = gap ++ rest ∧ gap ≠ [] ∧ Blanks gap ∧
      ∀ char ∈ rest.head?, isGap char = false := by
  simp only [run1_iff, Blanks, is_gap_iff]

theorem digits_taken {digits : List Char} :
    (run1 Char.isDigit).run text = some (digits, rest) ↔ text = digits ++ rest ∧ Numeral digits ∧
      ∀ char ∈ rest.head?, char.isDigit = false := by
  rw [run1_iff, Numeral, and_assoc]

theorem offset_iff {digits : List Char} :
    offset.run text = some (digits, rest) ↔ ∃ column : Spaced, digits = column.digits ∧
      text = column.digits ++ (column.gap ++ rest) ∧ ∀ char ∈ rest.head?, isGap char = false := by
  rw [offset, bind_iff]
  simp only [bind_iff, digits_taken, gap_taken]
  constructor
  · rintro ⟨_, _, ⟨rfl, numeral, _⟩, gap, _, ⟨rfl, apart, blank, stop⟩, same⟩
    cases same
    exact ⟨⟨digits, gap, numeral, blank, apart⟩, rfl, rfl, stop⟩
  · rintro ⟨column, rfl, rfl, stop⟩
    exact ⟨_, _, ⟨rfl, column.numeral, column.no_digit_in_gap rest⟩, _, _,
      ⟨rfl, column.apart, column.blank, stop⟩, rfl⟩

theorem name_split {word : List Char} :
    Name word ↔ ∃ letters others, word = letters ++ others ∧ letters ≠ [] ∧
      (∀ char ∈ letters, char.isAlpha = true) ∧ (∀ char ∈ others.head?, char.isAlpha = false) ∧
      ∀ char ∈ others, char.isAlphanum = true := by
  constructor
  · intro named
    have solid := is_alphanum_of_name named
    obtain ⟨letters, others, rfl, letter, stop⟩ := run_exists Char.isAlpha word
    refine ⟨letters, others, rfl, ?_, letter, stop, ?_⟩
    · rintro rfl
      obtain ⟨first, rest, rfl, alpha, _⟩ := named
      rw [stop first rfl] at alpha
      exact absurd alpha Bool.false_ne_true
    · intro char member
      exact solid char (List.mem_append_right _ member)
  · rintro ⟨letters, others, rfl, nonempty, letter, _, solid⟩
    cases letters with
    | nil => contradiction
    | cons first letters =>
        refine ⟨first, letters ++ others, rfl, letter first (List.mem_cons_self ..), ?_⟩
        intro char member
        rcases List.mem_append.mp member with member | member
        · exact alphanum_of_letter (letter char (List.mem_cons_of_mem _ member))
        · exact solid char member

theorem name_parts_iff {others : List Char} :
    nameParts.run text = some (others, rest) ↔
      ∃ letters, text = letters ++ (others ++ rest) ∧ letters ≠ [] ∧
        (∀ char ∈ letters, char.isAlpha = true) ∧
        (∀ char ∈ (others ++ rest).head?, char.isAlpha = false) ∧
        (∀ char ∈ others, char.isAlphanum = true) ∧
        ∀ char ∈ rest.head?, char.isAlphanum = false := by
  simp only [nameParts, bind_iff, run1_iff, run0_iff]
  constructor
  · rintro ⟨letters, _, ⟨rfl, nonempty, letter, stop⟩, rfl, solid, ended⟩
    exact ⟨letters, rfl, nonempty, letter, stop, solid, ended⟩
  · rintro ⟨letters, rfl, nonempty, letter, stop, solid, ended⟩
    exact ⟨letters, _, ⟨rfl, nonempty, letter, stop⟩, rfl, solid, ended⟩

theorem name_iff {word : List Char} :
    name.run text = some (word, rest) ↔ text = word ++ rest ∧ Name word ∧
      ∀ char ∈ rest.head?, char.isAlphanum = false := by
  rw [name, recognize_iff, name_split]
  · constructor
    · rintro ⟨others, found, split⟩
      obtain ⟨letters, same, nonempty, letter, stop, solid, ended⟩ := name_parts_iff.mp found
      have whole : word = letters ++ others := by
        rw [split, ← List.append_assoc] at same
        exact List.append_cancel_right same
      refine ⟨split, ⟨letters, others, whole, nonempty, letter, ?_, solid⟩, ended⟩
      intro char head
      apply stop char
      cases others with
      | nil => cases head
      | cons first others => exact head
    · rintro ⟨rfl, ⟨letters, others, rfl, nonempty, letter, stop, solid⟩, ended⟩
      have stopped : ∀ char ∈ (others ++ rest).head?, char.isAlpha = false := by
        intro char head
        cases others with
        | nil =>
            have odd := ended char head
            rw [Char.isAlphanum, Bool.or_eq_false_iff] at odd
            exact odd.1
        | cons first others => exact stop char head
      refine ⟨others, name_parts_iff.mpr ?_, rfl⟩
      exact ⟨letters, List.append_assoc .., nonempty, letter, stopped, solid, ended⟩
  · intro others behind found
    obtain ⟨letters, split, _⟩ := name_parts_iff.mp found
    exact ⟨letters ++ others, by rw [split, List.append_assoc]⟩

theorem argument_iff {value : Operand} :
    argument.run text = some (value, rest) ↔ ∃ spaced : Spaced,
      text = spaced.gap ++ (spaced.digits ++ rest) ∧ operand? spaced.digits = some value ∧
      ∀ char ∈ rest.head?, char.isDigit = false := by
  simp only [argument, operand, bind_iff, map_result_iff, gap_taken, digits_taken]
  constructor
  · rintro ⟨gap, _, ⟨rfl, apart, blank, _⟩, digits, ⟨rfl, numeral, ended⟩, small⟩
    exact ⟨⟨digits, gap, numeral, blank, apart⟩, rfl, small, ended⟩
  · rintro ⟨spaced, rfl, small, ended⟩
    exact ⟨_, _, ⟨rfl, spaced.apart, spaced.blank, spaced.no_gap_first rest⟩, _,
      ⟨rfl, spaced.numeral, ended⟩, small⟩

theorem no_argument {trail : List Char} (trailed : Blanks trail) (comment : Option (List Char)) :
    argument.run (trail ++ commentText comment) = none := by
  cases taken : argument.run (trail ++ commentText comment) with
  | none => rfl
  | some found =>
      obtain ⟨spaced, same, _⟩ := argument_iff.mp taken
      obtain ⟨_, remark⟩ := run_unique isGap same (gap_of_blanks trailed)
        (gap_of_blanks spaced.blank) (no_gap_in_comment comment) (spaced.no_gap_first _)
      exact absurd remark (comment_ne_digits comment spaced _)

theorem arguments_taken {operands : List Spaced} {values : List Operand} {trail : List Char}
    (read : (operands.map Spaced.digits).mapM operand? = some values) (trailed : Blanks trail)
    (comment : Option (List Char)) :
    many0 argument (operandsText operands ++ (trail ++ commentText comment)) =
      some (values, trail ++ commentText comment) := by
  induction operands generalizing values with
  | nil =>
      cases read
      rw [operandsText, List.nil_append, many0, no_argument trailed comment]
      rfl
  | cons operand operands induction =>
      simp only [List.map_cons, List.mapM_cons, Option.bind_eq_bind,
        Option.bind_eq_some_iff] at read
      obtain ⟨value, first, others, remaining, same⟩ := read
      cases same
      have taken := argument_iff.mpr
        ⟨operand, rfl, first, no_digit_behind operands trailed comment⟩
      have shorter (rest : List Char) :
          rest.length < (operand.gap ++ (operand.digits ++ rest)).length := by
        have nonempty := List.length_pos_iff.mpr operand.numeral.1
        simp only [List.length_append]
        omega
      rw [operandsText, List.append_assoc, List.append_assoc, many0, taken]
      simp only [if_pos (shorter _), induction remaining]
      rfl

theorem arguments_sound {values : List Operand} (taken : many0 argument text = some (values, rest)) :
    ∃ operands, text = operandsText operands ++ rest ∧
      (operands.map Spaced.digits).mapM operand? = some values := by
  -- The induction follows the rounds, each of which leaves a shorter rest.
  fun_induction many0 argument text generalizing values with
  | case1 text refused =>
      cases taken
      exact ⟨[], rfl, rfl⟩
  | case2 text value behind first shorter induction =>
      obtain ⟨⟨others, _⟩, remaining, same⟩ := Option.map_eq_some_iff.mp taken
      cases same
      obtain ⟨spaced, rfl, small, _⟩ := argument_iff.mp first
      obtain ⟨operands, rfl, read⟩ := induction remaining
      refine ⟨spaced :: operands, by simp only [operandsText, List.append_assoc], ?_⟩
      simp [small, read]
  | case3 text value behind first longer => contradiction

theorem not_line_ending_iff {line : List Char} (whole : '\n' ∉ text) :
    notLineEnding.run text = some (line, rest) ↔ text = line ∧ '\r' ∉ line ∧ rest = [] := by
  obtain ⟨front, ending, rfl, inside, stop⟩ := run_exists insideLine text
  change (if _ ∧ ¬ _ <+: _ then none else some (_, _)) = _ ↔ _
  rw [take_run inside stop, drop_run inside stop]
  have unbroken : '\r' ∉ front := by
    intro member
    simpa [insideLine] using inside '\r' member
  cases ending with
  | nil =>
      rw [if_neg (by simp), List.append_nil]
      constructor
      · intro taken
        cases taken
        exact ⟨rfl, unbroken, rfl⟩
      · rintro ⟨rfl, _, rfl⟩
        rfl
  | cons char ending =>
      have lone : ¬ ['\r', '\n'] <+: char :: ending := by
        intro front_of
        exact whole (List.mem_append_right _ (front_of.subset (by simp)))
      have mark : char = '\r' := by
        by_contra other
        have feed : char = '\n' := by simpa [insideLine, other] using stop char rfl
        exact whole (List.mem_append_right _ (by simp [feed]))
      rw [if_pos ⟨congrArg some mark, lone⟩]
      simp only [reduceCtorEq, false_iff]
      rintro ⟨rfl, clean, _⟩
      exact clean (by simp [mark])

theorem comment_iff {remark : List Char} (whole : '\n' ∉ text) :
    comment.run text = some (remark, rest) ↔ text = '#' :: remark ∧ '\r' ∉ remark ∧ rest = [] := by
  rw [comment, bind_iff]
  simp only [tag_iff]
  constructor
  · rintro ⟨_, behind, ⟨rfl, rfl⟩, found⟩
    have within : '\n' ∉ behind := by
      intro member
      exact whole (List.mem_cons_of_mem _ member)
    obtain ⟨rfl, unbroken, rfl⟩ := (not_line_ending_iff within).mp found
    exact ⟨rfl, unbroken, rfl⟩
  · rintro ⟨rfl, unbroken, rfl⟩
    have within : '\n' ∉ remark := by
      intro member
      exact whole (List.mem_cons_of_mem _ member)
    exact ⟨'#', remark, ⟨rfl, rfl⟩, (not_line_ending_iff within).mpr ⟨rfl, unbroken, rfl⟩⟩

theorem blank_iff (whole : '\n' ∉ text) : blank.run text = some ((), []) ↔ BlankLine text := by
  rw [blank, bind_iff]
  simp only [bind_iff, run0_iff, opt_iff]
  constructor
  · rintro ⟨indent, behind, ⟨rfl, inside, _⟩, remark, left, found, same⟩
    cases same
    have indented : Blanks indent := fun char member => is_gap_iff.mp (inside char member)
    rcases found with ⟨remark, rfl, found⟩ | ⟨rfl, _, rfl⟩
    · have within := fun member => whole (List.mem_append_right indent member)
      obtain ⟨rfl, clean, _⟩ := (comment_iff within).mp found
      exact ⟨indent, some remark, rfl, indented, by simpa using clean⟩
    · exact ⟨indent, none, rfl, indented, by simp⟩
  · rintro ⟨indent, remark, rfl, indented, clean⟩
    refine ⟨indent, _, ⟨rfl, gap_of_blanks indented, no_gap_in_comment remark⟩, remark, [], ?_, rfl⟩
    cases remark with
    | none => exact .inr ⟨rfl, rfl, rfl⟩
    | some remark =>
        have within := fun member => whole (List.mem_append_right indent member)
        exact .inl ⟨remark, rfl, (comment_iff within).mpr ⟨rfl, clean remark rfl, rfl⟩⟩

theorem offset_refused {word : List Char} (named : Name word) :
    offset.run (word ++ rest) = none := by
  cases taken : offset.run (word ++ rest) with
  | none => rfl
  | some found =>
      obtain ⟨column, _, same, _⟩ := offset_iff.mp taken
      exact absurd same (name_ne_digits named rest column _)

theorem column_taken (column : Option Spaced) {word : List Char} (named : Name word) :
    (opt offset).run (columnText column ++ (word ++ rest)) =
      some (column.map Spaced.digits, word ++ rest) := by
  rw [opt_iff]
  cases column with
  | none =>
      rw [columnText, List.nil_append]
      exact .inr ⟨rfl, offset_refused named, rfl⟩
  | some column =>
      refine .inl ⟨column.digits, rfl, offset_iff.mpr ⟨column, rfl, ?_, no_gap_in_name named rest⟩⟩
      rw [columnText, List.append_assoc]

theorem column_sound {digits : Option (List Char)}
    (taken : (opt offset).run text = some (digits, rest)) :
    ∃ column, text = columnText column ++ rest := by
  rcases opt_iff.mp taken with ⟨_, _, found⟩ | ⟨_, _, rfl⟩
  · obtain ⟨column, _, rfl, _⟩ := offset_iff.mp found
    exact ⟨some column, by rw [columnText, List.append_assoc]⟩
  · exact ⟨none, rfl⟩

theorem instruction_taken {layout : Layout} (fits : layout.Fits) (whole : '\n' ∉ layout.text) :
    instruction.run layout.text = some ((layout.name, layout.values), []) := by
  obtain ⟨indent, column, word, operands, trail, remark, indented, named, trailed, clean⟩ := layout
  simp only [Layout.text, Layout.body, List.append_assoc] at whole ⊢
  have front := run0_iff.mpr ⟨rfl, gap_of_blanks indented, no_gap_behind_indent column named
    (operandsText operands ++ (trail ++ commentText remark))⟩
  have letters := name_iff.mpr ⟨rfl, named, no_word_behind operands trailed remark⟩
  have small : ∀ operand ∈ operands, Nat.ofDigitChars 10 operand.digits 0 < UInt64.size := by
    simpa [Layout.Fits, Layout.figures] using fits
  have taken := arguments_taken (operands_iff.mpr ⟨small, rfl⟩) trailed remark
  have within : '\n' ∉ trail ++ commentText remark := by
    simp only [List.mem_append, not_or] at whole ⊢
    exact whole.2.2.2.2
  have ending := (blank_iff within).mpr ⟨trail, remark, rfl, trailed, clean⟩
  simp only [instruction, bind_iff]
  refine ⟨_, _, front, _, _, column_taken column named, _, _, letters, _, _, taken,
    _, _, ending, ?_⟩
  rw [Layout.values, Layout.figures, List.map_map]
  rfl

theorem layout_of_instruction {word : List Char} {operands : List Operand} (whole : '\n' ∉ text)
    (taken : instruction.run text = some ((word, operands), [])) :
    ∃ layout : Layout, layout.text = text ∧ layout.Fits := by
  simp only [instruction, bind_iff, run0_iff, name_iff] at taken
  obtain ⟨indent, _, ⟨rfl, inside, _⟩, _, _, front, word, _, ⟨rfl, named, _⟩, values, behind, read,
    _, _, last, same⟩ := taken
  cases same
  obtain ⟨column, rfl⟩ := column_sound front
  obtain ⟨operands, rfl, small⟩ := arguments_sound read
  have within : '\n' ∉ behind := by
    simp only [List.mem_append, not_or] at whole
    exact whole.2.2.2.2
  obtain ⟨trail, remark, rfl, trailed, clean⟩ := (blank_iff within).mp last
  have indented : Blanks indent := fun char member => is_gap_iff.mp (inside char member)
  refine ⟨⟨indent, column, word, operands, trail, remark, indented, named, trailed, clean⟩, ?_, ?_⟩
  · simp only [Layout.text, Layout.body, List.append_assoc]
  · simpa [Layout.Fits, Layout.figures] using (operands_iff.mp small).1

end Parts

end Parser

theorem parse_line_eq_read {line : List Char} (whole : '\n' ∉ line) :
    parseLine line = Line.read line := by
  rw [parseLine]
  -- Whether there is a layout decides both ways of reading, and which one it is does not matter.
  by_cases laid : ∃ layout : Layout, layout.text = line ∧ layout.Fits
  · obtain ⟨layout, rfl, fits⟩ := laid
    rw [Parser.all_consuming_iff.mpr (Parser.instruction_taken fits whole), layout.read_text fits]
  · have refused : Parser.instruction.allConsuming line = none := by
      cases taken : Parser.instruction.allConsuming line with
      | none => rfl
      | some parsed =>
          have found := Parser.all_consuming_iff.mp taken
          exact absurd (Parser.layout_of_instruction whole found) laid
    rw [refused]
    cases read : Line.read line with
    | instruction name operands => exact absurd (layout_of_read read) laid
    | blank =>
        have taken := (Parser.blank_iff whole).mpr (read_blank_iff.mp read)
        rw [Parser.all_consuming_iff.mpr taken]
    | malformed =>
        cases taken : Parser.blank.allConsuming line with
        | none => rfl
        | some value =>
            have found := (Parser.blank_iff whole).mp (Parser.all_consuming_iff.mp taken)
            rw [read_blank_iff.mpr found] at read
            contradiction

/-- No line of a text holds a line feed, so all lines of a listing are read alike. -/
theorem lines_parsed (text : String) :
    (Text.lines text.toList).map parseLine = (Text.lines text.toList).map Line.read := by
  apply List.map_congr_left
  intro line member
  exact parse_line_eq_read (Text.whole_of_mem_lines member)

/-- Without the hypothesis a comment could go on behind a line feed. -/
example : parseLine ['#', '\n', '#'] = .malformed ∧ Line.read ['#', '\n', '#'] = .blank := by
  decide

end Listing

end Opstream
