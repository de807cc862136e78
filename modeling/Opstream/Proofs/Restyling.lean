import Mathlib.Logic.Relation
import Opstream.Proofs.Joining

/-!
The layout of a listing. Main statement: whatever is done to offsets, blanks, zeros in front of
operands, comments, lines without an operation and the breaks between lines, a listing that
assembles still assembles to the same bytes.
-/

namespace Opstream

namespace Text

theorem drop_return_concat (line : List Char) : dropReturn (line ++ ['\r']) = line := by
  simp [dropReturn]

theorem drop_return_alone {line : List Char} (alone : line.getLast? ≠ some '\r') :
    dropReturn line = line := if_neg alone

theorem split_unended (text : List Char) :
    ∃ front line, text = front ++ line ∧ Ended front ∧ '\n' ∉ line := by
  obtain ⟨run, rest, split, inside, stop⟩ := run_exists (· != '\n') text.reverse
  refine ⟨rest.reverse, run.reverse, ?_, ?_, ?_⟩
  · rw [← List.reverse_append, ← split, List.reverse_reverse]
  · intro last final
    rw [List.getLast?_reverse] at final
    simpa using stop last final
  · intro member
    simpa using inside '\n' (List.mem_reverse.mp member)

end Text

namespace Listing

inductive LineBreak : List Char → Prop where
  | feed : LineBreak ['\n']
  | returned : LineBreak ['\r', '\n']

/-- What may stand behind a line: nothing, or a break and all that follows it. -/
inductive Behind : List Char → Prop where
  | nothing : Behind []
  | lines {ending : List Char} (stop : LineBreak ending) (rest : List Char) :
      Behind (ending ++ rest)

/-- An operand with more zeros in front and any gap. -/
def Spaced.Extended (plain padded : Spaced) : Prop :=
  ∃ zeros, padded.digits = List.replicate zeros '0' ++ plain.digits

/-- The operation stays. All that stands around its name and its operands may differ. -/
structure Layout.Relaid (before after : Layout) : Prop where
  name : after.name = before.name
  operands : List.Forall₂ Spaced.Extended before.operands after.operands

/-- One change to how a listing is laid out. The lines in `front` and those behind stay. -/
inductive Restyle : List Char → List Char → Prop where
  | relay {front behind : List Char} {before after : Layout} (start : Text.Ended front)
      (stop : Behind behind) (whole : '\n' ∉ before.text) (unsplit : '\n' ∉ after.text)
      (relaid : before.Relaid after) :
      Restyle (front ++ (before.text ++ behind)) (front ++ (after.text ++ behind))
  | insert {front line ending : List Char} (start : Text.Ended front) (blank : BlankLine line)
      (whole : '\n' ∉ line) (stop : LineBreak ending) (behind : List Char) :
      Restyle (front ++ behind) (front ++ (line ++ (ending ++ behind)))
  | delete {front line ending : List Char} (start : Text.Ended front) (blank : BlankLine line)
      (whole : '\n' ∉ line) (stop : LineBreak ending) (behind : List Char) :
      Restyle (front ++ (line ++ (ending ++ behind))) (front ++ behind)
  | addReturn {front line : List Char} (start : Text.Ended front) (whole : '\n' ∉ line)
      (alone : line.getLast? ≠ some '\r') (behind : List Char) :
      Restyle (front ++ (line ++ '\n' :: behind)) (front ++ (line ++ '\r' :: '\n' :: behind))
  | dropReturn {front line : List Char} (start : Text.Ended front) (whole : '\n' ∉ line)
      (behind : List Char) :
      Restyle (front ++ (line ++ '\r' :: '\n' :: behind)) (front ++ (line ++ '\n' :: behind))
  | addFeed (text : List Char) : Restyle text (text ++ ['\n'])
  | dropFeed {front line : List Char} (start : Text.Ended front) (whole : '\n' ∉ line)
      (alone : line.getLast? ≠ some '\r') : Restyle (front ++ (line ++ ['\n'])) (front ++ line)

theorem Layout.Relaid.figures {before after : Layout} (relaid : before.Relaid after) :
    after.figures = before.figures := by
  have each := relaid.operands
  rw [Layout.figures, Layout.figures]
  generalize before.operands = plain, after.operands = padded at each
  induction each with
  | nil => rfl
  | cons extended _ induction =>
      obtain ⟨zeros, digits⟩ := extended
      rw [List.map_cons, List.map_cons, induction, digits, Nat.ofDigitChars_append,
        Nat.ofDigitChars_replicate_zero, Nat.mul_zero]

namespace Layout

theorem unreturned (layout : Layout) : '\r' ∉ layout.text := by
  rw [text, List.mem_append, not_or]
  exact ⟨layout.not_mem_body rfl rfl, unbroken_iff.mpr layout.unbroken⟩

theorem read_ne_blank (layout : Layout) : Line.read layout.text ≠ .blank := by
  rw [text, read_parts (layout.not_mem_body rfl rfl), if_neg (unbroken_iff.mpr layout.unbroken),
    Ne, read_words_blank_iff, words_body]
  simp

theorem read_unfit (layout : Layout) (unfit : ¬ layout.Fits) :
    Line.read layout.text = .malformed := by
  cases read : Line.read layout.text with
  | malformed => rfl
  | blank => exact absurd read layout.read_ne_blank
  | instruction name operands =>
      obtain ⟨other, same, fits⟩ := layout_of_read read
      exact absurd (text_injective same ▸ fits) unfit

end Layout

theorem BlankLine.unreturned {line : List Char} (blank : BlankLine line) : '\r' ∉ line := by
  obtain ⟨indent, comment, rfl, indented, unbroken⟩ := blank
  rw [List.mem_append, not_or]
  refine ⟨?_, unbroken_iff.mpr unbroken⟩
  intro member
  rcases indented '\r' member with same | same <;> cases same

end Listing

open Listing

namespace Table

def meanings (table : Table) (text : List Char) : List Statement :=
  (Text.lines text).filterMap table.statement?

def Sound (statements : List Statement) : Prop :=
  ∀ statement ∈ statements, ∃ content, statement = .instruction content

theorem statement_blank (table : Table) {line : List Char} (blank : BlankLine line) :
    table.statement? line = none := by
  simp only [statement?, read_blank_iff.mpr blank]

theorem statement_malformed (table : Table) {line : List Char}
    (read : Line.read line = .malformed) :
    table.statement? line = some (.malformed (String.ofList (Text.trim line))) := by
  simp only [statement?, read]

theorem meanings_append (table : Table) {front : List Char} (start : Text.Ended front)
    (behind : List Char) :
    table.meanings (front ++ behind) = table.meanings front ++ table.meanings behind := by
  rw [meanings, Text.lines_append start, List.filterMap_append]
  rfl

theorem meanings_unended (table : Table) {line : List Char} (whole : '\n' ∉ line) :
    table.meanings line = (table.statement? line).toList := by
  by_cases empty : line = []
  · subst empty
    have blank : BlankLine [] := ⟨[], none, rfl, by simp [Blanks], by simp⟩
    rw [table.statement_blank blank]
    rfl
  · rw [meanings, Text.lines_unended line whole empty, List.filterMap_cons]
    cases table.statement? line <;> rfl

theorem meanings_ended (table : Table) {line : List Char} (whole : '\n' ∉ line)
    (behind : List Char) :
    table.meanings (line ++ '\n' :: behind) =
      (table.statement? (Text.dropReturn line)).toList ++ table.meanings behind := by
  rw [meanings, Text.lines_cons line behind whole, List.filterMap_cons]
  cases table.statement? (Text.dropReturn line) <;> rfl

theorem meanings_returned (table : Table) {line : List Char} (whole : '\n' ∉ line)
    (behind : List Char) :
    table.meanings (line ++ '\r' :: '\n' :: behind) =
      (table.statement? line).toList ++ table.meanings behind := by
  have unsplit : '\n' ∉ line ++ ['\r'] := by simp [whole]
  rw [List.append_cons, table.meanings_ended unsplit, Text.drop_return_concat]

theorem meanings_break (table : Table) {line ending : List Char} (whole : '\n' ∉ line)
    (unreturned : '\r' ∉ line) (stop : LineBreak ending) (behind : List Char) :
    table.meanings (line ++ (ending ++ behind)) =
      (table.statement? line).toList ++ table.meanings behind := by
  cases stop with
  | returned => exact table.meanings_returned whole behind
  | feed =>
      have ended := table.meanings_ended whole behind
      rwa [Text.drop_return_of_absent unreturned] at ended

theorem meanings_behind (table : Table) {behind : List Char} (stop : Behind behind) :
    ∃ rest, ∀ line : List Char, '\n' ∉ line → '\r' ∉ line →
      table.meanings (line ++ behind) = (table.statement? line).toList ++ rest := by
  cases stop with
  | nothing =>
      refine ⟨[], ?_⟩
      intro line whole _
      rw [List.append_nil, List.append_nil]
      exact table.meanings_unended whole
  | lines stop rest =>
      refine ⟨table.meanings rest, ?_⟩
      intro line whole unreturned
      exact table.meanings_break whole unreturned stop rest

theorem Sound.behind {front behind : List Statement} (sound : Sound (front ++ behind)) :
    Sound behind := by
  intro statement member
  exact sound statement (List.mem_append_right front member)

theorem Sound.front {front behind : List Statement} (sound : Sound (front ++ behind)) :
    Sound front := by
  intro statement member
  exact sound statement (List.mem_append_left behind member)

theorem unreturned_of_sound {table : Table} {line : List Char}
    (sound : Sound (table.statement? line).toList) : '\r' ∉ line := by
  cases read : Line.read line with
  | blank => exact (read_blank_iff.mp read).unreturned
  | instruction name operands =>
      obtain ⟨layout, rfl, _⟩ := layout_of_read read
      exact layout.unreturned
  | malformed =>
      rw [table.statement_malformed read] at sound
      obtain ⟨content, same⟩ := sound _ (List.mem_singleton.mpr rfl)
      cases same

theorem statement_relaid {table : Table} {before after : Layout} (relaid : before.Relaid after)
    (sound : Sound (table.statement? before.text).toList) :
    table.statement? after.text = table.statement? before.text := by
  have fits : before.Fits := by
    by_contra unfit
    rw [table.statement_malformed (before.read_unfit unfit)] at sound
    obtain ⟨content, same⟩ := sound _ (List.mem_singleton.mpr rfl)
    cases same
  have still_fits : after.Fits := by
    rw [Layout.Fits, relaid.figures]
    exact fits
  rw [statement?, statement?, before.read_text fits, after.read_text still_fits, Layout.values,
    Layout.values, relaid.figures, relaid.name]

theorem meanings_insert (table : Table) {front line ending : List Char}
    (start : Text.Ended front) (blank : BlankLine line) (whole : '\n' ∉ line)
    (stop : LineBreak ending) (behind : List Char) :
    table.meanings (front ++ (line ++ (ending ++ behind))) = table.meanings (front ++ behind) := by
  rw [table.meanings_append start, table.meanings_append start,
    table.meanings_break whole blank.unreturned stop, table.statement_blank blank]
  rfl

/-- One change of the layout leaves every instruction in its place. -/
theorem meanings_restyle {table : Table} {before after : List Char} (step : Restyle before after)
    (sound : Sound (table.meanings before)) : table.meanings after = table.meanings before := by
  cases step with
  | @relay front behind before after start stop whole unsplit relaid =>
      obtain ⟨rest, meant⟩ := table.meanings_behind stop
      rw [table.meanings_append start, meant _ whole before.unreturned] at sound
      rw [table.meanings_append start, table.meanings_append start,
        meant _ unsplit after.unreturned, meant _ whole before.unreturned,
        statement_relaid relaid sound.behind.front]
  | insert start blank whole stop behind =>
      exact table.meanings_insert start blank whole stop behind
  | delete start blank whole stop behind =>
      exact (table.meanings_insert start blank whole stop behind).symm
  | addReturn start whole alone behind =>
      rw [table.meanings_append start, table.meanings_append start,
        table.meanings_returned whole, table.meanings_ended whole, Text.drop_return_alone alone]
  | dropReturn start whole behind =>
      rw [table.meanings_append start, table.meanings_returned whole] at sound
      rw [table.meanings_append start, table.meanings_append start,
        table.meanings_ended whole, table.meanings_returned whole,
        Text.drop_return_of_absent (unreturned_of_sound sound.behind.front)]
  | addFeed =>
      obtain ⟨front, line, rfl, start, whole⟩ := Text.split_unended before
      rw [table.meanings_append start, table.meanings_unended whole] at sound ⊢
      rw [List.append_assoc, table.meanings_append start, table.meanings_ended whole,
        Text.drop_return_of_absent (unreturned_of_sound sound.behind)]
      exact congrArg _ (List.append_nil _)
  | dropFeed start whole alone =>
      rw [table.meanings_append start, table.meanings_append start, table.meanings_unended whole,
        table.meanings_ended whole, Text.drop_return_alone alone]
      exact congrArg _ (List.append_nil _).symm

theorem sound_instructions (program : List Instruction) :
    Sound (program.map Statement.instruction) := by
  intro statement member
  obtain ⟨content, _, rfl⟩ := List.mem_map.mp member
  exact ⟨content, rfl⟩

theorem meanings_restyles {table : Table} {text edited : List Char} {program : List Instruction}
    (edits : Relation.ReflTransGen Restyle text edited)
    (spelled : table.meanings text = program.map Statement.instruction) :
    table.meanings edited = program.map Statement.instruction := by
  induction edits with
  | refl => exact spelled
  | tail _ step induction =>
      have sound := sound_instructions program
      rw [← induction] at sound
      exact (meanings_restyle step sound).trans induction

end Table

/-- A listing that assembles still assembles to the same bytes after any number of changes to its
layout: other offsets, blanks and comments around an operation, more zeros in front of its operands,
lines without an operation put in or taken out, line feeds with or without a carriage return, and a
last line that is ended or not. It even means the same instructions, in the same order. -/
theorem layout_leaves_code (table : Table) {text edited : String} {code : List UInt8}
    (edits : Relation.ReflTransGen Restyle text.toList edited.toList)
    (assembled : table.assemble text = .ok code) :
    table.assemble edited = .ok code ∧
      ∃ program, table.encodeAll program = .ok code ∧
        ∀ listing ∈ [text, edited],
          table.meanings listing.toList = program.map Statement.instruction := by
  obtain ⟨program, spelled, encoded⟩ := Table.assemble_ok_iff.mp assembled
  have kept := Table.meanings_restyles edits spelled
  refine ⟨Table.assemble_ok_iff.mpr ⟨program, kept, encoded⟩, program, encoded, ?_⟩
  intro listing either
  rcases List.mem_pair.mp either with rfl | rfl
  · exact spelled
  · exact kept

theorem constant_listing_restyled :
    let plain : Layout := {
      indent := []
      column := none
      name := "OpConstant".toList
      operands := [⟨['1'], [' '], by simp [Numeral], by simp [Blanks], by simp⟩]
      trail := []
      comment := none
      indented := by simp [Blanks]
      named := is_name_iff.mp rfl
      trailed := by simp [Blanks]
      unbroken := by simp }
    let spread : Layout := { plain with
      indent := [' ']
      column := some ⟨['0', '7'], ['\t'], by simp [Numeral], by simp [Blanks], by simp⟩
      operands := [⟨['0', '0', '1'], [' ', ' '], by simp [Numeral], by simp [Blanks], by simp⟩]
      comment := some ['x']
      indented := by simp [Blanks]
      unbroken := by simp }
    let text := "OpConstant 1\nOpPop"
    let edited := " 07\tOpConstant  001#x\r\n# note\nOpPop\n"
    plain.Relaid spread ∧ Relation.ReflTransGen Restyle text.toList edited.toList ∧
      Table.standard.assemble text = .ok [0, 0, 1, 2] ∧
      Table.standard.assemble edited = .ok [0, 0, 1, 2] := by
  intro plain spread text edited
  have relaid : plain.Relaid spread := ⟨rfl, .cons ⟨2, rfl⟩ .nil⟩
  have front : Text.Ended [] := by decide
  have note : BlankLine "# note".toList := read_blank_iff.mp (by decide)
  have respaced : Restyle "OpConstant 1\nOpPop".toList " 07\tOpConstant  001#x\nOpPop".toList := by
    have step := Restyle.relay front (.lines .feed "OpPop".toList) (by decide) (by decide) relaid
    have before : plain.text = "OpConstant 1".toList := by decide
    have after : spread.text = " 07\tOpConstant  001#x".toList := by decide
    rw [before, after] at step
    exact step
  have returned : Restyle _ " 07\tOpConstant  001#x\r\nOpPop".toList :=
    @Restyle.addReturn [] " 07\tOpConstant  001#x".toList front (by decide) (by decide)
      "OpPop".toList
  have noted : Restyle _ " 07\tOpConstant  001#x\r\n# note\nOpPop".toList :=
    @Restyle.insert " 07\tOpConstant  001#x\r\n".toList "# note".toList ['\n'] (by decide) note
      (by decide) .feed "OpPop".toList
  have ended : Restyle _ " 07\tOpConstant  001#x\r\n# note\nOpPop\n".toList :=
    .addFeed " 07\tOpConstant  001#x\r\n# note\nOpPop".toList
  have edits : Relation.ReflTransGen Restyle text.toList edited.toList :=
    .tail (.tail (.tail (.single respaced) returned) noted) ended
  have assembled : Table.standard.assemble text = .ok [0, 0, 1, 2] := by decide
  exact ⟨relaid, edits, assembled, (layout_leaves_code Table.standard edits assembled).1⟩

end Opstream
