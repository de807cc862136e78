import Opstream.Proofs.Listing
import Opstream.Proofs.Written

/-!
Listings one under the other. Main statement: a listing whose last line is ended means the same
with anything behind it, and what is behind it means the same but for its line numbers, so the
two assemble one after the other and the first line that cannot be assembled is reported.
-/

namespace Opstream

namespace Text

/-- Nothing stands behind the last line feed. -/
def Ended (text : List Char) : Prop := ∀ last ∈ text.getLast?, last = '\n'

-- Named, since a search may find the instance that tries every character there is.
instance (text : List Char) : Decidable (Ended text) :=
  Option.decidableForallMem text.getLast?

theorem lines_of_ended {text : List Char} (ended : Ended text) :
    ∃ lines : List (List Char), (text = lines.flatMap fun line => line ++ ['\n']) ∧
      ∀ line ∈ lines, '\n' ∉ line := by
  induction text with
  | nil => exact ⟨[], rfl, by simp⟩
  | cons char rest induction =>
      cases rest with
      | nil =>
          have feed : char = '\n' := ended char rfl
          exact ⟨[[]], by simp [feed], by simp⟩
      | cons next rest =>
          obtain ⟨lines, same, whole⟩ := induction ended
          by_cases feed : char = '\n'
          · exact ⟨[] :: lines, by simp [feed, same], by simpa using whole⟩
          · cases lines with
            | nil => cases same
            | cons line lines =>
                refine ⟨(char :: line) :: lines, by simp [same], ?_⟩
                simpa [Ne.symm feed] using whole

theorem lines_append {upper : List Char} (ended : Ended upper) (lower : List Char) :
    lines (upper ++ lower) = lines upper ++ lines lower := by
  obtain ⟨pieces, rfl, whole⟩ := lines_of_ended ended
  rw [lines_ended_append pieces whole, lines_ended pieces whole]

theorem length_lines {text : List Char} (ended : Ended text) :
    (lines text).length = text.count '\n' := by
  obtain ⟨pieces, rfl, whole⟩ := lines_of_ended ended
  rw [lines_ended pieces whole, List.length_map]
  clear ended
  induction pieces with
  | nil => rfl
  | cons line pieces induction =>
      have rest := induction (by intro other member; exact whole other (by simp [member]))
      have unbroken := List.count_eq_zero_of_not_mem (whole line (by simp))
      simp only [List.flatMap_cons, List.count_append, List.count_singleton_self, unbroken, ← rest,
        List.length_cons]
      omega

end Text

def ListingError.below (above : Nat) (error : ListingError) : ListingError :=
  { error with line := error.line + above }

def Listing.Numbered.below (above : Nat) (numbered : Numbered) : Numbered :=
  { numbered with line := numbered.line + above }

namespace Table

theorem statements_from_cons (table : Table) (first : Nat) (line : List Char)
    (lines : List (List Char)) :
    table.statementsFrom first (line :: lines) =
      ((table.statement? line).map (Listing.Numbered.mk first)).toList ++
        table.statementsFrom (first + 1) lines := by
  simp only [statementsFrom, List.zipIdx_cons, List.filterMap_cons]
  cases table.statement? line <;> rfl

theorem statements_from_append (table : Table) (first : Nat) (upper lower : List (List Char)) :
    table.statementsFrom first (upper ++ lower) =
      table.statementsFrom first upper ++ table.statementsFrom (first + upper.length) lower := by
  rw [statementsFrom, List.zipIdx_append, List.filterMap_append]
  rfl

theorem statements_from_below (table : Table) (first above : Nat) (lines : List (List Char)) :
    table.statementsFrom (first + above) lines =
      (table.statementsFrom first lines).map (Listing.Numbered.below above) := by
  induction lines generalizing first with
  | nil => rfl
  | cons line lines induction =>
      rw [statements_from_cons, statements_from_cons, Nat.add_right_comm, induction,
        List.map_append]
      cases table.statement? line <;> rfl

theorem mem_statements_iff {table : Table} {text : String} {numbered : Listing.Numbered} :
    numbered ∈ table.statements text ↔
      ∃ index line, (Text.lines text.toList)[index]? = some line ∧
        table.statement? line = some numbered.statement ∧ numbered.line = index + 1 := by
  simp only [statements, statementsFrom, List.mem_filterMap, Prod.exists,
    List.mem_zipIdx_iff_le_and_getElem?_sub, Option.map_eq_some_iff]
  constructor
  · intro found
    obtain ⟨line, number, ⟨counted, here⟩, statement, meant, rfl⟩ := found
    exact ⟨number - 1, line, here, meant, (Nat.sub_add_cancel counted).symm⟩
  · intro found
    obtain ⟨index, line, here, meant, place⟩ := found
    obtain ⟨number, statement⟩ := numbered
    subst place
    exact ⟨line, index + 1, ⟨Nat.le_add_left .., here⟩, statement, meant, rfl⟩

theorem numbers_sublist (table : Table) (first : Nat) (lines : List (List Char)) :
    ((table.statementsFrom first lines).map Listing.Numbered.line).Sublist
      (List.range' first lines.length) := by
  induction lines generalizing first with
  | nil => exact List.Sublist.refl _
  | cons line lines induction =>
      have rest := induction (first + 1)
      rw [statements_from_cons, List.length_cons, List.range'_succ]
      cases table.statement? line with
      | none => exact rest.cons first
      | some statement => exact rest.cons_cons first

/-- What a line adds to the bytes of its listing, or why it cannot be assembled. -/
def encodeLine (table : Table) (line : List Char) : Except Listing.Cause (List UInt8) :=
  match table.statement? line with
  | none => .ok []
  | some statement => statement.encode table

def encodeLines (table : Table) : Nat → List (List Char) → Except ListingError (List UInt8)
  | _, [] => .ok []
  | first, line :: lines => do
      let bytes ← (table.encodeLine line).mapError (ListingError.mk first)
      let rest ← table.encodeLines (first + 1) lines
      .ok (bytes ++ rest)

theorem encode_statements_from (table : Table) (first : Nat) (lines : List (List Char)) :
    (do let pieces ← (table.statementsFrom first lines).mapM (Listing.Numbered.encode table)
        .ok pieces.flatten) = table.encodeLines first lines := by
  induction lines generalizing first with
  | nil => rfl
  | cons line lines induction =>
      rw [encodeLines, ← induction, statements_from_cons, encodeLine]
      cases table.statement? line with
      | none =>
          simp only [Option.map_none, Option.toList_none, List.nil_append, Except.mapError,
            bind_assoc, ok_bind]
      | some statement =>
          simp only [Option.map_some, Option.toList_some, List.singleton_append, List.mapM_cons,
            Listing.Numbered.encode, bind_assoc, ok_bind, pure_bind, List.flatten_cons]

theorem assemble_eq_encode_lines (table : Table) (text : String) :
    table.assemble text = table.encodeLines 1 (Text.lines text.toList) :=
  table.encode_statements_from 1 (Text.lines text.toList)

theorem encode_lines_append (table : Table) (first : Nat) (upper lower : List (List Char)) :
    table.encodeLines first (upper ++ lower) = (do
      let front ← table.encodeLines first upper
      let back ← table.encodeLines (first + upper.length) lower
      .ok (front ++ back)) := by
  induction upper generalizing first with
  | nil =>
      rw [List.nil_append, encodeLines, List.length_nil, Nat.add_zero]
      cases table.encodeLines first lower <;> rfl
  | cons line upper induction =>
      have next : first + 1 + upper.length = first + (line :: upper).length := by
        rw [List.length_cons, Nat.add_right_comm, Nat.add_assoc]
      rw [List.cons_append, encodeLines, encodeLines, induction, next]
      simp only [bind_assoc, ok_bind, List.append_assoc]

theorem encode_lines_below (table : Table) (first above : Nat) (lines : List (List Char)) :
    table.encodeLines (first + above) lines =
      (table.encodeLines first lines).mapError (ListingError.below above) := by
  induction lines generalizing first with
  | nil => rfl
  | cons line lines induction =>
      rw [encodeLines, encodeLines, Nat.add_right_comm, induction]
      cases table.encodeLine line with
      | error cause => rfl
      | ok bytes => cases table.encodeLines (first + 1) lines <;> rfl

theorem encode_lines_cons_error_iff {table : Table} {first : Nat} {line : List Char}
    {lines : List (List Char)} {error : ListingError} :
    table.encodeLines first (line :: lines) = .error error ↔
      (table.encodeLine line = .error error.cause ∧ error.line = first) ∨
        ∃ bytes, table.encodeLine line = .ok bytes ∧
          table.encodeLines (first + 1) lines = .error error := by
  obtain ⟨number, cause⟩ := error
  simp only [encodeLines, bind_error_iff, map_error_error_iff, map_error_ok_iff,
    ListingError.mk.injEq, reduceCtorEq, and_false, exists_false, or_false]
  apply or_congr_left
  constructor
  · intro refused
    obtain ⟨_, refused, place, rfl⟩ := refused
    exact ⟨refused, place.symm⟩
  · intro refused
    exact ⟨cause, refused.1, refused.2.symm, rfl⟩

/-- What comes behind the first line that cannot be assembled has no part in the answer. -/
theorem encode_lines_error_iff {table : Table} {first : Nat} {lines : List (List Char)}
    {error : ListingError} :
    table.encodeLines first lines = .error error ↔
      ∃ before line after, lines = before ++ line :: after ∧
        (∀ earlier ∈ before, ∃ bytes, table.encodeLine earlier = .ok bytes) ∧
        table.encodeLine line = .error error.cause ∧ error.line = before.length + first := by
  induction lines generalizing first with
  | nil => simp [encodeLines]
  | cons line lines induction =>
      rw [encode_lines_cons_error_iff, induction]
      constructor
      · intro failed
        rcases failed with ⟨refused, place⟩ |
          ⟨bytes, accepted, before, stuck, after, rfl, others, refused, place⟩
        · exact ⟨[], line, lines, rfl, by simp, refused, by simpa using place⟩
        · refine ⟨line :: before, stuck, after, rfl, ?_, refused, ?_⟩
          · exact List.forall_mem_cons.mpr ⟨⟨bytes, accepted⟩, others⟩
          · rw [place, List.length_cons, Nat.add_assoc, Nat.add_comm first]
      · intro failing
        obtain ⟨before, stuck, after, same, accepted, refused, place⟩ := failing
        cases before with
        | nil =>
            cases same
            exact .inl ⟨refused, by simpa using place⟩
        | cons head before =>
            cases same
            obtain ⟨⟨bytes, head_accepted⟩, others⟩ := List.forall_mem_cons.mp accepted
            refine .inr ⟨bytes, head_accepted, before, stuck, after, rfl, others, refused, ?_⟩
            rw [place, List.length_cons, Nat.add_assoc, Nat.add_comm first]

theorem statements_append (table : Table) {upper : String} (ended : Text.Ended upper.toList)
    (lower : String) :
    table.statements (upper ++ lower) = table.statements upper ++
      (table.statements lower).map (Listing.Numbered.below (upper.toList.count '\n')) := by
  simp only [statements, String.toList_append]
  rw [Text.lines_append ended, statements_from_append, Text.length_lines ended,
    statements_from_below]

theorem assemble_append (table : Table) {upper : String} (ended : Text.Ended upper.toList)
    (lower : String) :
    table.assemble (upper ++ lower) = (do
      let front ← table.assemble upper
      let back ← (table.assemble lower).mapError (ListingError.below (upper.toList.count '\n'))
      .ok (front ++ back)) := by
  simp only [assemble_eq_encode_lines, String.toList_append]
  rw [Text.lines_append ended, encode_lines_append, Text.length_lines ended, encode_lines_below]

end Table

/-- The statements of a listing have rising line numbers, each that of the line which means it.
Behind a listing that is empty or ends with a line feed, any other is read as on its own, with as
many lines in front as the first has line feeds: an error of the first listing stays, an error of
the second comes further down, and otherwise the bytes come one after the other. So an error is
always that of the first line that cannot be assembled, for whatever cause and whatever follows. -/
theorem listings_join_at_line_breaks (table : Table) :
    (∀ text : String,
      ((table.statements text).map Listing.Numbered.line).Pairwise (· < ·) ∧
      ∀ numbered, numbered ∈ table.statements text ↔
        ∃ index line, (Text.lines text.toList)[index]? = some line ∧
          table.statement? line = some numbered.statement ∧ numbered.line = index + 1) ∧
    (∀ upper lower : String, Text.Ended upper.toList →
      let above := upper.toList.count '\n'
      table.statements (upper ++ lower) =
        table.statements upper ++ (table.statements lower).map (Listing.Numbered.below above) ∧
      table.assemble (upper ++ lower) =
        match table.assemble upper, table.assemble lower with
        | .error error, _ => .error error
        | .ok _, .error error => .error (error.below above)
        | .ok front, .ok back => .ok (front ++ back)) ∧
    ∀ (text : String) (error : ListingError), table.assemble text = .error error ↔
      ∃ before line after, Text.lines text.toList = before ++ line :: after ∧
        (∀ earlier ∈ before, ∃ bytes, table.encodeLine earlier = .ok bytes) ∧
        table.encodeLine line = .error error.cause ∧ error.line = before.length + 1 := by
  refine ⟨?_, ?_, ?_⟩
  · intro text
    have rising : (List.range' 1 (Text.lines text.toList).length).Pairwise (· < ·) :=
      List.pairwise_lt_range'
    exact ⟨rising.sublist (table.numbers_sublist 1 _), fun _ => Table.mem_statements_iff⟩
  · intro upper lower ended above
    refine ⟨table.statements_append ended lower, ?_⟩
    rw [table.assemble_append ended lower]
    cases table.assemble upper with
    | error error => rfl
    | ok front => cases table.assemble lower <;> rfl
  · intro text error
    rw [Table.assemble_eq_encode_lines, Table.encode_lines_error_iff]

/-- A comment and an empty line count too. The operand is reported, and not the name behind it. -/
theorem oversized_operand_reported_below :
    let upper := "# head\r\n\nOpPop\n"
    let lower := "OpTrue\nOpConstant 65536\nOpNope"
    Text.Ended upper.toList ∧
      Table.standard.statements (upper ++ lower) =
        [⟨3, .instruction ⟨2, []⟩⟩, ⟨4, .instruction ⟨6, []⟩⟩, ⟨5, .instruction ⟨0, [65536]⟩⟩,
          ⟨6, .unknownName "OpNope"⟩] ∧
      Table.standard.assemble (upper ++ lower) =
        .error ⟨5, .encoding (.oversizedOperand 65536 2)⟩ := by
  intro upper lower
  have ended : Text.Ended upper.toList := by decide
  obtain ⟨_, joined, _⟩ := listings_join_at_line_breaks Table.standard
  obtain ⟨statements, assembled⟩ := joined upper lower ended
  have above : Table.standard.assemble upper = .ok [2] := by decide
  have below : Table.standard.assemble lower =
      .error ⟨2, .encoding (.oversizedOperand 65536 2)⟩ := by decide
  rw [above, below] at assembled
  exact ⟨ended, statements.trans (by decide), assembled.trans (by decide)⟩

end Opstream
