import Mathlib.Algebra.GroupWithZero.Nat
import Mathlib.Data.List.Forall2
import Opstream.Text.Ruled

/-!
What a ruled table looks like. Main statement: if every cell is one line of text, then so is every
row, all lines and rules take the same columns, and between the bars of a line stand the cells of
its row with nothing but blanks around them.
-/

namespace Opstream.Text

def Padded (text cell : List Char) : Prop :=
  ∃ left right, cell = List.replicate left ' ' ++ (text ++ List.replicate right ' ')

namespace Padded

variable {text cell : List Char} (padded : Padded text cell)

include padded

theorem indent (count : Nat) : Padded text (List.replicate count ' ' ++ cell) := by
  obtain ⟨left, right, rfl⟩ := padded
  refine ⟨count + left, right, ?_⟩
  rw [List.replicate_add, List.append_assoc]

theorem extend (count : Nat) : Padded text (cell ++ List.replicate count ' ') := by
  obtain ⟨left, right, rfl⟩ := padded
  refine ⟨left, right + count, ?_⟩
  rw [List.replicate_add, List.append_assoc, List.append_assoc]

theorem absent {other : Char} (solid : other ≠ ' ') (missing : other ∉ text) : other ∉ cell := by
  obtain ⟨left, right, rfl⟩ := padded
  simp [solid, missing]

end Padded

theorem display_width_indented (count : Nat) (text : List Char) :
    displayWidth (List.replicate count ' ' ++ text) = count + displayWidth text := by
  induction count with
  | zero => exact (Nat.zero_add _).symm
  | succ count induction =>
      have first := display_width_blank [] (List.replicate count ' ' ++ text)
      have nothing : displayWidth [] = 0 := rfl
      rw [List.replicate_succ, List.cons_append]
      rw [List.nil_append, nothing, induction] at first
      omega

theorem display_width_extended (text : List Char) (count : Nat) :
    displayWidth (text ++ List.replicate count ' ') = displayWidth text + count := by
  have blanks (count : Nat) : displayWidth (List.replicate count ' ') = count := by
    have alone := display_width_indented count []
    rwa [List.append_nil] at alone
  cases count with
  | zero => rw [List.replicate_zero, List.append_nil, Nat.add_zero]
  | succ count =>
      rw [List.replicate_succ, display_width_blank, blanks]
      omega

theorem display_width_cons_blank (text : List Char) :
    displayWidth (' ' :: text) = 1 + displayWidth text := display_width_indented 1 text

theorem display_width_append_blank (text : List Char) :
    displayWidth (text ++ [' ']) = displayWidth text + 1 := display_width_extended text 1

def strokes : List Char := ['─', '│', '┼', '┴']

set_option maxRecDepth 8000 in
theorem Measure.add_stroke {char : Char} (drawn : char ∈ strokes) (finished width : Nat) :
    Measure.add char.toNat ⟨finished, .plain width⟩ = ⟨finished + width, .plain 1⟩ := by
  simp only [strokes, List.mem_cons, List.not_mem_nil, or_false] at drawn
  rcases drawn with rfl | rfl | rfl | rfl <;> rfl

theorem display_width_strokes {text : List Char} (drawn : ∀ char ∈ text, char ∈ strokes) :
    displayWidth text = text.length := by
  have measured : ∃ finished width, Measure.ofText text = ⟨finished, .plain width⟩ ∧
      finished + width = text.length := by
    induction text with
    | nil => exact ⟨0, 0, rfl, rfl⟩
    | cons char rest induction =>
        rw [List.forall_mem_cons] at drawn
        obtain ⟨finished, width, measure, total⟩ := induction drawn.2
        have step : Measure.ofText (char :: rest) = (Measure.ofText rest).add char.toNat := rfl
        refine ⟨finished + width, 1, ?_, by rw [total, List.length_cons]⟩
        rw [step, measure, Measure.add_stroke drawn.1]
  obtain ⟨finished, width, measure, total⟩ := measured
  rw [displayWidth, measure]
  exact total

/-- A text that is one line, is shown as it stands, and has no bar to be mistaken for a rule's. -/
structure Flat (text : List Char) : Prop where
  unbroken : '\n' ∉ text
  unescaped : escape ∉ text
  unbarred : '│' ∉ text

namespace Ruled

theorem cell_lines_flat {cell : String} (flat : Flat cell.toList) :
    cellLines cell = if cell.toList = [] then [] else [cell.toList] := by
  by_cases empty : cell.toList = []
  · rw [if_pos empty, cellLines, empty, lines_nil]
  · rw [if_neg empty, cellLines, lines_unended _ flat.unbroken empty]

theorem cell_width_flat {cell : String} (flat : Flat cell.toList) :
    cellWidth cell = displayWidth cell.toList := by
  rw [cellWidth, cell_lines_flat flat]
  split
  · next empty =>
      rw [empty]
      rfl
  · rw [← shown_width_unescaped _ flat.unescaped]
    exact Nat.zero_max _

theorem cell_text_flat {cell : String} (flat : Flat cell.toList) :
    (cellLines cell).getD 0 [] = cell.toList := by
  rw [cell_lines_flat flat]
  split
  · next empty =>
      rw [empty]
      rfl
  · rfl

theorem row_height_flat {cells : List String} (flat : ∀ cell ∈ cells, Flat cell.toList) :
    ((cells.map cellLines).map List.length).foldl max 1 = 1 := by
  induction cells with
  | nil => rfl
  | cons cell cells induction =>
      rw [List.forall_mem_cons] at flat
      have single : max 1 (cellLines cell).length = 1 := by
        rw [cell_lines_flat flat.1]
        split <;> rfl
      rw [List.map_cons, List.map_cons, List.foldl_cons, single, induction flat.2]

theorem row_lines_flat (layout : List (Side × Nat)) {cells : List String}
    (flat : ∀ cell ∈ cells, Flat cell.toList) :
    rowLines layout cells = rowLine layout (cells.map String.toList) := by
  have texts : (cells.map cellLines).map (fun block => block.getD 0 []) =
      cells.map String.toList := by
    rw [List.map_map]
    apply List.map_congr_left
    intro cell member
    exact cell_text_flat (flat cell member)
  rw [rowLines, row_height_flat flat, List.range_one, List.flatMap_singleton, texts]

theorem fit_padded (side : Side) (width : Nat) (text : List Char) :
    Padded text (fit side width text) := by
  cases side with
  | left => exact ⟨0, width - shownWidth text, rfl⟩
  | right =>
      refine ⟨width - shownWidth text, 0, ?_⟩
      rw [List.replicate_zero, List.append_nil]
      rfl

theorem display_width_fit (side : Side) {width : Nat} {text : List Char} (flat : Flat text)
    (room : displayWidth text ≤ width) : displayWidth (fit side width text) = width := by
  have shown := shown_width_unescaped text flat.unescaped
  cases side with
  | left =>
      change displayWidth (text ++ List.replicate (width - shownWidth text) ' ') = width
      rw [display_width_extended, shown, Nat.add_sub_cancel' room]
  | right =>
      change displayWidth (List.replicate (width - shownWidth text) ' ' ++ text) = width
      rw [display_width_indented, shown, Nat.sub_add_cancel room]

def boxed (fitted : List Char) : List Char := ' ' :: (fitted ++ [' '])

/-- A line of a row behind the blank that it begins with. -/
def barred (fitted : List (List Char)) : List Char :=
  ['│'].intercalate (fitted.map boxed) ++ [' ']

theorem barred_single (text : List Char) : barred [text] = boxed text ++ [' '] := by
  rw [barred, List.map_singleton, List.intercalate_singleton]

theorem barred_cons (text next : List Char) (rest : List (List Char)) :
    barred (text :: next :: rest) = boxed text ++ '│' :: barred (next :: rest) := by
  rw [barred, List.map_cons, List.map_cons, List.intercalate_cons_cons, barred, List.map_cons]
  simp

theorem barred_blank (text : List Char) (rest : List (List Char)) :
    ∃ tail, barred (text :: rest) = ' ' :: tail := by
  cases rest with
  | nil => exact ⟨_, barred_single text⟩
  | cons next rest => exact ⟨_, barred_cons text next rest⟩

theorem display_width_boxed (text : List Char) :
    displayWidth (boxed text) = displayWidth text + 2 := by
  rw [boxed, display_width_cons_blank, display_width_append_blank]
  omega

/-- A cell takes three columns more than its text: two blanks, and the bar behind it or the blank
that ends the line. -/
theorem display_width_barred {fitted : List (List Char)} (some_cell : fitted ≠ []) :
    displayWidth (barred fitted) = (fitted.map fun text => displayWidth text + 3).sum := by
  induction fitted with
  | nil => exact absurd rfl some_cell
  | cons text fitted induction =>
      cases fitted with
      | nil =>
          rw [barred_single, display_width_append_blank, display_width_boxed]
          rfl
      | cons next fitted =>
          -- Blanks stand on both sides of the bar and keep it apart.
          have bar : displayWidth ['│'] = 1 :=
            display_width_strokes (List.forall_mem_singleton.mpr (by decide))
          have later := induction (List.cons_ne_nil _ _)
          obtain ⟨tail, begins⟩ := barred_blank next fitted
          have line : barred (text :: next :: fitted) =
              ' ' :: (text ++ ' ' :: (['│'] ++ ' ' :: tail)) := by
            simp [barred_cons, boxed, begins]
          rw [begins, display_width_cons_blank] at later
          rw [line, display_width_cons_blank, display_width_blank, display_width_blank, bar,
            List.map_cons, List.sum_cons]
          omega

theorem split_barred {texts fitted : List (List Char)} (padded : List.Forall₂ Padded texts fitted)
    (unbarred : ∀ text ∈ texts, '│' ∉ text) (some_cell : texts ≠ []) (count : Nat) :
    List.Forall₂ Padded texts ((List.replicate count ' ' ++ barred fitted).splitOn '│') := by
  induction padded generalizing count with
  | nil => exact absurd rfl some_cell
  | @cons text cell texts fitted first others induction =>
      rw [List.forall_mem_cons] at unbarred
      have box : Padded text (List.replicate count ' ' ++ boxed cell) :=
        ((first.indent 1).extend 1).indent count
      cases others with
      | nil =>
          have last : Padded text (List.replicate count ' ' ++ barred [cell]) := by
            rw [barred_single, ← List.append_assoc]
            exact box.extend 1
          rw [List.splitOn_eq_singleton (last.absent (by decide) unbarred.1)]
          exact .cons last .nil
      | cons second others =>
          rw [barred_cons, ← List.append_assoc, List.splitOn_append_cons_self_of_not_mem
            (box.absent (by decide) unbarred.1)]
          exact .cons box (induction unbarred.2 (List.cons_ne_nil _ _) 0)

theorem absent_barred {other : Char} (solid : other ≠ ' ') (odd : other ≠ '│')
    {fitted : List (List Char)} (missing : ∀ text ∈ fitted, other ∉ text) :
    other ∉ barred fitted := by
  induction fitted with
  | nil => simp [barred, solid]
  | cons text fitted induction =>
      rw [List.forall_mem_cons] at missing
      cases fitted with
      | nil => simp [barred_single, boxed, solid, missing.1]
      | cons next fitted => simp [barred_cons, boxed, solid, odd, missing.1, induction missing.2]

def Fits (layout : List (Side × Nat)) (texts : List (List Char)) : Prop :=
  List.Forall₂ (fun slot text => Flat text ∧ displayWidth text ≤ slot.2) layout texts

def lineWidth (layout : List (Side × Nat)) : Nat := 1 + (layout.map fun slot => slot.2 + 3).sum

def fitted (layout : List (Side × Nat)) (texts : List (List Char)) : List (List Char) :=
  layout.zipWith (fun slot text => fit slot.1 slot.2 text) texts

def rowText (layout : List (Side × Nat)) (texts : List (List Char)) : List Char :=
  ' ' :: barred (fitted layout texts)

theorem row_line_text (layout : List (Side × Nat)) (texts : List (List Char)) :
    rowLine layout texts = rowText layout texts ++ ['\n'] := by
  have boxes : rowLine layout texts =
      [' '] ++ ['│'].intercalate ((fitted layout texts).map boxed) ++ [' ', '\n'] := by
    rw [fitted, List.map_zipWith]
    rfl
  rw [boxes, rowText, barred]
  simp

theorem padded_fitted {layout : List (Side × Nat)} {texts : List (List Char)}
    (fits : Fits layout texts) : List.Forall₂ Padded texts (fitted layout texts) := by
  induction fits with
  | nil => exact .nil
  | cons _ _ induction => exact .cons (fit_padded ..) induction

theorem widths_fitted {layout : List (Side × Nat)} {texts : List (List Char)}
    (fits : Fits layout texts) :
    (fitted layout texts).map displayWidth = layout.map Prod.snd := by
  induction fits with
  | nil => rfl
  | cons slot _ induction =>
      rw [fitted, List.zipWith_cons_cons, List.map_cons, List.map_cons,
        display_width_fit _ slot.1 slot.2]
      exact congrArg _ induction

section Row

variable {layout : List (Side × Nat)} {texts : List (List Char)} (fits : Fits layout texts)

include fits

theorem flat_of_fits : ∀ text ∈ texts, Flat text := by
  induction fits with
  | nil => exact List.forall_mem_nil _
  | cons slot _ induction => exact List.forall_mem_cons.mpr ⟨slot.1, induction⟩

theorem unbroken_row : '\n' ∉ rowText layout texts := by
  have missing : ∀ text ∈ fitted layout texts, '\n' ∉ text := by
    induction fits with
    | nil => exact List.forall_mem_nil _
    | cons slot _ induction =>
        refine List.forall_mem_cons.mpr ⟨?_, induction⟩
        exact (fit_padded ..).absent (by decide) slot.1.unbroken
  rw [rowText, List.mem_cons, not_or]
  exact ⟨by decide, absent_barred (by decide) (by decide) missing⟩

theorem split_row (some_column : layout ≠ []) :
    List.Forall₂ Padded texts ((rowText layout texts).splitOn '│') := by
  have some_cell : texts ≠ [] := by
    rintro rfl
    cases fits
    exact some_column rfl
  have unbarred : ∀ text ∈ texts, '│' ∉ text := by
    intro text member
    exact (flat_of_fits fits text member).unbarred
  exact split_barred (padded_fitted fits) unbarred some_cell 1

theorem display_width_row (some_column : layout ≠ []) :
    displayWidth (rowText layout texts) = lineWidth layout := by
  have columns : (fitted layout texts).map (fun text => displayWidth text + 3) =
      layout.map fun slot => slot.2 + 3 := by
    have widths := congrArg (List.map (· + 3)) (widths_fitted fits)
    rwa [List.map_map, List.map_map] at widths
  have some_cell : fitted layout texts ≠ [] := by
    intro none
    rw [none] at columns
    exact some_column (List.map_eq_nil_iff.mp columns.symm)
  rw [rowText, display_width_cons_blank, display_width_barred some_cell, columns, lineWidth]

end Row

def dashed (junction : Char) (counts : List Nat) : List Char :=
  [junction].intercalate (counts.map fun count => List.replicate count '─')

theorem dashed_single (junction : Char) (count : Nat) :
    dashed junction [count] = List.replicate count '─' := by
  rw [dashed, List.map_singleton, List.intercalate_singleton]

theorem dashed_cons (junction : Char) (count next : Nat) (rest : List Nat) :
    dashed junction (count :: next :: rest) =
      List.replicate count '─' ++ junction :: dashed junction (next :: rest) := by
  rw [dashed, List.map_cons, List.map_cons, List.intercalate_cons_cons, dashed, List.map_cons]
  simp

/-- A rule has a run for every column and a blank at either end. -/
def IsRule (junction : Char) (columns : Nat) (line : List Char) : Prop :=
  ∃ counts : List Nat, counts.length = columns ∧ (∀ count ∈ counts, 0 < count) ∧
    line = [' '] ++ dashed junction counts ++ [' ']

def ruleText (junction : Char) (layout : List (Side × Nat)) : List Char :=
  boxed (dashed junction (layout.map fun slot => slot.2 + 2))

theorem rule_line_text (junction : Char) (layout : List (Side × Nat)) :
    rule junction layout = ruleText junction layout ++ ['\n'] := by
  simp [rule, ruleText, boxed, dashed, Function.comp_def]

theorem is_rule_text (junction : Char) (layout : List (Side × Nat)) :
    IsRule junction layout.length (ruleText junction layout) := by
  refine ⟨layout.map fun slot => slot.2 + 2, List.length_map .., ?_, rfl⟩
  intro count member
  obtain ⟨slot, _, rfl⟩ := List.mem_map.mp member
  exact Nat.succ_pos _

theorem length_dashed (junction : Char) {counts : List Nat} (some_column : counts ≠ []) :
    (dashed junction counts).length + 1 = (counts.map (· + 1)).sum := by
  induction counts with
  | nil => exact absurd rfl some_column
  | cons count counts induction =>
      cases counts with
      | nil => simp [dashed_single]
      | cons next counts =>
          have later := induction (List.cons_ne_nil _ _)
          have first : ((count :: next :: counts).map (· + 1)).sum =
              count + 1 + ((next :: counts).map (· + 1)).sum := List.sum_cons
          rw [first, ← later, dashed_cons, List.length_append, List.length_replicate,
            List.length_cons]
          omega

section Rule

variable {junction : Char} (drawn : junction ∈ strokes)

include drawn

theorem strokes_dashed (counts : List Nat) : ∀ char ∈ dashed junction counts, char ∈ strokes := by
  have dashes (count : Nat) : ∀ char ∈ List.replicate count '─', char ∈ strokes := by
    intro char member
    rw [List.eq_of_mem_replicate member]
    decide
  induction counts with
  | nil => exact List.forall_mem_nil _
  | cons count counts induction =>
      cases counts with
      | nil =>
          rw [dashed_single]
          exact dashes count
      | cons next counts =>
          rw [dashed_cons, List.forall_mem_append, List.forall_mem_cons]
          exact ⟨dashes count, drawn, induction⟩

theorem unbroken_rule (layout : List (Side × Nat)) : '\n' ∉ ruleText junction layout := by
  have inside : '\n' ∉ dashed junction (layout.map fun slot => slot.2 + 2) := by
    intro member
    exact absurd (strokes_dashed drawn _ _ member) (by decide)
  simp [ruleText, boxed, inside]

theorem display_width_rule {layout : List (Side × Nat)} (some_column : layout ≠ []) :
    displayWidth (ruleText junction layout) = lineWidth layout := by
  have some_count : layout.map (fun slot => slot.2 + 2) ≠ [] := by
    rwa [Ne, List.map_eq_nil_iff]
  have length := length_dashed junction some_count
  rw [List.map_map] at length
  change _ = (layout.map fun slot => slot.2 + 3).sum at length
  rw [ruleText, display_width_boxed, display_width_strokes (strokes_dashed drawn _), lineWidth,
    ← length]
  omega

end Rule

theorem forall_le_max {counts first second : List Nat}
    (covered : List.Forall₂ (· ≤ ·) counts first) (same : first.length = second.length) :
    List.Forall₂ (· ≤ ·) counts (first.zipWith max second) := by
  induction covered generalizing second with
  | nil => exact .nil
  | cons below _ induction =>
      obtain ⟨other, second, rfl⟩ := List.exists_cons_of_length_eq_add_one same.symm
      exact .cons (Nat.le_trans below (Nat.le_max_left ..)) (induction (Nat.succ.inj same))

def widest (start : List Nat) (rows : List (List String)) : List Nat :=
  rows.foldl (fun widths row => widths.zipWith max (row.map cellWidth)) start

theorem widest_cons {start : List Nat} {row : List String} (square : row.length = start.length) :
    (start.zipWith max (row.map cellWidth)).length = start.length := by
  rw [List.length_zipWith, List.length_map, square, Nat.min_self]

section Widest

variable {start : List Nat} {rows : List (List String)}
  (square : ∀ row ∈ rows, row.length = start.length)

include square

theorem widest_keeps {counts : List Nat} (covered : List.Forall₂ (· ≤ ·) counts start) :
    List.Forall₂ (· ≤ ·) counts (widest start rows) := by
  induction rows generalizing start with
  | nil => exact covered
  | cons row rows induction =>
      rw [List.forall_mem_cons] at square
      have same : start.length = (row.map cellWidth).length := by rw [List.length_map, square.1]
      have kept := widest_cons square.1
      rw [← kept] at square
      exact induction square.2 (forall_le_max covered same)

theorem length_widest : (widest start rows).length = start.length :=
  (widest_keeps square (List.forall₂_refl start)).length_eq.symm

theorem widest_covers : ∀ row ∈ rows,
    List.Forall₂ (· ≤ ·) (row.map cellWidth) (widest start rows) := by
  induction rows generalizing start with
  | nil => exact List.forall_mem_nil _
  | cons row rows induction =>
      rw [List.forall_mem_cons] at square ⊢
      have same : (row.map cellWidth).length = start.length := by rw [List.length_map, square.1]
      have kept := widest_cons square.1
      have swapped : start.zipWith max (row.map cellWidth) =
          (row.map cellWidth).zipWith max start := List.zipWith_comm_of_comm Nat.max_comm
      rw [← kept] at square
      refine ⟨?_, induction square.2⟩
      apply widest_keeps square.2
      rw [swapped]
      exact forall_le_max (List.forall₂_refl _) same

end Widest

theorem fits_zip {sides : List Side} {widths : List Nat} {cells : List String}
    (same : sides.length = widths.length)
    (covered : List.Forall₂ (· ≤ ·) (cells.map cellWidth) widths)
    (flat : ∀ cell ∈ cells, Flat cell.toList) :
    Fits (sides.zip widths) (cells.map String.toList) := by
  induction cells generalizing sides widths with
  | nil =>
      cases covered
      rw [List.zip_nil_right]
      exact .nil
  | cons cell cells induction =>
      rw [List.forall_mem_cons] at flat
      cases covered with
      | @cons _ width _ widths room covered =>
          obtain ⟨side, sides, rfl⟩ := List.exists_cons_of_length_eq_add_one same
          rw [cell_width_flat flat.1] at room
          exact .cons ⟨flat.1, room⟩ (induction (Nat.succ.inj same) covered flat.2)

/-- A table in which every row has a cell for every column, and every cell is flat. -/
structure Square (table : Ruled) : Prop where
  some_column : table.columns ≠ []
  cells : ∀ row ∈ table.rows, row.length = table.columns.length
  flat : ∀ row ∈ table.titles :: table.rows, ∀ cell ∈ row, Flat cell.toList

def layout (table : Ruled) : List (Side × Nat) := (table.columns.map Column.side).zip table.widths

namespace Square

variable {table : Ruled} (square : table.Square)

include square

theorem rows_square : ∀ row ∈ table.rows, row.length = (table.titles.map cellWidth).length := by
  intro row member
  rw [square.cells row member, List.length_map, titles, List.length_map]

theorem length_widths : table.widths.length = table.columns.length := by
  have length : table.widths.length = (table.titles.map cellWidth).length :=
    length_widest square.rows_square
  rw [length, List.length_map, titles, List.length_map]

theorem length_layout : table.layout.length = table.columns.length := by
  rw [layout, List.length_zip, List.length_map, square.length_widths, Nat.min_self]

theorem layout_nonempty : table.layout ≠ [] := by
  intro none
  have length := square.length_layout
  rw [none] at length
  exact square.some_column (List.length_eq_zero_iff.mp length.symm)

theorem fits_layout :
    ∀ row ∈ table.titles :: table.rows, Fits table.layout (row.map String.toList) := by
  intro row member
  have same : (table.columns.map Column.side).length = table.widths.length := by
    rw [List.length_map, square.length_widths]
  apply fits_zip same _ (square.flat row member)
  rcases List.mem_cons.mp member with rfl | member
  · exact widest_keeps square.rows_square (List.forall₂_refl _)
  · exact widest_covers square.rows_square row member

/-- Every row is one line, between a title line with a rule under it and a rule at the end. -/
theorem render_lines :
    table.render.toList =
      (rowText table.layout (table.titles.map String.toList) :: ruleText '┼' table.layout ::
        (table.rows.map (fun row => rowText table.layout (row.map String.toList)) ++
          [ruleText '┴' table.layout])).flatMap fun line => line ++ ['\n'] := by
  have flat := List.forall_mem_cons.mp square.flat
  have rows : table.rows.flatMap (rowLines table.layout) =
      (table.rows.map fun row => rowText table.layout (row.map String.toList)).flatMap
        fun line => line ++ ['\n'] := by
    rw [List.flatMap_map]
    apply List.flatMap_congr
    intro row member
    rw [row_lines_flat _ (flat.2 row member), row_line_text]
  have drawn : table.render.toList = rowLines table.layout table.titles ++
      rule '┼' table.layout ++ table.rows.flatMap (rowLines table.layout) ++
        rule '┴' table.layout := String.toList_ofList
  rw [drawn, rows, row_lines_flat _ flat.1, row_line_text, rule_line_text, rule_line_text]
  simp

end Square

def HasCells (texts : List (List Char)) (line : List Char) : Prop :=
  List.Forall₂ Padded texts (line.splitOn '│')

end Ruled

/-- A table of flat cells is drawn as a title line, a rule, a line for each row and a closing
rule, all equally wide. -/
theorem ruled_lines {table : Ruled} (square : table.Square) :
    ∃ (title heading closing : List Char) (rows : List (List Char)) (columns : Nat),
      table.render.toList =
        ((title :: heading :: (rows ++ [closing])).flatMap fun line => line ++ ['\n']) ∧
      (∀ line ∈ title :: heading :: (rows ++ [closing]),
        '\n' ∉ line ∧ displayWidth line = columns) ∧
      Ruled.HasCells (table.titles.map String.toList) title ∧
      Ruled.IsRule '┼' table.columns.length heading ∧
      Ruled.IsRule '┴' table.columns.length closing ∧
      List.Forall₂ (fun row line => Ruled.HasCells (row.map String.toList) line)
        table.rows rows := by
  have fits := List.forall_mem_cons.mp square.fits_layout
  have some_column := square.layout_nonempty
  refine ⟨_, _, _, _, Ruled.lineWidth table.layout, square.render_lines, ?_, ?_, ?_, ?_, ?_⟩
  · have row {texts : List (List Char)} (fits : Ruled.Fits table.layout texts) :=
      And.intro (Ruled.unbroken_row fits) (Ruled.display_width_row fits some_column)
    have rule {junction : Char} (drawn : junction ∈ strokes) :=
      And.intro (Ruled.unbroken_rule drawn table.layout)
        (Ruled.display_width_rule drawn some_column)
    refine List.forall_mem_cons.mpr ⟨row fits.1, List.forall_mem_cons.mpr ⟨rule (by decide), ?_⟩⟩
    refine List.forall_mem_append.mpr ⟨?_, List.forall_mem_singleton.mpr (rule (by decide))⟩
    intro line member
    obtain ⟨cells, listed, rfl⟩ := List.mem_map.mp member
    exact row (fits.2 cells listed)
  · exact Ruled.split_row fits.1 some_column
  · rw [← square.length_layout]
    exact Ruled.is_rule_text ..
  · rw [← square.length_layout]
    exact Ruled.is_rule_text ..
  · rw [List.forall₂_map_right_iff, List.forall₂_same]
    intro row member
    exact Ruled.split_row (fits.2 row member) some_column

end Opstream.Text
