import Opstream.Text
import Opstream.Text.DisplayWidth

/-!
Ruled tables: a title line, a rule, a row of cells after another, and a closing rule. A column is as
wide as its widest line, title included, measured in the terminal columns that show it; a row is as
high as its highest cell. Colour sequences are an escape character, a bracket, and all that follows
up to the letter m. A terminal obeys them and shows nothing of them: the escape character itself
counts as shown, and the other characters of a sequence are columns hidden. Main statement: a text
without an escape character is shown in its display width.
-/

namespace Opstream.Text

/-- What is read next: text, the bracket behind an escape character, or the rest of a sequence. -/
inductive Reading where
  | text
  | bracket
  | sequence
  deriving DecidableEq, Repr

def escape : Char := '\x1b'

def isControl (char : Char) : Bool :=
  char.toNat < 0x20 || (0x7f ≤ char.toNat && char.toNat < 0xa0)

/-- A character without a width of its own hides nothing, and a wide one hides one column. -/
def hiddenColumn (char : Char) : Nat :=
  if isControl char || singleWidth char.toNat = 0 then 0 else 1

def hiddenFrom : Reading → List Char → Nat
  | _, [] => 0
  | .text, char :: rest => hiddenFrom (if char = escape then .bracket else .text) rest
  | .bracket, char :: rest =>
      if char = '[' then 1 + hiddenFrom .sequence rest else hiddenFrom .text rest
  | .sequence, char :: rest =>
      hiddenColumn char + hiddenFrom (if char = 'm' then .text else .sequence) rest

def hiddenColumns (line : List Char) : Nat := hiddenFrom .text line

def shownWidth (line : List Char) : Nat := displayWidth line - hiddenColumns line

theorem hidden_columns_unescaped (line : List Char) (unescaped : escape ∉ line) :
    hiddenColumns line = 0 := by
  induction line with
  | nil => rfl
  | cons char rest ih =>
      rw [List.mem_cons, not_or] at unescaped
      rw [hiddenColumns, hiddenFrom, if_neg (Ne.symm unescaped.1)]
      exact ih unescaped.2

theorem shown_width_unescaped (line : List Char) (unescaped : escape ∉ line) :
    shownWidth line = displayWidth line := by
  rw [shownWidth, hidden_columns_unescaped line unescaped, Nat.sub_zero]

inductive Side where
  | left
  | right
  deriving DecidableEq, Repr

structure Column where
  title : String
  side : Side

/-- Each row has one cell per column. -/
structure Ruled where
  columns : List Column
  rows : List (List String)

namespace Ruled

def cellLines (cell : String) : List (List Char) := lines cell.toList

def cellWidth (cell : String) : Nat := ((cellLines cell).map shownWidth).foldl max 0

def titles (table : Ruled) : List String := table.columns.map Column.title

def widths (table : Ruled) : List Nat :=
  table.rows.foldl (fun widest row => widest.zipWith max (row.map cellWidth))
    (table.titles.map cellWidth)

def fit (side : Side) (width : Nat) (line : List Char) : List Char :=
  let blanks := List.replicate (width - shownWidth line) ' '
  match side with
  | .left => line ++ blanks
  | .right => blanks ++ line

/-- One line of a row. Bars stand between the columns and a blank at either end. -/
def rowLine (layout : List (Side × Nat)) (texts : List (List Char)) : List Char :=
  let cells := layout.zipWith (fun (side, width) text => ' ' :: fit side width text ++ [' ']) texts
  [' '] ++ ['│'].intercalate cells ++ [' ', '\n']

/-- A cell with fewer lines than its row is blank below them. -/
def rowLines (layout : List (Side × Nat)) (cells : List String) : List Char :=
  let blocks := cells.map cellLines
  let height := (blocks.map List.length).foldl max 1
  (List.range height).flatMap fun index =>
    rowLine layout (blocks.map fun block => block.getD index [])

def rule (junction : Char) (layout : List (Side × Nat)) : List Char :=
  let dashes := layout.map fun (_, width) => List.replicate (width + 2) '─'
  [' '] ++ [junction].intercalate dashes ++ [' ', '\n']

def render (table : Ruled) : String :=
  let layout := (table.columns.map Column.side).zip table.widths
  String.ofList (rowLines layout table.titles ++ rule '┼' layout ++
    table.rows.flatMap (rowLines layout) ++ rule '┴' layout)

end Ruled

end Opstream.Text
