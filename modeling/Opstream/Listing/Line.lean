import Opstream.Operand
import Opstream.Text

/-!
One line of a listing: an offset that is ignored, the name of an operation, its operands and
a comment behind a number sign, each of them optional except that operands need a name. The
characters of names and numerals are ASCII. The words of a line are its maximal runs of characters
other than space and tab. Blanks separate words and have no other meaning, so their number and kind
cannot be told from the words.
-/

namespace Opstream.Listing

def isGap (char : Char) : Bool := char == ' ' || char == '\t'

def words (line : List Char) : List (List Char) :=
  (line.splitOnP isGap).filter fun word => !word.isEmpty

theorem words_gap_append (left right : List Char) (gap : Char) (blank : isGap gap = true) :
    words (left ++ gap :: right) = words left ++ words right := by
  rw [words, List.splitOnP_append_cons left right blank, List.filter_append]
  rfl

theorem words_single (word : List Char) (solid : ∀ char ∈ word, isGap char = false)
    (nonempty : word ≠ []) : words word = [word] := by
  rw [words, List.splitOnP_eq_singleton solid]
  simp [nonempty]

inductive Line where
  | blank
  | instruction (name : String) (operands : List Operand)
  | malformed
  deriving DecidableEq, Repr

def isName : List Char → Bool
  | [] => false
  | first :: rest => first.isAlpha && rest.all Char.isAlphanum

/-- A numeral beyond the widest operand is no operand, so its line is malformed. -/
def operand? (word : List Char) : Option Operand := do
  let value ← Text.Decimal.read? word
  if value < UInt64.size then some (.ofNat value) else none

def instruction? : List (List Char) → Option Line
  | [] => none
  | name :: operands =>
      if isName name then
        (operands.mapM operand?).map (Line.instruction (String.ofList name))
      else none

/-- Neither a name nor an operand starts with the number sign, so the first one of a line opens
its comment. A carriage return cannot be part of a comment. -/
def Line.read (text : List Char) : Line :=
  let body := text.takeWhile (· ≠ '#')
  let comment := text.dropWhile (· ≠ '#')
  if '\r' ∈ comment then .malformed
  else
    match words body with
    | [] => .blank
    | first :: rest =>
        let statement := if Text.Decimal.isNumeral first then rest else first :: rest
        (instruction? statement).getD .malformed

end Opstream.Listing
