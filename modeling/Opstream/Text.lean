/-!
Texts as lists of characters: their lines, the white space at their ends, and numerals in them. A
line feed ends a line and one carriage return just before it goes with it; any other carriage return
belongs to its line. Text behind the last line feed is a line of its own unless it is empty. White
space is meant in the wide sense of Unicode.
-/

namespace Opstream.Text

def dropReturn (line : List Char) : List Char :=
  if line.getLast? = some '\r' then line.dropLast else line

def lines (text : List Char) : List (List Char) :=
  let pieces := text.splitOn '\n'
  let unended := pieces.getLastD []
  pieces.dropLast.map dropReturn ++ if unended.isEmpty then [] else [unended]

theorem lines_nil : lines [] = [] := rfl

theorem lines_unended (line : List Char) (whole : '\n' ∉ line) (nonempty : line ≠ []) :
    lines line = [line] := by
  simp [lines, List.splitOn_eq_singleton whole, nonempty]

theorem lines_cons (line rest : List Char) (whole : '\n' ∉ line) :
    lines (line ++ '\n' :: rest) = dropReturn line :: lines rest := by
  have pieces : rest.splitOn '\n' ≠ [] := List.splitOn_ne_nil _ _
  simp only [lines, List.splitOn_append_cons_self_of_not_mem whole]
  rw [List.dropLast_cons_of_ne_nil pieces, List.map_cons, List.cons_append]
  rw [List.getLastD_eq_getLast?, List.getLast?_cons]
  rw [List.getLastD_eq_getLast?, List.getLast?_eq_some_getLast pieces]
  simp

/-- The characters with the property White_Space. -/
def isWhiteSpace (char : Char) : Bool :=
  let code := char.toNat
  (0x09 ≤ code && code ≤ 0x0d) || (0x2000 ≤ code && code ≤ 0x200a) ||
    [0x20, 0x85, 0xa0, 0x1680, 0x2028, 0x2029, 0x202f, 0x205f, 0x3000].contains code

def trimEnd (text : List Char) : List Char :=
  (text.reverse.dropWhile isWhiteSpace).reverse

def trim (text : List Char) : List Char := trimEnd (text.dropWhile isWhiteSpace)

namespace Decimal

/-- A numeral that needs more than `width` digits keeps them all. -/
def padded (width value : Nat) : String :=
  String.ofList ((Nat.toDigits 10 value).leftpad width '0')

def isNumeral (word : List Char) : Bool := !word.isEmpty && word.all Char.isDigit

/-- Zeros in front do not matter; a sign or any other mark does not belong to a numeral. -/
def read? (word : List Char) : Option Nat :=
  if isNumeral word then some (Nat.ofDigitChars 10 word 0) else none

theorem is_numeral_digits (value : Nat) : isNumeral (Nat.toDigits 10 value) = true := by
  have nonempty : (Nat.toDigits 10 value).isEmpty = false := by simp
  rw [isNumeral, nonempty, Bool.not_false, Bool.true_and, List.all_eq_true]
  intro digit member
  exact Nat.isDigit_of_mem_toDigits (by decide) (by decide) member

theorem read_digits (value : Nat) : read? (Nat.toDigits 10 value) = some value := by
  rw [read?, if_pos (is_numeral_digits value), Nat.ofDigitChars_ten_toDigits]

end Decimal

namespace Hex

def byte (value : UInt8) : String := String.ofList ((Nat.toDigits 16 value.toNat).leftpad 2 '0')

def spaced (bytes : List UInt8) : String := " ".intercalate (bytes.map byte)

end Hex

end Opstream.Text
