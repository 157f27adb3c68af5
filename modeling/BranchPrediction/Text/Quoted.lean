import BranchPrediction.Text.Spelt

/-!
# Quoted text

A text is quoted so that it can be told from what surrounds it, and so that
all of it can be seen: quotes, backslashes and the usual controls are written
with a backslash, and other characters that are spelt out by their number in
braces.
-/

namespace BranchPrediction.Text

/-- The number of a character, to the base sixteen. -/
def spell (c : Char) : List Char :=
  ['\\', 'u', '{'] ++ Nat.toDigits 16 c.toNat ++ ['}']

/-- A character as it stands in quoted text. -/
def quoteChar : Char → List Char
  | '"' => ['\\', '"']
  | '\\' => ['\\', '\\']
  | '\n' => ['\\', 'n']
  | '\r' => ['\\', 'r']
  | '\t' => ['\\', 't']
  | '\x00' => ['\\', '0']
  | c => if isSpelt c then spell c else [c]

/-- A text between quotes. -/
def quote (s : String) : String := .ofList ('"' :: s.toList.flatMap quoteChar ++ ['"'])

end BranchPrediction.Text
