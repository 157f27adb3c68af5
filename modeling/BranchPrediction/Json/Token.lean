import BranchPrediction.Json.Numeral
import BranchPrediction.Json.Text

/-!
# JSON tokens

A JSON text is a series of *tokens*, which may be set apart by blanks. Words
and numerals are read as far as they go, so that two of them in a row need a
blank between; no JSON text has two in a row anyway.
-/

namespace BranchPrediction.Json

/-- The smallest parts of a JSON text. -/
inductive Token
  | leftBrace
  | rightBrace
  | leftBracket
  | rightBracket
  | colon
  | comma
  | null
  | boolean (b : Bool)
  | number (n : Number)
  | string (s : String)

namespace Token

/-- The characters that may stand between tokens. -/
def isBlank (c : Char) : Bool := c = ' ' || c = '\t' || c = '\n' || c = '\r'

/-- The token of a single character. -/
def ofPunctuation? : Char → Option Token
  | '{' => some leftBrace
  | '}' => some rightBrace
  | '[' => some leftBracket
  | ']' => some rightBracket
  | ':' => some colon
  | ',' => some comma
  | _ => none

/-- The token of a word. -/
def ofWord? (word : List Char) : Option Token :=
  if word = ['n', 'u', 'l', 'l'] then some null
  else if word = ['t', 'r', 'u', 'e'] then some (boolean true)
  else if word = ['f', 'a', 'l', 's', 'e'] then some (boolean false)
  else none

/-- The token at the start of a text that starts with `c`, and the rest of the
    text. -/
def read? (c : Char) (cs : List Char) : Option (Token × List Char) :=
  if c = '"' then do
    let (s, rest) ← Text.read? cs
    return (string s, rest)
  else if c = '-' ∨ c.isDigit then do
    let (n, rest) ← Numeral.read? (c :: cs)
    return (number (← n.number?), rest)
  else if c.isAlpha then do
    return (← ofWord? (c :: cs.takeWhile Char.isAlpha), cs.dropWhile Char.isAlpha)
  else do
    return (← ofPunctuation? c, cs)

/-- A token is taken from the text. -/
theorem length_of_read? {c : Char} {cs rest : List Char} {t : Token}
    (h : read? c cs = some (t, rest)) : rest.length < (c :: cs).length := by
  unfold read? at h
  split at h
  · simp only [Option.bind_eq_bind, Option.bind_eq_some_iff, Prod.exists] at h
    obtain ⟨_, _, hs, h⟩ := h
    obtain ⟨_, rfl⟩ := Prod.mk.inj (Option.some.inj h)
    exact Nat.lt_succ_of_lt (Text.length_of_read? hs)
  split at h
  · simp only [Option.bind_eq_bind, Option.bind_eq_some_iff, Prod.exists] at h
    obtain ⟨_, _, hn, _, _, h⟩ := h
    obtain ⟨_, rfl⟩ := Prod.mk.inj (Option.some.inj h)
    exact Numeral.length_of_read? hn
  split at h
  · simp only [Option.bind_eq_bind, Option.bind_eq_some_iff] at h
    obtain ⟨_, _, h⟩ := h
    obtain ⟨_, rfl⟩ := Prod.mk.inj (Option.some.inj h)
    exact Nat.lt_succ_of_le (List.dropWhile_sublist _).length_le
  · simp only [Option.bind_eq_bind, Option.bind_eq_some_iff] at h
    obtain ⟨_, _, h⟩ := h
    obtain ⟨_, rfl⟩ := Prod.mk.inj (Option.some.inj h)
    exact Nat.lt_succ_self _

/-- The tokens of a text, if it is made of tokens and blanks only. -/
def series? : List Char → Option (List Token)
  | [] => some []
  | c :: cs =>
    if isBlank c then series? cs
    else
      match h : read? c cs with
      | none => none
      | some (t, rest) =>
        have := length_of_read? h
        (series? rest).map (t :: ·)
termination_by cs => cs.length
decreasing_by
  · exact Nat.lt_succ_self _
  · assumption

end Token

end BranchPrediction.Json
