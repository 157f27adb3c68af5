import BranchPrediction.Json.Token

/-!
# JSON documents

A JSON document is a text whose tokens make up a single value. They are taken
in one after the other, while the containers that are still open are kept on a
stack, the innermost on top. At most `maxDepth` may be open at once.
-/

namespace BranchPrediction.Json.Document

/-- The most containers that may be open at once. -/
def maxDepth : Nat := 127

/-- An open container with what it holds so far, the newest first. -/
inductive Container
  | array (items : List Value)
  | object (members : List (String × Value))
  /-- An object whose last key still lacks its value. -/
  | member (members : List (String × Value)) (key : String)

/-- What must come next. -/
inductive Phase
  /-- A value. -/
  | value
  /-- The first part of a container, or its end. -/
  | first
  /-- The key of a member. -/
  | key
  /-- The colon behind a key. -/
  | colon
  /-- A comma, or the end of a container. -/
  | next
  /-- Nothing: the document is complete. -/
  | done (v : Value)

/-- A document that is taken in up to some token. -/
structure Progress where
  phase : Phase
  containers : List Container

/-- Nothing has been taken in. -/
def Progress.start : Progress := ⟨.value, []⟩

/-- Puts a value into the innermost container, or completes the document. -/
def put (v : Value) : List Container → Option Progress
  | [] => some ⟨.done v, []⟩
  | .array items :: cs => some ⟨.next, .array (v :: items) :: cs⟩
  | .member members key :: cs => some ⟨.next, .object ((key, v) :: members) :: cs⟩
  | .object _ :: _ => none

/-- Opens a container. -/
def openContainer (c : Container) (cs : List Container) : Option Progress :=
  if cs.length < maxDepth then some ⟨.first, c :: cs⟩ else none

/-- Takes in a token that must be a value, or the start of one. -/
def takeValue (cs : List Container) : Token → Option Progress
  | .null => put .null cs
  | .boolean b => put (.boolean b) cs
  | .number n => put (.number n) cs
  | .string s => put (.string s) cs
  | .leftBracket => openContainer (.array []) cs
  | .leftBrace => openContainer (.object []) cs
  | _ => none

/-- Takes in a token that must be a key. -/
def takeKey : List Container → Token → Option Progress
  | .object members :: cs, .string key => some ⟨.colon, .member members key :: cs⟩
  | _, _ => none

/-- Takes in a token that must end the innermost container. -/
def takeEnd : List Container → Token → Option Progress
  | .array items :: cs, .rightBracket => put (.array items.reverse) cs
  | .object members :: cs, .rightBrace => put (.object members.reverse) cs
  | _, _ => none

/-- Takes in a token that must separate the parts of the innermost container. -/
def takeComma : List Container → Token → Option Progress
  | .array items :: cs, .comma => some ⟨.value, .array items :: cs⟩
  | .object members :: cs, .comma => some ⟨.key, .object members :: cs⟩
  | _, _ => none

/-- Takes in the first token behind the start of a container. -/
def takeFirst : List Container → Token → Option Progress
  | .array items :: cs, t => takeValue (.array items :: cs) t
  | cs, t => takeKey cs t

/-- Takes in a token. -/
def take (p : Progress) (t : Token) : Option Progress :=
  match p.phase with
  | .value => takeValue p.containers t
  | .first => takeEnd p.containers t <|> takeFirst p.containers t
  | .key => takeKey p.containers t
  | .colon =>
    match t with
    | .colon => some ⟨.value, p.containers⟩
    | _ => none
  | .next => takeEnd p.containers t <|> takeComma p.containers t
  | .done _ => none

/-- The value of a complete document. -/
def Progress.value? (p : Progress) : Option Value :=
  match p.phase with
  | .done v => some v
  | _ => none

/-- The value that a series of tokens makes up. -/
def ofTokens? (ts : List Token) : Option Value := do (← ts.foldlM take .start).value?

/-- The value of a document. -/
def read? (text : String) : Option Value := do ofTokens? (← Token.series? text.toList)

end BranchPrediction.Json.Document
