import BranchPrediction.Config.Defect
import BranchPrediction.Json.Document
import Std.Data.TreeMap

/-!
# Configuration documents

A configuration can be read from a JSON object whose members set fields; the
other fields keep their defaults. A key that is repeated has its last value.
The members are visited in the order of their keys, so the defect that is
reported is that of the smallest faulty key, wherever it stands in the text.
-/

namespace BranchPrediction

open Json (Number Value)

namespace Config

/-- The integer of a field, if it is below the limit. -/
def integer? (field : Field) (limit : Nat) : Value → Except Defect Nat
  | .number (.integer n) =>
    if 0 ≤ n ∧ n < limit then .ok n.toNat else .error (.invalidValue field n)
  | v => .error (.invalidType field v)

/-- Sets a field to the value of a member. -/
def assign (c : Config) : Field → Value → Except Defect Config
  | .mode, .string mode => .ok { c with mode }
  | .mode, v => .error (.invalidType .mode v)
  | .sizeInEntries, v => do
    return { c with sizeInEntries := .ofNat (← integer? .sizeInEntries UInt64.size v) }
  | .ways, v => do
    return { c with ways := .ofNat (← integer? .ways UInt64.size v) }
  | .addressBits, v => do
    return { c with addressBits := .ofNat (← integer? .addressBits UInt32.size v) }

/-- Takes in a member. -/
def member (c : Config) (m : String × Value) : Except Defect Config :=
  match Field.ofKey? m.1 with
  | some field => c.assign field m.2
  | none => .error (.unknownField m.1)

/-- The members of an object by key, each with its last value. -/
def lastValues (members : List (String × Value)) : Std.TreeMap String Value := .ofList members

/-- The configuration that the members of an object set. -/
def ofMembers (members : List (String × Value)) : Except Defect Config :=
  (lastValues members).toList.foldlM member {}

/-- The configuration of a JSON value. -/
def ofValue : Value → Except Defect Config
  | .object members => ofMembers members
  | v => .error (.notObject v)

/-- The configuration of a document. -/
def ofDocument (text : String) : Except Defect Config :=
  match Json.Document.read? text with
  | some v => ofValue v
  | none => .error .malformed

end Config

end BranchPrediction
