import BranchPrediction.Config
import BranchPrediction.Decimal.Layout
import BranchPrediction.Json.Value
import BranchPrediction.Text.Quoted

/-!
# Defects of configuration documents

Why a document is no configuration, and how this is put into words.
-/

namespace BranchPrediction

open Json (Number Value)

namespace Config

/-- Why a document is no configuration. -/
inductive Defect
  /-- It is not JSON. -/
  | malformed
  /-- It is not an object, but some other value. -/
  | notObject (found : Value)
  /-- A member is no field. -/
  | unknownField (key : String)
  /-- The value of a field is of another kind than the field. -/
  | invalidType (field : Field) (found : Value)
  /-- The value of a field is an integer that the field cannot hold. -/
  | invalidValue (field : Field) (found : Int)

/-- The kind of a value, in a sentence about the document. -/
def kind : Value → String
  | .null => "null"
  | .boolean _ => "a boolean"
  | .number _ => "a number"
  | .string _ => "a string"
  | .array _ => "an array"
  | .object _ => "an object"

/-- A value, in a sentence about a field. -/
def unexpected : Value → String
  | .null => "null"
  | .boolean b => s!"boolean `{b}`"
  | .number (.integer n) => s!"integer `{n}`"
  | .number (.float x) => "floating point `" ++ Decimal.ofFloat x ++ "`"
  | .string s => "string " ++ Text.quote s
  | .array _ => "sequence"
  | .object _ => "map"

/-- The keys of all fields, in a sentence about a key that is none of them. -/
def fieldList : String := ", ".intercalate (Field.all.map fun f => "`" ++ f.key ++ "`")

/-- The defect in words. -/
def Defect.text : Defect → String
  | malformed => "the document is not valid JSON"
  | notObject found => "expected a JSON object, found " ++ kind found
  | unknownField key => "unknown field `" ++ key ++ "`, expected one of " ++ fieldList
  | invalidType field found =>
    "invalid type: " ++ unexpected found ++ ", expected " ++ field.expected
  | invalidValue field found => s!"invalid value: integer `{found}`, expected " ++ field.expected

end Config

end BranchPrediction
