/-!
# JSON values

A document of JSON text stands for a `Value`. The members of an object are
kept as they are written, in order and with repeated keys; what a repeated key
means is up to the reader of the value.
-/

namespace BranchPrediction.Json

/-- A JSON number. A numeral without fraction and exponent is an integer if it
    fits into 64 bits, with a sign if it is negative and without otherwise. All
    other numerals are rounded. -/
inductive Number
  | integer (n : Int)
  | float (x : Float)

/-- What a JSON document stands for. -/
inductive Value
  | null
  | boolean (b : Bool)
  | number (n : Number)
  | string (s : String)
  | array (items : List Value)
  | object (members : List (String × Value))
  deriving Inhabited

end BranchPrediction.Json
