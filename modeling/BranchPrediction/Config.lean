/-!
# Configurations

What is asked of a predictor: its mode by name, and the measures of its table.
A configuration is a set of *fields*, each with a default.
-/

namespace BranchPrediction

/-- What is asked of a predictor. -/
structure Config where
  /-- The name of the mode. -/
  mode : String := "dynamic_two_bit"
  /-- The number of table entries in all ways together. -/
  sizeInEntries : UInt64 := 128
  /-- The number of ways of the table. -/
  ways : UInt64 := 16
  /-- The number of low address bits that count. -/
  addressBits : UInt32 := 32
  deriving DecidableEq

namespace Config

/-- The fields of a configuration. -/
inductive Field
  | mode
  | sizeInEntries
  | ways
  | addressBits
  deriving DecidableEq

namespace Field

/-- All fields, in the order in which they are listed to whoever asks. -/
def all : List Field := [mode, sizeInEntries, ways, addressBits]

/-- The key of a field in a document. -/
def key : Field → String
  | mode => "mode"
  | sizeInEntries => "size_in_entries"
  | ways => "ways"
  | addressBits => "branch_ip_size_in_bits"

/-- The field of a key. -/
def ofKey? (key : String) : Option Field := all.find? fun f => f.key = key

/-- What a field takes, as reported to whoever wrote something else. -/
def expected : Field → String
  | mode => "a string"
  | sizeInEntries | ways => "usize"
  | addressBits => "u32"

/-- A field is found by its key. -/
theorem ofKey?_key (f : Field) : ofKey? f.key = some f := by
  cases f <;> decide

end Field

end Config

end BranchPrediction
