/-!
# Branches

A *branch* is an instruction after which execution may continue elsewhere
than right behind it. Fetch cannot wait for the branch to execute: it asks
for a `Prediction` of the address it is about to leave. Once the branch has
executed, its `Outcome` is reported, from which later predictions learn.

A branch that is not taken *falls through* to the next instruction.
-/

namespace BranchPrediction

/-- An instruction address: a word of 64 bits, whose arithmetic wraps. -/
abbrev Address := UInt64

/-- The bytes an instruction occupies. -/
def instructionSize : Address := 4

/-- The address of the instruction behind `pc`. Behind the last address comes
    the first. -/
def fallthrough (pc : Address) : Address := pc + instructionSize

/-- What fetch is told about an address. -/
structure Prediction where
  /-- The address asked about. -/
  pc : Address
  /-- Whether a branch there is expected to be taken. -/
  taken : Bool
  /-- Where to continue fetching. -/
  target : Address
  deriving DecidableEq

/-- The prediction that execution falls through. -/
def Prediction.fallsThrough (pc : Address) : Prediction := ⟨pc, false, fallthrough pc⟩

/-- What a branch did when it executed. -/
structure Outcome where
  /-- The address of the branch. -/
  pc : Address
  /-- Whether it was taken. -/
  taken : Bool
  /-- Its destination, also given when it was not taken. -/
  target : Address
  deriving DecidableEq

end BranchPrediction
