import BranchPrediction.Scheme

/-!
# The one-bit scheme

A branch is expected to do what it did last. The branch that closes a loop is
then mispredicted twice per execution of the loop: when the loop is left, and
when it is entered again.
-/

namespace BranchPrediction

/-- The last outcome of a branch. -/
structure OneBit where
  /-- Whether the branch was taken. -/
  taken : Bool := false
  deriving DecidableEq

instance : Scheme OneBit where
  initial := {}
  coldTaken := false
  predict d _ _ := d.taken
  train _ taken := { taken }

end BranchPrediction
