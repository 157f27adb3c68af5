import BranchPrediction.Scheme

/-!
# Static schemes

Two schemes that do not learn from outcomes:

* `AlwaysTaken` expects every branch to be taken;
* `BackwardTaken` expects a branch to be taken if it does not jump forward,
  as the branch that closes a loop does.
-/

namespace BranchPrediction

/-- The only state of the scheme that expects every branch to be taken. -/
structure AlwaysTaken where
  deriving DecidableEq

instance : Scheme AlwaysTaken where
  initial := {}
  coldTaken := true
  predict _ _ _ := true
  train d _ := d

/-- The state of the scheme that expects backward branches to be taken. -/
structure BackwardTaken where
  /-- The last outcome, kept for inspection only. -/
  lastTaken : Bool := false
  deriving DecidableEq

/-- A branch without a target is not known to jump backward. -/
instance : Scheme BackwardTaken where
  initial := {}
  coldTaken := false
  predict _ pc target := target.any (· ≤ pc)
  train _ taken := { lastTaken := taken }

end BranchPrediction
