import BranchPrediction.Scheme.TwoBit

/-!
# The two-level scheme

The first level is a *history*: the last `k` outcomes of the branch, packed
into `k` bits with the newest outcome lowest. The second level is a table of
two-bit counters, one per history. The counter of the current history makes
the prediction and learns the outcome; then the outcome enters the history.
A branch whose outcome depends on its last `k` outcomes, such as one that
repeats a short pattern, is thus predicted by a counter that only ever sees
that case.
-/

namespace BranchPrediction

/-- The longest history that a branch can have. -/
def maxPatternLength : Nat := 4

/-- The number of counters, one for every history of the greatest length. -/
def counterCount : Nat := 1 <<< maxPatternLength

/-- The number of outcomes in a history. -/
structure PatternLength where
  /-- One bit per outcome. -/
  bits : Nat
  /-- There is an outcome to look back at. -/
  bits_pos : 1 ≤ bits := by decide
  /-- Every history has a counter. -/
  bits_le : bits ≤ maxPatternLength := by decide

/-- The state of the two-level scheme with histories of length `k`. -/
structure TwoLevel (k : PatternLength) where
  /-- The last outcomes, the newest lowest. -/
  history : BitVec k.bits
  /-- The counters by history. There are as many for every length, so that the
      states of all lengths have one size; a short history leaves the rest
      unused. -/
  counters : Vector TwoBit counterCount
  deriving DecidableEq

namespace TwoLevel

variable {k : PatternLength}

/-- The state of a new branch: it counts as always taken so far. -/
def initial (k : PatternLength) : TwoLevel k where
  history := .allOnes k.bits
  counters := .replicate _ .weaklyNotTaken

/-- Every history has a counter. -/
theorem history_lt (d : TwoLevel k) : d.history.toNat < counterCount := by
  rw [counterCount, Nat.one_shiftLeft]
  exact Nat.lt_of_lt_of_le d.history.isLt (Nat.pow_le_pow_right (by decide) k.bits_le)

/-- The counter of the current history. -/
def current (d : TwoLevel k) : TwoBit := d.counters.get ⟨d.history.toNat, d.history_lt⟩

/-- The outcome trains the current counter and then enters the history, from
    which the oldest outcome drops out. -/
def train (d : TwoLevel k) (taken : Bool) : TwoLevel k where
  history := d.history.shiftConcat taken
  counters := d.counters.set d.history.toNat (d.current.update taken) d.history_lt

end TwoLevel

instance {k : PatternLength} : Scheme (TwoLevel k) where
  initial := .initial k
  coldTaken := TwoBit.weaklyNotTaken.predictsTaken
  predict d _ _ := d.current.predictsTaken
  train := TwoLevel.train

end BranchPrediction
