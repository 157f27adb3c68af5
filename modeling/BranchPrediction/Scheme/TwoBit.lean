import BranchPrediction.Scheme

/-!
# The two-bit scheme

A saturating counter of four levels. An outcome moves it by one level, up if
the branch was taken and down if it was not, and the upper two levels predict
*taken*. A strong level thus needs two outcomes against it before the
prediction changes, so a loop that is left and entered again costs one
misprediction instead of two.
-/

namespace BranchPrediction

/-- The levels of a two-bit saturating counter, lowest first. -/
inductive TwoBit
  | stronglyNotTaken
  | weaklyNotTaken
  | weaklyTaken
  | stronglyTaken
  deriving DecidableEq

namespace TwoBit

/-- The height of a level, from `0` to `3`. -/
def level : TwoBit → Nat
  | stronglyNotTaken => 0
  | weaklyNotTaken => 1
  | weaklyTaken => 2
  | stronglyTaken => 3

/-- Levels are compared by their height. -/
instance : Ord TwoBit where
  compare a b := compare a.level b.level

/-- Whether the level predicts *taken*. -/
def predictsTaken : TwoBit → Bool
  | stronglyNotTaken | weaklyNotTaken => false
  | weaklyTaken | stronglyTaken => true

/-- The next level up, if there is one. -/
def strengthen : TwoBit → TwoBit
  | stronglyNotTaken => weaklyNotTaken
  | weaklyNotTaken => weaklyTaken
  | weaklyTaken | stronglyTaken => stronglyTaken

/-- The next level down, if there is one. -/
def weaken : TwoBit → TwoBit
  | stronglyNotTaken | weaklyNotTaken => stronglyNotTaken
  | weaklyTaken => weaklyNotTaken
  | stronglyTaken => weaklyTaken

/-- The level after an outcome. -/
def update (c : TwoBit) (taken : Bool) : TwoBit := if taken then c.strengthen else c.weaken

/-- The highest level is `3`. -/
theorem level_strengthen (c : TwoBit) : c.strengthen.level = min (c.level + 1) 3 := by
  cases c <;> rfl

/-- The lowest level is `0`. -/
theorem level_weaken (c : TwoBit) : c.weaken.level = c.level - 1 := by
  cases c <;> rfl

/-- The upper two levels predict *taken*. -/
theorem predictsTaken_eq_decide (c : TwoBit) : c.predictsTaken = decide (2 ≤ c.level) := by
  cases c <;> rfl

end TwoBit

/-- A new counter needs a single taken outcome to predict *taken*. -/
instance : Scheme TwoBit where
  initial := .weaklyNotTaken
  coldTaken := TwoBit.weaklyNotTaken.predictsTaken
  predict c _ _ := c.predictsTaken
  train := TwoBit.update

end BranchPrediction
