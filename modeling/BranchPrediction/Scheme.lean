import BranchPrediction.Branch

/-!
# Prediction schemes

A *scheme* predicts the direction of a single branch from the outcomes it has
been trained with. Its state has one value per branch; the table that holds
these states, and the branch targets beside them, is the same for every
scheme (`BranchPrediction.Table`).
-/

namespace BranchPrediction

/-- A way to predict the direction of a branch, with states in `D`. -/
class Scheme (D : Type) where
  /-- The state of a branch without any outcome yet. -/
  initial : D
  /-- The prediction for a branch that has no state at all. -/
  coldTaken : Bool
  /-- Whether the branch at the given address is expected to be taken. The
      target is the last one it was trained with, if any. -/
  predict : D → Address → Option Address → Bool
  /-- The state after the branch was taken, or was not. -/
  train : D → Bool → D

namespace Scheme

variable {D : Type} [Scheme D]

/-- The state after a series of outcomes, oldest first. -/
def trainAll (d : D) (outcomes : List Bool) : D := outcomes.foldl train d

/-- Without outcomes the state stays as it is. -/
@[simp] theorem trainAll_nil (d : D) : trainAll d [] = d := rfl

/-- The oldest outcome is learnt first. -/
@[simp] theorem trainAll_cons (d : D) (taken : Bool) (outcomes : List Bool) :
    trainAll d (taken :: outcomes) = trainAll (train d taken) outcomes := rfl

/-- To learn two series is to learn one and then the other. -/
theorem trainAll_append (d : D) (xs ys : List Bool) :
    trainAll d (xs ++ ys) = trainAll (trainAll d xs) ys :=
  List.foldl_append

end Scheme

end BranchPrediction
