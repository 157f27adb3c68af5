import BranchPrediction.Action

/-!
# Replacement policies

When a set of a tag array is full, a *replacement policy* picks the way that
has to give way to a new address, the `victim`. It is told of every `touch`
of a way, on which it may base its choice.

`Recorded P` is the policy `P` with a record of what it was asked and told.
-/

namespace BranchPrediction

/-- A replacement policy with states in `P`. -/
class Replacement (P : Type) where
  /-- Notes that a way of a set was used. -/
  touch (set way : Nat) : Action P Unit
  /-- The way of a set that is to be given to another address. -/
  victim (set : Nat) : Action P Nat

namespace Replacement

/-- What a policy can be asked or told. -/
inductive Call
  | touch (set way : Nat)
  | victim (set : Nat)
  deriving DecidableEq

/-- A policy together with the calls made to it so far, oldest first. -/
structure Recorded (P : Type) where
  policy : P
  calls : Array Call := #[]

namespace Recorded

variable {P α : Type}

/-- Notes the call and carries it out. -/
def call (c : Call) (x : Action P α) : Action (Recorded P) α := fun ⟨policy, calls⟩ =>
  x.within policy (⟨·, calls.push c⟩)

/-- The set and way of every touch so far, oldest first. -/
def touches (r : Recorded P) : List (Nat × Nat) :=
  r.calls.toList.filterMap fun
    | .touch set way => some (set, way)
    | .victim _ => none

end Recorded

instance {P : Type} [Replacement P] : Replacement (Recorded P) where
  touch set way := Recorded.call (.touch set way) (touch set way)
  victim set := Recorded.call (.victim set) (victim set)

end Replacement

end BranchPrediction
