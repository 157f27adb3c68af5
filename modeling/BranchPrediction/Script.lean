import BranchPrediction.Action

/-!
# Scripts

A *script* is a list of answers, given one after the other. The last one is
repeated for ever. Scripted components stand in for real ones where a run has
to be steered.
-/

namespace BranchPrediction

/-- The answers still to be given. -/
structure Script (α : Type) where
  answers : List α
  deriving DecidableEq

namespace Script

variable {α : Type}

/-- Gives the next answer. -/
def next : Action (Script α) α
  | ⟨[]⟩ => .error .unscripted ⟨[]⟩
  | ⟨[a]⟩ => .ok a ⟨[a]⟩
  | ⟨a :: b :: rest⟩ => .ok a ⟨b :: rest⟩

end Script

end BranchPrediction
