import BranchPrediction.Replacement
import BranchPrediction.Script

/-!
# Scripted replacement

A policy whose victims are laid down in advance, whatever set they are asked
for. Nothing keeps them below the number of ways.
-/

namespace BranchPrediction

/-- The victims still to be named. -/
structure ScriptedPolicy where
  victims : Script Nat
  deriving DecidableEq

instance : Replacement ScriptedPolicy where
  touch _ _ := pure ()
  victim _ := fun ⟨victims⟩ => Script.next.within victims (⟨·⟩)

end BranchPrediction
