import BranchPrediction.Script
import BranchPrediction.Store

/-!
# Scripted stores

An address store whose answers are laid down in advance, whatever address
they are asked for. Only the set follows from the address, as in a tag array
with lines of one instruction.
-/

namespace BranchPrediction

/-- The answers still to be given. -/
structure ScriptedStore where
  peeks : Script (Option Nat)
  lookups : Script (Option Nat)
  inserts : Script Nat
  sets : Nat
  deriving DecidableEq

instance : AddressStore ScriptedStore where
  setIndex s a := (a / instructionSize).toNat % s.sets
  peek _ := fun s => Script.next.within s.peeks fun peeks => { s with peeks }
  lookup _ := fun s => Script.next.within s.lookups fun lookups => { s with lookups }
  insert _ := fun s => Script.next.within s.inserts fun inserts => { s with inserts }

end BranchPrediction
