import BranchPrediction.Action
import BranchPrediction.Branch

/-!
# Address stores

An *address store* gives addresses a place, a way of a set, and remembers
which addresses currently have theirs. What is kept at a place is up to the
owner of the store.

`peek` and `lookup` both search for an address. The difference is that a
lookup counts as a use of the address, which a replacement policy may heed,
so queries peek and only training looks up.

`Recorded S` is the store `S` with a record of the calls made to it.
-/

namespace BranchPrediction

/-- An address store with states in `S`. -/
class AddressStore (S : Type) where
  /-- The set that an address belongs to. -/
  setIndex : S → Address → Nat
  /-- The way of an address that has one. -/
  peek : Address → Action S (Option Nat)
  /-- The way of an address that has one, which counts as a use of it. -/
  lookup : Address → Action S (Option Nat)
  /-- Gives an address a way, taking it from another address if need be. -/
  insert : Address → Action S Nat

namespace AddressStore

/-- What a store can be asked to do. -/
inductive Call
  | peek (a : Address)
  | lookup (a : Address)
  | insert (a : Address)
  deriving DecidableEq

/-- A store together with the calls made to it so far, oldest first. -/
structure Recorded (S : Type) where
  store : S
  calls : Array Call := #[]

/-- Notes the call and carries it out. -/
def Recorded.call {S α : Type} (c : Call) (x : Action S α) : Action (Recorded S) α :=
  fun ⟨store, calls⟩ => x.within store (⟨·, calls.push c⟩)

/-- Asking for a set is not recorded, as it cannot change the store. -/
instance {S : Type} [AddressStore S] : AddressStore (Recorded S) where
  setIndex r a := setIndex r.store a
  peek a := Recorded.call (.peek a) (peek a)
  lookup a := Recorded.call (.lookup a) (lookup a)
  insert a := Recorded.call (.insert a) (insert a)

end AddressStore

end BranchPrediction
