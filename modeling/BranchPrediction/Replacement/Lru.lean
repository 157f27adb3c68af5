import BranchPrediction.Replacement

/-!
# Least recently used

The policy keeps the ways of each set as a *usage stack*: a way that is
touched moves to the top, so the way at the bottom has not been used for the
longest time. Untouched ways stay in the order of their numbers, so the
highest one is the first victim.
-/

namespace BranchPrediction

/-- The usage stacks of all sets. -/
structure Lru where
  /-- The ways by set, each with the last used one first. -/
  usage : Array (List Nat)
  deriving DecidableEq

namespace Lru

/-- The usage stacks before any touch. -/
def new (sets ways : Nat) : Lru := ⟨.replicate sets (List.range ways)⟩

/-- Moves a way to the top. A way that is not in the stack leaves it as it is. -/
def promote (way : Nat) (stack : List Nat) : List Nat :=
  if way ∈ stack then way :: stack.erase way else stack

/-- The way at the bottom of a stack, or `0` if it is empty. -/
def bottom (stack : List Nat) : Nat := stack.getLast?.getD 0

end Lru

instance : Replacement Lru where
  touch set way := fun p =>
    if set < p.usage.size then .ok () { usage := p.usage.modify set (Lru.promote way) }
    else .error (.setOutOfRange set) p
  victim set := fun p =>
    match p.usage[set]? with
    | some stack => .ok (Lru.bottom stack) p
    | none => .error (.setOutOfRange set) p

end BranchPrediction
