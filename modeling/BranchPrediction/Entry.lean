import BranchPrediction.Scheme

/-!
# Table entries

An entry is what a table keeps about one branch. It is *cold* until something
is known of the branch, and then *trained*: it holds the state of the
prediction scheme, the last target and the number of outcomes learnt. The
life of an entry is the same for every scheme: it is `reset` when its place
is given to another branch, may be `seed`ed with a target, and is `train`ed
with each outcome.
-/

namespace BranchPrediction

/-- What a table keeps about one branch. -/
inductive Entry (D : Type)
  /-- Nothing is known of the branch. -/
  | cold
  /-- The scheme's state, the last target and the number of outcomes. -/
  | trained (direction : D) (target : Address) (updates : UInt64)
  deriving DecidableEq

namespace Entry

variable {D : Type} [Scheme D]

/-- The most outcomes an entry counts. -/
def maxUpdates : Nat := UInt64.size - 1

/-- One more outcome, unless that is more than an entry counts. -/
def countUp (n : UInt64) : UInt64 := if n.toNat < maxUpdates then n + 1 else n

omit [Scheme D] in
/-- The count goes up by one, to at most `maxUpdates`. -/
theorem toNat_countUp (n : UInt64) : (countUp n).toNat = min (n.toNat + 1) maxUpdates := by
  have := n.toNat_lt
  unfold countUp maxUpdates UInt64.size
  split
  · rw [UInt64.toNat_add]
    simp only [UInt64.toNat_one]
    omega
  · omega

/-- Whether the branch at `pc` is expected to be taken. -/
def predictTaken (pc : Address) : Entry D → Bool
  | cold => Scheme.coldTaken D
  | trained direction target _ => Scheme.predict direction pc (some target)

/-- The last target of the branch. -/
def target? : Entry D → Option Address
  | cold => none
  | trained _ target _ => some target

/-- The scheme's state of the branch. -/
def direction? : Entry D → Option D
  | cold => none
  | trained direction _ _ => some direction

/-- The number of outcomes learnt. -/
def updates : Entry D → UInt64
  | cold => 0
  | trained _ _ updates => updates

/-- Whether nothing is known of the branch. -/
def isCold : Entry D → Bool
  | cold => true
  | trained .. => false

/-- Forgets the branch. -/
def reset (_ : Entry D) : Entry D := cold

/-- Records a target, which is not an outcome: a cold entry becomes trained
    without any update. -/
def seed (target : Address) : Entry D → Entry D
  | cold => trained Scheme.initial target 0
  | trained direction _ updates => trained direction target updates

/-- Learns an outcome and records its target. -/
def train (taken : Bool) (target : Address) : Entry D → Entry D
  | cold => trained (Scheme.train Scheme.initial taken) target 1
  | trained direction _ updates => trained (Scheme.train direction taken) target (countUp updates)

/-- What can happen to an entry. -/
inductive Event
  | reset
  | seed (target : Address)
  | train (taken : Bool) (target : Address)
  deriving DecidableEq

/-- The entry after an event. -/
def after (e : Entry D) : Event → Entry D
  | .reset => e.reset
  | .seed target => e.seed target
  | .train taken target => e.train taken target

end Entry

end BranchPrediction
