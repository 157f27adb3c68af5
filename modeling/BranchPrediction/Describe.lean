import BranchPrediction.Mode
import BranchPrediction.Table

/-!
# Descriptions

The state of a component on one line, for inspection. A record is described by
its name and its fields in braces, a list by its items in brackets. Addresses
are in decimal.
-/

namespace BranchPrediction

/-- A type whose values can be described. -/
class Describe (α : Type) where
  describe : α → String

namespace Describe

/-- The description of a record. -/
def record (name : String) (fields : List (String × String)) : String :=
  name ++ " \x7b " ++ ", ".intercalate (fields.map fun (key, value) => key ++ ": " ++ value) ++
    " \x7d"

/-- The description of a list. -/
def list {α : Type} (item : α → String) (xs : List α) : String :=
  "[" ++ ", ".intercalate (xs.map item) ++ "]"

instance : Describe AlwaysTaken where
  describe _ := "AlwaysTaken"

instance : Describe BackwardTaken where
  describe d := record "BackwardJumps" [("last_taken", toString d.lastTaken)]

instance : Describe OneBit where
  describe d := record "OneBit" [("taken", toString d.taken)]

instance : Describe TwoBit where
  describe
    | .stronglyNotTaken => "StronglyNotTaken"
    | .weaklyNotTaken => "WeaklyNotTaken"
    | .weaklyTaken => "WeaklyTaken"
    | .stronglyTaken => "StronglyTaken"

instance {k : PatternLength} : Describe (TwoLevel k) where
  describe d := record "Adaptive" [
    ("history", toString d.history.toNat),
    ("counters", list describe d.counters.toList)]

instance {D : Type} [Describe D] : Describe (Entry D) where
  describe
    | .cold => "Cold"
    | .trained direction target updates => record "Trained" [
      ("direction", describe direction),
      ("target", toString target.toNat),
      ("updates", toString updates.toNat)]

instance : Describe Lru where
  describe p := record "LruPolicy" [("usage", list (list toString) p.usage.toList)]

/-- A slot without a tag is described as if it held the tag `0`. -/
def slot (tag : Option Nat) : String :=
  record "TagLine" [("tag", toString (tag.getD 0)), ("valid", toString tag.isSome)]

instance {P : Type} [Describe P] : Describe (TagArray P) where
  describe t := record "TagArray" [
    ("lines", list slot t.slots.toList),
    ("num_sets", toString t.shape.sets),
    ("ways", toString t.shape.ways),
    ("line_bytes", toString t.shape.lineSize),
    ("addr_mask", toString ((1 <<< t.shape.addressBits) - 1)),
    ("policy", describe t.policy)]

end Describe

end BranchPrediction
