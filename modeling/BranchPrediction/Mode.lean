import BranchPrediction.Scheme.OneBit
import BranchPrediction.Scheme.Static
import BranchPrediction.Scheme.TwoLevel

/-!
# Modes

A mode is a prediction scheme that can be asked for by name.
-/

namespace BranchPrediction

/-- The schemes that can be asked for. -/
inductive Mode
  | alwaysTaken
  | backwardTaken
  | oneBit
  | twoBit
  | twoLevel
  deriving DecidableEq

/-- The length of the histories of the two-level mode. -/
def modePatternLength : PatternLength where
  bits := 2

namespace Mode

/-- All modes, in the order in which they are listed to whoever asks. -/
def all : List Mode := [alwaysTaken, backwardTaken, oneBit, twoBit, twoLevel]

/-- The name of a mode. -/
def name : Mode → String
  | alwaysTaken => "static_always_taken"
  | backwardTaken => "static_backward_jumps"
  | oneBit => "dynamic_one_bit"
  | twoBit => "dynamic_two_bit"
  | twoLevel => "adaptive_two_level"

/-- The names of all modes. -/
def names : List String := all.map name

/-- The mode of a name. -/
def ofName? (name : String) : Option Mode := all.find? fun m => m.name = name

/-- Whether a name is that of a mode. -/
def isSupported (name : String) : Bool := names.contains name

/-- The states of the scheme of a mode. -/
def State : Mode → Type
  | alwaysTaken => AlwaysTaken
  | backwardTaken => BackwardTaken
  | oneBit => OneBit
  | twoBit => TwoBit
  | twoLevel => TwoLevel modePatternLength

/-- The scheme of a mode. -/
instance : (m : Mode) → Scheme m.State
  | alwaysTaken => inferInstanceAs (Scheme AlwaysTaken)
  | backwardTaken => inferInstanceAs (Scheme BackwardTaken)
  | oneBit => inferInstanceAs (Scheme OneBit)
  | twoBit => inferInstanceAs (Scheme TwoBit)
  | twoLevel => inferInstanceAs (Scheme (TwoLevel modePatternLength))

/-- A mode is found by its name. -/
theorem ofName?_name (m : Mode) : ofName? m.name = some m := by
  cases m <;> decide

end Mode

end BranchPrediction
