import BranchPrediction.Predictor

/-!
# Launch

A program that cannot do without a predictor ends if there is none to be had.
It then reports the error, along with the modes to choose from if the one that
was asked for does not exist.
-/

namespace BranchPrediction

/-- How the program goes on after it asked for a predictor. -/
inductive Launch
  | started (p : Predictor)
  | ended (e : SetupError)

namespace Launch

/-- Asks for the predictor of a configuration. -/
def ofConfig (c : Config) : Launch :=
  match Predictor.create c with
  | .ok p => started p
  | .error e => ended e

/-- Asks for a predictor whose addresses have so many bits. -/
def createWithBits (mode : String) (sizeInEntries ways : UInt64) (addressBits : UInt32) : Launch :=
  ofConfig { mode, sizeInEntries, ways, addressBits }

/-- Asks for a predictor whose addresses have as many bits as they have by default. -/
def create (mode : String) (sizeInEntries ways : UInt64) : Launch :=
  ofConfig { mode, sizeInEntries, ways }

/-- The status that the program reports when it ends, now or later. -/
def exitStatus : Launch → UInt8
  | started _ => 0
  | ended _ => 1

/-- The modes to choose from, if that is what went wrong. -/
def choices : Notice → String
  | .unknownMode _ supported =>
    "Supported modes:\n" ++ String.join (supported.map fun name => "\t" ++ name ++ "\n")
  | _ => ""

/-- What the program reports on its error output. -/
def report : Launch → String
  | started _ => ""
  | ended e => "\n[!] FATAL: " ++ e.message ++ "\n" ++ choices e.notice

end Launch

end BranchPrediction
