import BranchPrediction.Config.Defect
import BranchPrediction.Geometry
import BranchPrediction.Mode

/-!
# Setup errors

Once a predictor runs, its queries and its training always answer. What can
fail is the setup: the document, the mode or the geometry may be wrong. A
`SetupError` is the cause, and a `Notice` what is told about it.
-/

namespace BranchPrediction

/-- What is told about a setup that failed. -/
inductive Notice
  /-- A mode that does not exist, with those that do. -/
  | unknownMode (name : String) (supported : List String)
  /-- A geometry that is not accepted, with the reason. -/
  | invalidGeometry (reason : String)
  /-- A document that is no configuration, with the defect in words. -/
  | invalidConfig (text : String)
  deriving DecidableEq

/-- The notice in words. -/
def Notice.text : Notice → String
  | unknownMode name supported =>
    "invalid branch prediction mode `" ++ name ++ "`; supported modes: " ++
      ", ".intercalate supported
  | invalidGeometry reason => "invalid predictor geometry: " ++ reason
  | invalidConfig text => "invalid predictor configuration: " ++ text

/-- Why a predictor cannot be set up. -/
inductive SetupError
  /-- There is no mode of this name. -/
  | unknownMode (name : String)
  /-- The geometry of the table is not accepted. -/
  | geometry (defect : Geometry.Defect)
  /-- The document is no configuration. -/
  | config (defect : Config.Defect)

/-- What is told about the error. -/
def SetupError.notice : SetupError → Notice
  | unknownMode name => .unknownMode name Mode.names
  | geometry defect => .invalidGeometry defect.reason
  | config defect => .invalidConfig defect.text

/-- The error in words. -/
def SetupError.message (e : SetupError) : String := e.notice.text

end BranchPrediction
