import BranchPrediction.Config.Document
import BranchPrediction.SetupError
import BranchPrediction.Table

/-!
# Predictors

A predictor is a prediction table for the scheme of a mode. Which mode it is
no longer matters once the predictor has been set up: all of them are queried
and trained alike.
-/

namespace BranchPrediction

/-- A table for the scheme of a mode. -/
structure Predictor where
  /-- What was asked for. -/
  config : Config
  mode : Mode
  table : Table mode.State (TagArray Lru)

namespace Predictor

/-! ## Setup -/

/-- Sets up the predictor that a configuration asks for. An unknown mode is
    reported whatever the geometry. -/
def create (c : Config) : Except SetupError Predictor :=
  match Mode.ofName? c.mode with
  | none => .error (.unknownMode c.mode)
  | some mode =>
    match Table.new c.sizeInEntries.toNat c.ways.toNat c.addressBits.toNat with
    | .ok table => .ok ⟨c, mode, table⟩
    | .error defect => .error (.geometry defect)

/-- Sets up the predictor that a document asks for. -/
def ofDocument (text : String) : Except SetupError Predictor :=
  match Config.ofDocument text with
  | .ok c => create c
  | .error defect => .error (.config defect)

/-- What is logged of a predictor that has been set up, along with its
    configuration. -/
def createdMessage : String := "branch predictor created"

/-! ## Use -/

/-- An action of the table, whatever the mode. -/
def onTable {α : Type} (x : (m : Mode) → Action (Table m.State (TagArray Lru)) α) :
    Action Predictor α := fun ⟨config, mode, table⟩ => (x mode).within table (⟨config, mode, ·⟩)

/-- An action of the table changes nothing but the table. -/
@[simp] theorem run_onTable {α : Type} (x : (m : Mode) → Action (Table m.State (TagArray Lru)) α)
    (p : Predictor) : (onTable x).run p = (x p.mode).within p.table (⟨p.config, p.mode, ·⟩) := rfl

/-- What the branch at `pc` is predicted to do. -/
def info (pc : Address) : Action Predictor Prediction := onTable fun _ => Table.info pc

/-- Whether the branch at `pc` is predicted to be taken. -/
def isTaken (pc : Address) : Action Predictor Bool := onTable fun _ => Table.isTaken pc

/-- Where to continue fetching after `pc`. -/
def target (pc : Address) : Action Predictor Address := onTable fun _ => Table.target pc

/-- Learns an outcome. -/
def update (o : Outcome) : Action Predictor (Option Allocation) :=
  onTable fun _ => Table.update o

end Predictor

end BranchPrediction
