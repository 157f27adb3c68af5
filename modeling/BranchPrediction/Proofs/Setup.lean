import BranchPrediction.Launch
import BranchPrediction.Proofs.ByteOrder
import BranchPrediction.Proofs.Totality

/-!
# Setting up a predictor

Three things can be wrong when a predictor is asked for, and the first of them is told: the
document is no configuration, its mode does not exist, or its geometry is not accepted. If
nothing is wrong, there is a predictor, and it answers as a new table for the scheme of its mode.

What becomes of a configuration is said once, by `Predictor.create_cases`. What is told of it
(`Predictor.Decides`), of a document (`Predictor.DecidesDocument`) and by a program that ends
(`Launch.FollowsFrom`) are read off from there, and together they are `Launch.setup_is_decided`.
-/

namespace BranchPrediction

/-- What an action answers, or the fault that it ends in. -/
def Action.outcome {σ α : Type} (x : Action σ α) (s : σ) : Except Fault α :=
  match x.run s with
  | .ok a _ => .ok a
  | .error f _ => .error f

/-! ## Modes -/

namespace Mode

/-- The scheme that a name asks for. -/
inductive Asks : String → (D : Type) → [Scheme D] → Prop
  | alwaysTaken : Asks "static_always_taken" AlwaysTaken
  | backwardTaken : Asks "static_backward_jumps" BackwardTaken
  | oneBit : Asks "dynamic_one_bit" OneBit
  | twoBit : Asks "dynamic_two_bit" TwoBit
  | twoLevel : Asks "adaptive_two_level" (TwoLevel modePatternLength)

/-- The name of a mode asks for its scheme. -/
theorem asks_name (m : Mode) : Asks m.name m.State := by
  cases m with
  | alwaysTaken => exact .alwaysTaken
  | backwardTaken => exact .backwardTaken
  | oneBit => exact .oneBit
  | twoBit => exact .twoBit
  | twoLevel => exact .twoLevel

/-- A name is supported if it is that of a mode. -/
theorem isSupported_iff_exists {name : String} :
    isSupported name = true ↔ ∃ m : Mode, m.name = name := by
  rw [isSupported, List.contains_iff_mem, names, List.mem_map]
  refine ⟨fun ⟨m, _, hm⟩ => ⟨m, hm⟩, ?_⟩
  rintro ⟨m, rfl⟩
  exact ⟨m, by cases m <;> decide, rfl⟩

/-- A name that is not supported is not found. -/
theorem ofName?_eq_none {name : String} (h : isSupported name = false) : ofName? name = none := by
  rw [ofName?, List.find?_eq_none]
  intro m _ hm
  rw [isSupported_iff_exists.2 ⟨m, of_decide_eq_true hm⟩] at h
  cases h

end Mode

/-- The geometry that a configuration asks for. The line is that of an instruction. -/
def Config.geometry (c : Config) : Geometry where
  sizeInEntries := c.sizeInEntries.toNat
  ways := c.ways.toNat
  lineSize := 4
  addressBits := c.addressBits.toNat

namespace Predictor

/-! ## Runs -/

/-- A predictor answers as a table: the same requests get the same answers, or end in the same
    fault. -/
def AnswersAs {D : Type} [Scheme D] (p : Predictor) (t : Table D (TagArray Lru)) : Prop :=
  ∀ rs : List Request, Action.outcome (Action.each answer rs) p =
    Action.outcome (Action.each Table.answer rs) t

/-- Two actions of the table, one after the other, are one. -/
theorem bind_onTable {α β : Type} (x : (m : Mode) → Action (Table m.State (TagArray Lru)) α)
    (k : α → (m : Mode) → Action (Table m.State (TagArray Lru)) β) :
    (onTable x >>= fun a => onTable (k a)) = onTable fun m => x m >>= fun a => k a m := by
  funext p
  change (onTable x >>= fun a => onTable (k a)).run p =
    (onTable fun m => x m >>= fun a => k a m).run p
  rw [EStateM.run_bind, run_onTable, run_onTable, Action.within, Action.within, EStateM.run_bind]
  cases (x p.mode).run p.table <;> rfl

/-- A run of actions of the table is one. -/
theorem each_onTable {ι α : Type} (x : ι → (m : Mode) → Action (Table m.State (TagArray Lru)) α)
    (is : List ι) :
    Action.each (fun i => onTable (x i)) is = onTable fun m => Action.each (fun i => x i m) is := by
  induction is with
  | nil => rfl
  | cons i is ih =>
    have hnote (a : α) (log : List (ι × α)) : (pure ((i, a) :: log) : Action Predictor _) =
        onTable fun _ => pure ((i, a) :: log) := rfl
    simp only [Action.each, ih, hnote, bind_onTable]

/-- A predictor answers as its table. -/
theorem answersAs_table (p : Predictor) : p.AnswersAs p.table := by
  intro rs
  have hanswer : (answer : Request → Action Predictor Answer) =
      fun r => onTable fun _ => Table.answer r := funext answer_eq_onTable
  rw [hanswer, each_onTable, Action.outcome, run_onTable, Action.within, Action.outcome]
  cases (Action.each Table.answer rs).run p.table <;> rfl

/-! ## Configurations -/

/-- What becomes of a configuration: its mode does not exist, or its geometry is not accepted,
    or there is a predictor with a new table. -/
theorem create_cases (c : Config) :
    (Mode.isSupported c.mode = false ∧ create c = .error (.unknownMode c.mode)) ∨
    (∃ d, Mode.isSupported c.mode = true ∧ c.geometry.shape = .error d ∧
      create c = .error (.geometry d)) ∨
    ∃ m s, Mode.isSupported c.mode = true ∧ c.geometry.shape = .ok s ∧ m.name = c.mode ∧
      create c = .ok ⟨c, m, Table.ofShape s⟩ := by
  rcases hsupported : Mode.isSupported c.mode
  · refine .inl ⟨rfl, ?_⟩
    rw [create, Mode.ofName?_eq_none hsupported]
  · obtain ⟨m, hm⟩ := Mode.isSupported_iff_exists.1 hsupported
    have hmode : Mode.ofName? c.mode = some m := hm ▸ Mode.ofName?_name m
    have hgeometry : Table.geometry c.sizeInEntries.toNat c.ways.toNat c.addressBits.toNat =
        c.geometry := rfl
    rcases hshape : c.geometry.shape with d | s
    · refine .inr (.inl ⟨d, rfl, rfl, ?_⟩)
      simp only [create, hmode, Table.new, hgeometry, hshape, Except.map]
    · refine .inr (.inr ⟨m, s, rfl, rfl, hm, ?_⟩)
      simp only [create, hmode, Table.new, hgeometry, hshape, Except.map]

/-- What is told of a setup that failed. -/
def told {α : Type} (r : Except SetupError α) : Except Notice α := r.mapError SetupError.notice

@[simp] theorem told_ok {α : Type} (a : α) : told (.ok a) = .ok a := rfl

@[simp] theorem told_error {α : Type} (e : SetupError) :
    told (.error e : Except SetupError α) = .error e.notice := rfl

/-- A mode that does not exist is told first, then a geometry that is not accepted. Otherwise
    there is a predictor, which answers as a new table for the scheme of the mode. -/
structure Decides (c : Config) : Prop where
  isSupported_iff : Mode.isSupported c.mode = true ↔
    ∃ name ∈ Mode.names, Text.utf8 name = Text.utf8 c.mode
  unknownMode_iff : ∀ name supported, told (create c) = .error (.unknownMode name supported) ↔
    Mode.isSupported c.mode = false ∧ name = c.mode ∧ supported = Mode.names
  geometry_iff : ∀ reason, told (create c) = .error (.invalidGeometry reason) ↔
    Mode.isSupported c.mode = true ∧ ∃ d, c.geometry.shape = .error d ∧ d.reason = reason
  exists_iff : (∃ p, create c = .ok p) ↔
    Mode.isSupported c.mode = true ∧ ∃ s, c.geometry.shape = .ok s
  answers : ∀ p, create c = .ok p → ∃ (D : Type) (_ : Scheme D) (t : Table D (TagArray Lru)),
    Mode.Asks c.mode D ∧
      Table.new c.sizeInEntries.toNat c.ways.toNat c.addressBits.toNat = .ok t ∧ p.AnswersAs t

/-- Every configuration is decided so. -/
theorem decides (c : Config) : Decides c where
  isSupported_iff := by
    simp only [Mode.isSupported, List.contains_iff_mem, Text.utf8_inj, exists_eq_right]
  unknownMode_iff name supported := by
    rcases create_cases c with ⟨hc, h⟩ | ⟨d, hc, -, h⟩ | ⟨m, s, hc, -, -, h⟩ <;>
      simp [SetupError.notice, h, hc, eq_comm]
  geometry_iff reason := by
    rcases create_cases c with ⟨hc, h⟩ | ⟨d, hc, hd, h⟩ | ⟨m, s, hc, hs, -, h⟩ <;>
      simp [SetupError.notice, *]
  exists_iff := by
    rcases create_cases c with ⟨hc, h⟩ | ⟨d, hc, hd, h⟩ | ⟨m, s, hc, hs, -, h⟩ <;>
      simp [*]
  answers p hp := by
    rcases create_cases c with ⟨-, h⟩ | ⟨d, -, -, h⟩ | ⟨m, s, -, hs, hm, h⟩
    · rw [h] at hp
      cases hp
    · rw [h] at hp
      cases hp
    · rw [h] at hp
      cases hp
      have hnew : Table.new c.sizeInEntries.toNat c.ways.toNat c.addressBits.toNat =
          .ok (Table.ofShape (D := m.State) s) := by
        change c.geometry.shape.map Table.ofShape = _
        rw [hs]
        rfl
      exact ⟨m.State, inferInstance, _, hm ▸ Mode.asks_name m, hnew, answersAs_table _⟩

-- Nothing is right here, but the mode comes first.
example : told (create ⟨"perceptron", 0, 0, 0⟩) =
    .error (.unknownMode "perceptron" Mode.names) := rfl

/-! ## Documents -/

/-- A document that is no configuration is told before anything else. Otherwise it is decided
    by its configuration. -/
structure DecidesDocument (text : String) : Prop where
  config_iff : ∀ words, told (ofDocument text) = .error (.invalidConfig words) ↔
    ∃ d, Config.ofDocument text = .error d ∧ d.text = words
  unknownMode_iff : ∀ name supported,
    told (ofDocument text) = .error (.unknownMode name supported) ↔
      ∃ c, Config.ofDocument text = .ok c ∧ Mode.isSupported c.mode = false ∧ name = c.mode ∧
        supported = Mode.names
  geometry_iff : ∀ reason, told (ofDocument text) = .error (.invalidGeometry reason) ↔
    ∃ c, Config.ofDocument text = .ok c ∧ Mode.isSupported c.mode = true ∧
      ∃ d, c.geometry.shape = .error d ∧ d.reason = reason
  exists_iff : (∃ p, ofDocument text = .ok p) ↔
    ∃ c, Config.ofDocument text = .ok c ∧ Mode.isSupported c.mode = true ∧
      ∃ s, c.geometry.shape = .ok s
  ok_iff : ∀ p, ofDocument text = .ok p ↔ ∃ c, Config.ofDocument text = .ok c ∧ create c = .ok p

/-- Every document is decided so. -/
theorem decidesDocument (text : String) : DecidesDocument text := by
  rcases hdoc : Config.ofDocument text with d | c
  · have h : ofDocument text = .error (.config d) := by rw [ofDocument, hdoc]
    constructor <;> simp [h, hdoc, SetupError.notice]
  · have h : ofDocument text = create c := by rw [ofDocument, hdoc]
    have hc := decides c
    refine ⟨fun words => ?_, fun name supported => ?_, fun reason => ?_, ?_, fun p => ?_⟩
    · rw [h]
      rcases create_cases c with ⟨-, h⟩ | ⟨d, -, -, h⟩ | ⟨m, s, -, -, -, h⟩ <;>
        simp [h, hdoc, SetupError.notice]
    · rw [h, hc.unknownMode_iff]
      simp [hdoc]
    · rw [h, hc.geometry_iff]
      simp [hdoc]
    · rw [h, hc.exists_iff]
      simp [hdoc]
    · rw [h]
      simp [hdoc]

end Predictor

/-! ## Programs -/

namespace Launch

open Predictor (told)

/-- A program goes on with the predictor of the configuration. If there is none, it ends with
    the status `1` and reports why, along with all modes if the mode does not exist. -/
structure FollowsFrom (c : Config) (l : Launch) : Prop where
  started_iff : ∀ p, l = .started p ↔ Predictor.create c = .ok p
  ended_iff : (∃ e, l = .ended e) ↔ ∃ n, told (Predictor.create c) = .error n
  exitStatus_eq : ∀ n, told (Predictor.create c) = .error n → l.exitStatus = 1
  report_unknownMode : ∀ name supported,
    told (Predictor.create c) = .error (.unknownMode name supported) →
    l.report = "\n[!] FATAL: " ++ (Notice.unknownMode name supported).text ++ "\n" ++
      "Supported modes:\n" ++ String.join (Mode.names.map fun name => "\t" ++ name ++ "\n")
  report_geometry : ∀ reason, told (Predictor.create c) = .error (.invalidGeometry reason) →
    l.report = "\n[!] FATAL: " ++ (Notice.invalidGeometry reason).text ++ "\n"

/-- Asking for the predictor of a configuration goes on so. -/
theorem followsFrom_ofConfig (c : Config) : FollowsFrom c (ofConfig c) := by
  rcases h : Predictor.create c with e | p
  · have hl : ofConfig c = .ended e := by rw [ofConfig, h]
    have htold : told (Predictor.create c) = .error e.notice := by
      rw [h, Predictor.told_error]
    have hreport : (ofConfig c).report =
        "\n[!] FATAL: " ++ e.notice.text ++ "\n" ++ choices e.notice := by
      rw [hl]
      rfl
    refine ⟨fun p => ?_, ?_, fun n _ => ?_, fun name supported hn => ?_, fun reason hn => ?_⟩
    · simp only [hl, h, reduceCtorEq]
    · exact ⟨fun _ => ⟨_, htold⟩, fun _ => ⟨e, hl⟩⟩
    · rw [hl]
      rfl
    · obtain ⟨-, -, rfl⟩ := ((Predictor.decides c).unknownMode_iff name supported).1 hn
      rw [htold, Except.error.injEq] at hn
      rw [hreport, hn]
      exact String.append_assoc.symm
    · rw [htold, Except.error.injEq] at hn
      rw [hreport, hn]
      exact String.append_empty
  · have hl : ofConfig c = .started p := by rw [ofConfig, h]
    constructor <;> simp [h, hl]

/-- Every configuration and every document is decided by the first thing that is wrong with it,
    and so is how a program goes on that asks for a predictor, in whatever way it asks. -/
theorem setup_is_decided :
    (∀ c, Predictor.Decides c) ∧ (∀ text, Predictor.DecidesDocument text) ∧
      (∀ c, FollowsFrom c (ofConfig c)) ∧
      (∀ mode size ways bits,
        FollowsFrom ⟨mode, size, ways, bits⟩ (createWithBits mode size ways bits)) ∧
      ∀ mode size ways, FollowsFrom ⟨mode, size, ways, 32⟩ (create mode size ways) :=
  ⟨Predictor.decides, Predictor.decidesDocument, followsFrom_ofConfig,
    fun _ _ _ _ => followsFrom_ofConfig _, fun _ _ _ => followsFrom_ofConfig _⟩

end Launch

end BranchPrediction
