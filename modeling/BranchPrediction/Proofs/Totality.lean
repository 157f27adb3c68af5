import BranchPrediction.Predictor
import BranchPrediction.Proofs.StackDistance

/-!
# Totality

Only setting a predictor up can fail. Once it has been set up, it answers every
`Request`, in any order and with any addresses, as long as the bytes that one way covers
are a word of 64 bits (`Predictor.requests_are_answered`).

The actions of a table fault wherever they reach beyond what a component holds. That
they never do so has two sides. The table stays coupled to the outcomes that it has been
trained with, whatever it is asked (`Table.Coupled.ensures_answer`). And from a coupled
table, nothing can be reached that is not there: sets are numbers below that of the sets,
ways below that of the ways, and all components have room for these
(`Table.Coupled.inBounds`).
-/

namespace BranchPrediction

/-- What can be asked of a predictor that has been set up. -/
inductive Request
  | update (o : Outcome)
  | info (pc : Address)
  | isTaken (pc : Address)
  | target (pc : Address)
  deriving DecidableEq

/-- What is answered. -/
inductive Answer
  | allocation (a : Option Allocation)
  | prediction (p : Prediction)
  | direction (taken : Bool)
  | target (a : Address)
  deriving DecidableEq

namespace Table

/-! ## Requests -/

section

variable {D S : Type} [Scheme D] [AddressStore S]

/-- Answers a request. -/
def answer : Request → Action (Table D S) Answer
  | .update o => .allocation <$> update o
  | .info pc => .prediction <$> info pc
  | .isTaken pc => .direction <$> isTaken pc
  | .target pc => .target <$> target pc

end

variable {D : Type} [Scheme D] {shape : Shape} {log : Log} {t : Table D (TagArray Lru)}

section

variable (ht : Coupled shape (Lru.new shape.sets shape.ways) log t)
  (hstride : shape.stride < UInt64.size)
include ht hstride

/-- A prediction is always made, and changes nothing. -/
theorem Coupled.exists_run_info (pc : Address) : ∃ p, (info pc).run t = .ok p t := by
  obtain ⟨r, hr, -⟩ := ht.exists_run_resident hstride pc
  exact ⟨_, run_info hr⟩

/-- Every request is answered, and leaves the table coupled. -/
theorem Coupled.ensures_answer (r : Request) :
    (answer r).Ensures t
      (fun _ t' => ∃ log', Coupled shape (Lru.new shape.sets shape.ways) log' t')
      fun _ _ => False := by
  have hinfo (pc : Address) : (info pc).Ensures t
      (fun _ t' => ∃ log', Coupled shape (Lru.new shape.sets shape.ways) log' t')
      fun _ _ => False := by
    obtain ⟨p, hp⟩ := ht.exists_run_info hstride pc
    rw [Action.Ensures, hp]
    exact ⟨log, ht⟩
  cases r with
  | update o =>
    have hp := Lru.inRange_new shape.sets shape.ways_pos
    exact Action.ensures_map.2 ((ht.ensures_update hstride hp o).mono (fun _ _ h => ⟨_, h.2⟩)
      fun _ _ hf => Lru.not_touchFault hf)
  | info pc => exact Action.ensures_map.2 (hinfo pc)
  | isTaken pc => exact Action.ensures_map.2 (Action.ensures_map.2 (hinfo pc))
  | target pc => exact Action.ensures_map.2 (Action.ensures_map.2 (hinfo pc))

end

/-! ## Bounds -/

/-- A table of so many sets and ways, from which nothing can be reached that is not
    there. -/
structure InBounds (sets ways : Nat) (t : Table D (TagArray Lru)) : Prop where
  sets_eq : t.store.shape.sets = sets
  ways_eq : t.store.shape.ways = ways
  /-- Nothing is divided by zero. -/
  lineSize_pos : 0 < t.store.shape.lineSize
  sets_pos : 0 < sets
  stride_pos : 0 < t.store.shape.stride
  /-- The bytes that one way covers are a word, and the tag of every address exists. -/
  stride_lt : t.store.shape.stride < UInt64.size
  tag_ok : ∀ pc, ∃ tag, t.store.shape.tag pc = .ok tag
  setIndex_lt : ∀ pc, AddressStore.setIndex t.store pc < sets
  /-- The ways of a set are slots, and their numbers are words. -/
  row_le : ∀ set < sets, set * ways + ways ≤ t.store.slots.toArray.size
  slot_lt : ∀ set < sets, ∀ way < ways, t.store.slot set way < t.store.slots.toArray.size
  slots_lt : t.store.slots.toArray.size < UInt64.size
  /-- Every set has a usage stack, and an entry in each way. -/
  usage_lt : ∀ set < sets, set < t.store.policy.usage.size
  exists_entry : ∀ way < ways, ∀ set < sets, ∃ e, t.cells.get? way set = some e
  /-- Only ways of a set are answered or given up. -/
  peek_lt : ∀ pc, (AddressStore.peek pc).Ensures t.store (fun r _ => ∀ way ∈ r, way < ways)
    fun _ _ => False
  lookup_lt : ∀ pc, (AddressStore.lookup pc).Ensures t.store (fun r _ => ∀ way ∈ r, way < ways)
    fun _ _ => False
  victim_lt : ∀ set < sets, (Replacement.victim set).Ensures t.store.policy
    (fun way _ => way < ways) fun _ _ => False
  insert_lt : ∀ pc, (AddressStore.insert pc).Ensures t.store (fun way _ => way < ways)
    fun _ _ => False

/-- A coupled table keeps within its bounds. -/
theorem Coupled.inBounds (ht : Coupled shape (Lru.new shape.sets shape.ways) log t)
    (hstride : shape.stride < UInt64.size) (hslots : shape.slots < UInt64.size) :
    InBounds shape.sets shape.ways t := by
  obtain rfl := ht.inOrder.shape_eq
  have hp := Lru.inRange_new t.store.shape.sets t.store.shape.ways_pos
  have hstacked := Lru.stacked_of_reachable ht.inOrder.reachable
  have hstore := ht.inOrder.inBounds hp
  have hsize : t.store.slots.toArray.size = t.store.shape.slots := t.store.slots.size_toArray
  have hcall (c : AddressStore.Call) : (AddressStore.perform c).Ensures t.store
      (fun r _ => ∀ way ∈ r, way < t.store.shape.ways) fun _ _ => False :=
    (ht.inOrder.ensures_perform hstride hp c).mono (fun _ _ h => h.1)
      fun _ _ hf => Lru.not_touchFault hf
  exact {
    sets_eq := rfl
    ways_eq := rfl
    lineSize_pos := hstore.lineSize_pos
    sets_pos := hstore.sets_pos
    stride_pos := Nat.mul_pos hstore.lineSize_pos hstore.sets_pos
    stride_lt := hstride
    tag_ok := fun pc => ⟨_, t.store.shape.tag_eq hstride pc⟩
    setIndex_lt := hstore.setIndex_lt
    row_le := hstore.row_le
    slot_lt := fun set hset way hway => (TagArray.slot_lt hset hway).trans_eq hsize.symm
    slots_lt := hsize.trans_lt hslots
    usage_lt := fun set hset => hstacked.size_eq.symm ▸ hset
    exists_entry := fun way hway set hset => ht.exists_entry hset hway
    peek_lt := fun pc => hcall (.peek pc)
    lookup_lt := fun pc => hcall (.lookup pc)
    victim_lt := hstore.victim_lt
    insert_lt := fun pc =>
      (Action.ensures_map.1 (hcall (.insert pc))).mono (fun way _ h => h way rfl) fun _ _ hf => hf }

end Table

/-- The history of a branch, where the scheme keeps one, has a counter. -/
def Mode.HistoryInBounds : (m : Mode) → m.State → Prop
  | .twoLevel, (d : TwoLevel modePatternLength) => d.history.toNat < d.counters.toArray.size
  | _, _ => True

/-- No state has a history without a counter. -/
theorem Mode.historyInBounds (m : Mode) (d : m.State) : m.HistoryInBounds d := by
  cases m with
  | twoLevel =>
    have hsize : d.counters.toArray.size = counterCount := d.counters.size_toArray
    exact (TwoLevel.history_lt d).trans_eq hsize.symm
  | _ => trivial

namespace Predictor

variable {c : Config} {p : Predictor}

/-- Answers a request. -/
def answer : Request → Action Predictor Answer
  | .update o => .allocation <$> update o
  | .info pc => .prediction <$> info pc
  | .isTaken pc => .direction <$> isTaken pc
  | .target pc => .target <$> target pc

/-- To rename the answer of a table is to rename that of the predictor. -/
theorem map_onTable {α β : Type} (f : α → β)
    (x : (m : Mode) → Action (Table m.State (TagArray Lru)) α) :
    f <$> onTable x = onTable fun m => f <$> x m := by
  funext p
  change (f <$> onTable x).run p = (onTable fun m => f <$> x m).run p
  rw [EStateM.run_map, run_onTable, run_onTable, Action.within, Action.within, EStateM.run_map]
  cases (x p.mode).run p.table <;> rfl

/-- A predictor answers as its table does. -/
theorem answer_eq_onTable (r : Request) : answer r = onTable fun _ => Table.answer r := by
  cases r <;> exact map_onTable _ _

/-- What an action of the table ensures for the predictor. -/
theorem ensures_onTable {α : Type} {x : (m : Mode) → Action (Table m.State (TagArray Lru)) α}
    {Q : α → Predictor → Prop} {E : Fault → Predictor → Prop} :
    (onTable x).Ensures p Q E ↔
      (x p.mode).Ensures p.table (fun a t => Q a ⟨p.config, p.mode, t⟩)
        fun f t => E f ⟨p.config, p.mode, t⟩ := by
  rw [Action.Ensures, Action.Ensures, run_onTable, Action.within]
  cases (x p.mode).run p.table <;> rfl

/-! ## Runs -/

/-- A predictor that has been set up has a new table of the mode and the measures that
    were asked for. -/
theorem exists_shape_of_create (hp : create c = .ok p) :
    ∃ mode shape, Mode.ofName? c.mode = some mode ∧ p = ⟨c, mode, Table.ofShape shape⟩ ∧
      shape.sets = c.sizeInEntries.toNat / c.ways.toNat ∧ shape.ways = c.ways.toNat ∧
      shape.lineSize = Table.lineSize := by
  rw [create] at hp
  split at hp
  next => cases hp
  next mode hmode =>
    split at hp
    next table htable =>
      cases hp
      obtain ⟨shape, hshape, rfl⟩ := Table.exists_shape_of_new htable
      obtain ⟨hsets, hways, hline, -⟩ := Geometry.measures_of_shape hshape
      exact ⟨mode, shape, hmode, rfl, hsets, hways, hline⟩
    next => cases hp

/-- After any requests, a new predictor has its configuration and its mode still, and
    its table is coupled. -/
theorem ensures_each_answer {mode : Mode} {shape : Shape} (hstride : shape.stride < UInt64.size)
    (rs : List Request) :
    (Action.each answer rs).Ensures ⟨c, mode, Table.ofShape shape⟩
      (fun log q => log.map Prod.fst = rs ∧ q.config = c ∧ q.mode = mode ∧
        ∃ outcomes, Table.Coupled shape (Lru.new shape.sets shape.ways) outcomes q.table)
      fun _ _ => False := by
  refine Action.Ensures.each ⟨rfl, rfl, [], Table.coupled_ofStore shape _⟩ ?_ rs
  rintro _ q r ⟨hconfig, hmode, outcomes, ht⟩
  rw [answer_eq_onTable]
  exact ensures_onTable.2 ((ht.ensures_answer hstride r).mono
    (fun _ _ ht' => ⟨hconfig, hmode, ht'⟩) fun _ _ hf => hf)

/-- A predictor that has been set up answers every request, whatever it was asked
    before, and keeps within its bounds: those of its sets and ways, and those of the
    counters of every history. All this is as long as the bytes of a way are a word. -/
theorem requests_are_answered (hp : create c = .ok p)
    (hstride : Table.lineSize * (c.sizeInEntries.toNat / c.ways.toNat) < UInt64.size)
    (rs : List Request) :
    (Action.each answer rs).Ensures p
      (fun log q => log.map Prod.fst = rs ∧ q.config = c ∧ Mode.ofName? c.mode = some q.mode ∧
        q.table.InBounds (c.sizeInEntries.toNat / c.ways.toNat) c.ways.toNat ∧
        ∀ way set direction target updates,
          q.table.cells.get? way set = some (.trained direction target updates) →
          q.mode.HistoryInBounds direction)
      fun _ _ => False := by
  obtain ⟨mode, shape, hmode, rfl, hsets, hways, hline⟩ := exists_shape_of_create hp
  rw [← hsets, ← hline] at hstride
  rw [← hsets, ← hways]
  have hslots : shape.slots < UInt64.size := by
    rw [Shape.slots, hsets, hways]
    exact (Nat.div_mul_le_self _ _).trans_lt c.sizeInEntries.toNat_lt
  refine (ensures_each_answer hstride rs).mono (fun log q h => ?_) fun _ _ hf => hf
  obtain ⟨hlog, hconfig, rfl, outcomes, ht⟩ := h
  exact ⟨hlog, hconfig, hmode, ht.inBounds hstride hslots,
    fun _ _ direction _ _ _ => q.mode.historyInBounds direction⟩

/-- Three branches compete for the two ways of a set, and are asked for in between. -/
theorem requests_are_answered_twoLevel :
    ∃ p, create ⟨"adaptive_two_level", 4, 2, 32⟩ = .ok p ∧
      Table.lineSize * ((4 : UInt64).toNat / (2 : UInt64).toNat) < UInt64.size ∧
      (Action.each answer [.update ⟨0, true, 64⟩, .info 0, .update ⟨8, false, 4⟩, .isTaken 8,
        .update ⟨16, true, 0⟩, .target 0]).Ensures p
        (fun log q => log.map Prod.fst = [.update ⟨0, true, 64⟩, .info 0, .update ⟨8, false, 4⟩,
            .isTaken 8, .update ⟨16, true, 0⟩, .target 0] ∧
          q.config = ⟨"adaptive_two_level", 4, 2, 32⟩ ∧
          Mode.ofName? "adaptive_two_level" = some q.mode ∧
          q.table.InBounds ((4 : UInt64).toNat / (2 : UInt64).toNat) (2 : UInt64).toNat ∧
          ∀ way set direction target updates,
            q.table.cells.get? way set = some (.trained direction target updates) →
            q.mode.HistoryInBounds direction)
        fun _ _ => False := by
  have hmode : Mode.ofName? "adaptive_two_level" = some .twoLevel := Mode.ofName?_name .twoLevel
  have hcreate : create ⟨"adaptive_two_level", 4, 2, 32⟩ =
      .ok ⟨⟨"adaptive_two_level", 4, 2, 32⟩, .twoLevel, Table.ofShape .twoByTwo⟩ := by
    rw [create, hmode]
    rfl
  exact ⟨_, hcreate, by decide, requests_are_answered hcreate (by decide) _⟩

end Predictor

end BranchPrediction
