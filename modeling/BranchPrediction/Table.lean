import BranchPrediction.Entry
import BranchPrediction.Grid
import BranchPrediction.Store.TagArray

/-!
# Prediction tables

A table keeps an entry per way and set, and an address store that says which
of them belongs to an address.

* A *query* peeks for the address, so it leaves no trace in the replacement
  order. An address without a place falls through.
* *Training* looks the address up. One without a place is inserted, which may
  take the place of another branch; the entry there is reset and seeded
  before it learns the outcome, so nothing of the other branch is left. This is
  an `Allocation`.

A table takes what its store answers at its word: a way or a set that the
table does not have is a fault.
-/

namespace BranchPrediction

/-- A table for the scheme `D`, addressed through the store `S`. -/
structure Table (D S : Type) where
  cells : Grid (Entry D)
  store : S

/-- An entry was given to an address. -/
structure Allocation where
  /-- The address. -/
  pc : Address
  set : Nat
  way : Nat
  /-- Whether something was known of another branch there. -/
  evicted : Bool
  deriving DecidableEq

/-- What is logged of an allocation. -/
def Allocation.message : String := "allocating predictor entry"

namespace Table

/-- The bytes that one tag of a predictor covers: those of an instruction. -/
def lineSize : Nat := 4

variable {D S : Type}

/-- A table over a store, with cold entries. The number of ways and sets should
    cover every place that the store can answer. -/
def ofStore (store : S) (ways sets : Nat) : Table D S := ⟨.replicate ways sets .cold, store⟩

/-- A table with the entry per tag of a tag array that gives up the least
    recently used way. -/
def ofShape (shape : Shape) : Table D (TagArray Lru) :=
  ofStore (.lru shape) shape.ways shape.sets

/-- The geometry of the tag array of a predictor. -/
def geometry (sizeInEntries ways addressBits : Nat) : Geometry :=
  { sizeInEntries, ways, lineSize, addressBits }

/-- A table of so many entries, if its geometry is accepted. -/
def new (sizeInEntries ways addressBits : Nat) :
    Except Geometry.Defect (Table D (TagArray Lru)) :=
  (geometry sizeInEntries ways addressBits).shape.map ofShape

/-- An action of the store. -/
def onStore {α : Type} (x : Action S α) : Action (Table D S) α := fun ⟨cells, store⟩ =>
  x.within store (⟨cells, ·⟩)

/-- An action of the store changes nothing but the store. -/
@[simp] theorem run_onStore {α : Type} (x : Action S α) (t : Table D S) :
    (onStore x).run t = x.within t.store (⟨t.cells, ·⟩) := rfl

/-- The entry of a way of a set. -/
def entry (way set : Nat) : Action (Table D S) (Entry D) := do
  match (← get).cells.get? way set with
  | some e => return e
  | none => throw (.cellOutOfRange way set)

/-- Changes the entry of a way of a set. -/
def modifyEntry (way set : Nat) (f : Entry D → Entry D) : Action (Table D S) Unit := do
  let _ ← entry way set
  modify fun ⟨cells, store⟩ => ⟨cells.modify way set f, store⟩

/-- To read an entry leaves everything as it is. -/
theorem run_entry (way set : Nat) (t : Table D S) :
    (entry way set).run t = match t.cells.get? way set with
      | some e => .ok e t
      | none => .error (.cellOutOfRange way set) t := by
  simp only [entry, EStateM.run_bind, EStateM.run_get]
  cases t.cells.get? way set <;> rfl

/-- An entry is changed if there is one at the place. -/
theorem run_modifyEntry (way set : Nat) (f : Entry D → Entry D) (t : Table D S) :
    (modifyEntry way set f).run t = match t.cells.get? way set with
      | some _ => .ok () ⟨t.cells.modify way set f, t.store⟩
      | none => .error (.cellOutOfRange way set) t := by
  simp only [modifyEntry, EStateM.run_bind, run_entry]
  cases t.cells.get? way set <;> rfl

variable [AddressStore S]

/-- The entry of an address that has one. -/
def resident (pc : Address) : Action (Table D S) (Option (Entry D)) := do
  match ← onStore (AddressStore.peek pc) with
  | none => return none
  | some way => some <$> entry way (AddressStore.setIndex (← get).store pc)

variable [Scheme D]

/-- What an address is predicted to do, given its entry if it has one. -/
def predict (pc : Address) (entry : Option (Entry D)) : Prediction :=
  match entry with
  | none => .fallsThrough pc
  | some e =>
    if e.predictTaken pc then ⟨pc, true, e.target?.getD (fallthrough pc)⟩
    else .fallsThrough pc

/-- What the branch at `pc` is predicted to do. -/
def info (pc : Address) : Action (Table D S) Prediction := predict pc <$> resident pc

/-- Whether the branch at `pc` is predicted to be taken. -/
def isTaken (pc : Address) : Action (Table D S) Bool := Prediction.taken <$> info pc

/-- Where to continue fetching after `pc`. -/
def target (pc : Address) : Action (Table D S) Address := Prediction.target <$> info pc

/-- Learns an outcome. -/
def update (o : Outcome) : Action (Table D S) (Option Allocation) := do
  let set := AddressStore.setIndex (← get).store o.pc
  match ← onStore (AddressStore.lookup o.pc) with
  | some way =>
    modifyEntry way set (Entry.train o.taken o.target)
    return none
  | none =>
    let way ← onStore (AddressStore.insert o.pc)
    let old ← entry way set
    modifyEntry way set fun e => e.reset.seed o.target |>.train o.taken o.target
    return some { pc := o.pc, set, way, evicted := !old.isCold }

end Table

end BranchPrediction
