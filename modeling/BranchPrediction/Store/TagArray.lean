import BranchPrediction.Geometry
import BranchPrediction.Replacement.Lru
import BranchPrediction.Store

/-!
# Tag arrays

A tag array is an address store that keeps a tag per place and nothing else.
The tags lie in a single row of *slots*, set by set: the way `w` of the set
`s` is the slot `s * ways + w`. An address has a way if one of the slots of
its set holds its tag.

An address that is inserted takes the way it has, or else the one its
replacement policy gives up. A policy that gives up a way beyond the last
reaches into the slots of later sets, and past the last slot is a fault.
Every use of a way, by a lookup or an insertion, is reported to the policy.
-/

namespace BranchPrediction

/-- A tag array whose ways are replaced according to `P`. -/
structure TagArray (P : Type) where
  shape : Shape
  /-- The tags, set by set. -/
  slots : Vector (Option Nat) shape.slots
  policy : P

namespace TagArray

variable {P : Type}

/-- The tag array of a shape without any tag. -/
def empty (shape : Shape) (policy : P) : TagArray P := ⟨shape, .replicate _ none, policy⟩

/-- The empty tag array of a geometry, if it is accepted. -/
def ofGeometry (g : Geometry) (policy : P) : Except Geometry.Defect (TagArray P) :=
  g.shape.map fun shape => empty shape policy

/-- The empty tag array of a shape that gives up the least recently used way. -/
def lru (shape : Shape) : TagArray Lru := empty shape (.new shape.sets shape.ways)

/-- The empty tag array of a geometry that gives up the least recently used way,
    if the geometry is accepted. -/
def lruOfGeometry (g : Geometry) : Except Geometry.Defect (TagArray Lru) := do
  ofGeometry g (.new (← g.sets) g.ways)

/-- An accepted geometry gives the tag array of its shape. -/
theorem lruOfGeometry_eq (g : Geometry) : lruOfGeometry g = g.shape.map lru := by
  rw [lruOfGeometry, Geometry.sets]
  cases hs : g.shape with
  | error d => rfl
  | ok s =>
    obtain ⟨-, hways, -⟩ := Geometry.measures_of_shape hs
    change ofGeometry g (.new s.sets g.ways) = .ok (lru s)
    rw [ofGeometry, hs, ← hways]
    rfl

/-- The number of the slot of a way of a set. -/
def slot (t : TagArray P) (set way : Nat) : Nat := set * t.shape.ways + way

/-- The tag in a slot. A number beyond the slots has none. -/
def tagAt (t : TagArray P) (set way : Nat) : Option Nat := (t.slots[t.slot set way]?).join

/-- The first way of a set with a tag. -/
def wayOf (t : TagArray P) (set tag : Nat) : Option Nat :=
  (List.range t.shape.ways).find? fun way => t.tagAt set way = some tag

/-- The way of an address that has one. -/
def find (t : TagArray P) (a : Address) : Except Fault (Option Nat) :=
  t.shape.tag a |>.map (t.wayOf (t.shape.setIndex a))

/-- Puts a tag into a slot. -/
def write (set way tag : Nat) : Action (TagArray P) Unit := fun ⟨shape, slots, policy⟩ =>
  let i := set * shape.ways + way
  if h : i < shape.slots then .ok () ⟨shape, slots.set i (some tag) h, policy⟩
  else .error (.slotOutOfRange i) ⟨shape, slots, policy⟩

/-- An action of the policy. -/
def onPolicy {α : Type} (x : Action P α) : Action (TagArray P) α := fun ⟨shape, slots, policy⟩ =>
  x.within policy (⟨shape, slots, ·⟩)

/-- An action of the policy changes nothing but the policy. -/
@[simp] theorem run_onPolicy {α : Type} (x : Action P α) (t : TagArray P) :
    (onPolicy x).run t = x.within t.policy (⟨t.shape, t.slots, ·⟩) := rfl

/-- The way of an address that has one. -/
def peek (a : Address) : Action (TagArray P) (Option Nat) := do
  Action.ofExcept ((← get).find a)

/-- To peek leaves everything as it is. -/
theorem run_peek (a : Address) (t : TagArray P) :
    (peek a).run t = match t.find a with
      | .ok way => .ok way t
      | .error f => .error f t := by
  simp only [peek, EStateM.run_bind, EStateM.run_get]
  cases t.find a <;> rfl

variable [Replacement P]

/-- The way of an address that has one, which is touched. -/
def lookup (a : Address) : Action (TagArray P) (Option Nat) := do
  let set := (← get).shape.setIndex a
  match ← peek a with
  | none => return none
  | some way =>
    onPolicy (Replacement.touch set way)
    return some way

/-- Gives an address a way, which is touched. -/
def insert (a : Address) : Action (TagArray P) Nat := do
  let shape := (← get).shape
  let set := shape.setIndex a
  let way ← match ← peek a with
    | some way => pure way
    | none => onPolicy (Replacement.victim set)
  write set way (← Action.ofExcept (shape.tag a))
  onPolicy (Replacement.touch set way)
  return way

instance : AddressStore (TagArray P) where
  setIndex t := t.shape.setIndex
  peek := peek
  lookup := lookup
  insert := insert

end TagArray

end BranchPrediction
