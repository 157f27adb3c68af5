/-!
# Grids

A grid holds a value per way and set. To change it at one place is to change
what `get?` answers there and nowhere else (`get?_modify`), so the places of a
grid stay what they were when it was made (`isSome_get?_modify`).
-/

namespace BranchPrediction

/-- A value per way and set. -/
structure Grid (α : Type) where
  /-- The values by way, then by set. -/
  rows : Array (Array α)

namespace Grid

variable {α : Type}

/-- The grid that holds the same value everywhere. -/
def replicate (ways sets : Nat) (a : α) : Grid α := ⟨.replicate ways (.replicate sets a)⟩

/-- The value at a place of the grid. -/
def get? (g : Grid α) (way set : Nat) : Option α := g.rows[way]?.bind (·[set]?)

/-- Changes the value at a place of the grid, if there is one. -/
def modify (g : Grid α) (way set : Nat) (f : α → α) : Grid α :=
  ⟨g.rows.modify way (·.modify set f)⟩

/-- A new grid holds its value at every place it has. -/
theorem get?_replicate (ways sets : Nat) (a : α) (way set : Nat) :
    (replicate ways sets a).get? way set = if way < ways ∧ set < sets then some a else none := by
  by_cases hw : way < ways <;> by_cases hs : set < sets <;>
    simp [replicate, get?, hw, hs]

/-- What is changed is the value at the place, and nothing else. -/
theorem get?_modify (g : Grid α) (way set : Nat) (f : α → α) (way' set' : Nat) :
    (g.modify way set f).get? way' set' =
      if way = way' ∧ set = set' then (g.get? way' set').map f else g.get? way' set' := by
  by_cases hw : way = way' <;> by_cases hs : set = set' <;>
    cases h : g.rows[way']? <;> simp [modify, get?, Array.getElem?_modify, hw, hs, h]

/-- A change adds no place and removes none. -/
@[simp] theorem isSome_get?_modify (g : Grid α) (way set : Nat) (f : α → α) (way' set' : Nat) :
    ((g.modify way set f).get? way' set').isSome = (g.get? way' set').isSome := by
  rw [get?_modify]
  split <;> simp

end Grid

end BranchPrediction
