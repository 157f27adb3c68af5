/-!
# Actions

An *action* reads and changes a component, such as a tag array or a table,
and answers a value. It may instead end in a `Fault`: an index beyond what
the component holds, or a number beyond the machine word. What the action did
to the component before the fault is kept, so that `x.run s` is either
`.ok a s'` or `.error f s'`.
-/

namespace BranchPrediction

/-- Why an action could not be carried out. -/
inductive Fault
  /-- The bytes that one way covers do not fit in a word of 64 bits. -/
  | strideOverflow
  /-- There is no tag slot of this number. -/
  | slotOutOfRange (slot : Nat)
  /-- A replacement policy keeps no state for this set. -/
  | setOutOfRange (set : Nat)
  /-- There is no table cell at this place. -/
  | cellOutOfRange (way set : Nat)
  /-- A script without any answer was asked for one. -/
  | unscripted
  deriving DecidableEq

/-- An action on a component of type `σ`. -/
abbrev Action (σ : Type) := EStateM Fault σ

namespace Action

variable {σ τ α : Type}

/-- The action that answers `x` and changes nothing. -/
def ofExcept : Except Fault α → Action σ α
  | .ok a => pure a
  | .error f => throw f

/-- An answer is given. -/
@[simp] theorem run_ofExcept_ok (a : α) (s : σ) : (ofExcept (.ok a)).run s = .ok a s := rfl

/-- A fault ends the action where it is. -/
@[simp] theorem run_ofExcept_error (f : Fault) (s : σ) :
    (ofExcept (.error f) : Action σ α).run s = .error f s := rfl

/-- Carries out an action on the part `t` of a component, which `put` puts back
    in its place. -/
def within (x : Action τ α) (t : τ) (put : τ → σ) : EStateM.Result Fault σ α :=
  match x.run t with
  | .ok a t => .ok a (put t)
  | .error f t => .error f (put t)

/-- The part that the action leaves is put back. -/
theorem within_of_ok {x : Action τ α} {t t' : τ} {a : α} (h : x.run t = .ok a t') (put : τ → σ) :
    x.within t put = .ok a (put t') := by
  rw [within, h]

/-- The part is also put back as a fault left it. -/
theorem within_of_error {x : Action τ α} {t t' : τ} {f : Fault} (h : x.run t = .error f t')
    (put : τ → σ) : x.within t put = .error f (put t') := by
  rw [within, h]

end Action

end BranchPrediction
