import BranchPrediction.Proofs.Run
import BranchPrediction.Replacement

/-!
# Policies within their range

A tag array of so many sets and ways asks its replacement policy for victims of
its own sets, and tells it of touches of its own ways. What matters of a policy
is therefore what it does in the states that such calls lead to
(`Replacement.Reachable`): the policy is *in range* if every victim that it
names there is a way of a set (`Replacement.InRange`). A touch may still end in
a fault of the policy's own (`Replacement.TouchFault`), as nothing else is asked
of it.
-/

namespace BranchPrediction.Replacement

variable {P : Type} [Replacement P] {sets ways : Nat} {p q q' : P} {set way : Nat}

/-- The states that a policy comes to from `p` by calls for the given sets and
    ways. -/
inductive Reachable (sets ways : Nat) (p : P) : P → Prop
  | refl : Reachable sets ways p p
  | touch {q q' : P} {set way : Nat} : Reachable sets ways p q → set < sets → way < ways →
      (Replacement.touch set way).run q = .ok () q' → Reachable sets ways p q'
  | victim {q q' : P} {set way : Nat} : Reachable sets ways p q → set < sets →
      (Replacement.victim set).run q = .ok way q' → Reachable sets ways p q'

/-- From `p` on, a victim is always named, and it is a way of a set. -/
def InRange (sets ways : Nat) (p : P) : Prop :=
  ∀ q, Reachable sets ways p q → ∀ set < sets,
    (victim set).Ensures q (fun way _ => way < ways) fun _ _ => False

/-- The policy comes from `p` to a state in which a touch ends in the fault `f`
    and leaves the state `q'`. -/
def TouchFault (sets ways : Nat) (p : P) (f : Fault) (q' : P) : Prop :=
  ∃ q set way, Reachable sets ways p q ∧ set < sets ∧ way < ways ∧
    (touch set way).run q = .error f q'

/-- A victim in range is a way of a set, and the policy goes on from there. -/
theorem InRange.victim (hp : InRange sets ways p) (hq : Reachable sets ways p q)
    (hset : set < sets) :
    (Replacement.victim set).Ensures q (fun way q' => way < ways ∧ Reachable sets ways p q')
      fun _ _ => False :=
  Action.ensures_iff.2 ⟨fun _ _ hr => ⟨(hp q hq set hset).of_ok hr, hq.victim hset hr⟩,
    fun _ _ hr => (hp q hq set hset).of_error hr⟩

/-- The policy goes on from a touch, unless the touch is what it fails at. -/
theorem Reachable.ensures_touch (hq : Reachable sets ways p q) (hset : set < sets)
    (hway : way < ways) :
    (Replacement.touch set way).Ensures q (fun _ q' => Reachable sets ways p q')
      (TouchFault sets ways p) :=
  Action.ensures_iff.2 ⟨fun _ _ hr => hq.touch hset hway hr,
    fun _ _ hr => ⟨q, set, way, hq, hset, hway, hr⟩⟩

end BranchPrediction.Replacement
