import BranchPrediction.Scheme.OneBit
import BranchPrediction.Scheme.TwoBit
import Mathlib

/-!
# Mispredictions

A guess of the next outcome of a branch is made from the outcomes so far, and the number of
outcomes that differ from their guess is what it `misses`. What a scheme predicts is such a guess
(`Scheme.guess`), and so is a fixed direction.

A scheme is compared with a fixed direction by how much it *doubts* the direction, which is the
number of such outcomes that it takes to predict one. Every outcome in this direction that the
scheme misses takes some of the doubt away, and an outcome in the other direction adds to misses
and doubt together two at most (`Scheme.IsDoubt`). So the scheme misses no more than twice what
the direction does, and its doubt in the beginning (`Scheme.IsDoubt.misses_add_le`).

A bit and a two-bit counter both doubt in this way. In the beginning they have no doubt of *not
taken*, and it takes a single outcome to convince them of *taken*, so that neither misses more
than twice what the better one of the two directions does, and perhaps one outcome more
(`bounded_by_fixed_direction`).
-/

namespace BranchPrediction

/-- The number of outcomes that are not what is guessed from the outcomes before. -/
def misses (guess : List Bool → Bool) (os : List Bool) : Nat :=
  Nat.count (fun t => os[t]? ≠ some (guess (os.take t))) os.length

/-- Without outcomes there is nothing to miss. -/
theorem misses_nil (guess : List Bool → Bool) : misses guess [] = 0 := rfl

/-- Outcome number `t` is not what is guessed from the outcomes before. -/
def MissedAt (guess : List Bool → Bool) (os : List Bool) (t : Nat) : Prop :=
  os[t]? ≠ some (guess (os.take t))

instance (guess : List Bool → Bool) (os : List Bool) : DecidablePred (MissedAt guess os) :=
  fun t => inferInstanceAs (Decidable (os[t]? ≠ some (guess (os.take t))))

/-- What is missed is counted outcome by outcome. -/
theorem misses_eq_count (guess : List Bool → Bool) (os : List Bool) :
    misses guess os = Nat.count (MissedAt guess os) os.length := rfl

/-- A number is missed or not, whatever comes after it. -/
theorem missedAt_append_left {guess : List Bool → Bool} {xs ys : List Bool} {t : Nat}
    (ht : t < xs.length) : MissedAt guess (xs ++ ys) t ↔ MissedAt guess xs t := by
  rw [MissedAt, List.take_append_of_le_length ht.le, List.getElem?_append_left ht, MissedAt]

/-- After some outcomes, those that come next are missed or not. -/
theorem misses_append (guess : List Bool → Bool) (xs ys : List Bool) :
    misses guess (xs ++ ys) = misses guess xs +
      Nat.count (fun i => MissedAt guess (xs ++ ys) (xs.length + i)) ys.length := by
  rw [misses_eq_count, List.length_append, Nat.count_add, misses_eq_count]
  refine congrArg (· + _) (List.countP_congr fun t ht => ?_)
  rw [decide_eq_true_iff, decide_eq_true_iff, missedAt_append_left (List.mem_range.1 ht)]

/-- A further outcome is missed or not. -/
theorem misses_concat (guess : List Bool → Bool) (os : List Bool) (o : Bool) :
    misses guess (os ++ [o]) = misses guess os + if guess os = o then 0 else 1 := by
  have hlast : MissedAt guess (os ++ [o]) (os.length + 0) ↔ guess os ≠ o := by
    rw [MissedAt, Nat.add_zero, List.getElem?_concat_length, List.take_left, ne_eq,
      Option.some.injEq, eq_comm]
  rw [misses_append, List.length_singleton, Nat.count_one]
  simp only [hlast, ne_eq, ite_not]

/-- If only the first `n` outcomes can be missed, then no more than `n` are. -/
theorem misses_le {guess : List Bool → Bool} {os : List Bool} {n : Nat}
    (h : ∀ t, n ≤ t → t < os.length → os[t]? = some (guess (os.take t))) :
    misses guess os ≤ n := by
  rcases Nat.le_total os.length n with hle | hle
  · exact (Nat.count_le _).trans hle
  · obtain ⟨m, hm⟩ := Nat.exists_eq_add_of_le hle
    have hrest : Nat.count (fun t => os[n + t]? ≠ some (guess (os.take (n + t)))) m = 0 := by
      refine Nat.count_iff_forall_not.2 fun t ht => not_not.2 (h (n + t) (Nat.le_add_right n t) ?_)
      omega
    rw [misses, hm, Nat.count_add, hrest, Nat.add_zero]
    exact Nat.count_le _

/-- What a scheme predicts of a branch that has had the given outcomes since it was new. -/
def Scheme.guess (D : Type) [Scheme D] (pc : Address) (target : Option Address)
    (past : List Bool) : Bool :=
  Scheme.predict (Scheme.trainAll (Scheme.initial : D) past) pc target

/-- A fixed direction misses the outcomes in the other one. -/
theorem misses_const (direction : Bool) (os : List Bool) :
    misses (fun _ => direction) os = os.count !direction := by
  induction os using List.reverseRecOn with
  | nil => rfl
  | append_singleton os o ih =>
    rw [misses_concat, ih, List.count_append]
    refine congrArg (os.count (!direction) + ·) ?_
    cases direction <;> cases o <;> rfl

namespace Scheme

variable {D : Type} [Scheme D] {doubt : Bool → D → Nat}

/-- The states doubt a direction by the given numbers: an outcome that is missed is paid for by
    the doubt, as long as it is in the direction, and otherwise it is worth two. -/
def IsDoubt (doubt : Bool → D → Nat) : Prop :=
  ∀ (direction : Bool) (pc : Address) (target : Option Address) (d : D) (o : Bool),
    (if predict d pc target = o then 0 else 1) + doubt direction (train d o) ≤
      2 * (if direction = o then 0 else 1) + doubt direction d

/-- A scheme misses twice as many outcomes as a fixed direction at most, and as many more as it
    doubts the direction in the beginning. -/
theorem IsDoubt.misses_add_le (h : IsDoubt doubt) (direction : Bool) (pc : Address)
    (target : Option Address) (os : List Bool) :
    misses (guess D pc target) os + doubt direction (trainAll initial os) ≤
      2 * misses (fun _ => direction) os + doubt direction initial := by
  induction os using List.reverseRecOn with
  | nil => rw [misses_nil, misses_nil, trainAll_nil, Nat.mul_zero]
  | append_singleton os o ih =>
    have hstep := h direction pc target (trainAll initial os) o
    rw [misses_concat, misses_concat, trainAll_append, guess, trainAll_cons, trainAll_nil]
    omega

/-- If a new branch is not expected to be taken, but a single outcome could change that, then the
    scheme can be compared with both directions. -/
theorem IsDoubt.misses_le_min (h : IsDoubt doubt) (hfalse : doubt false initial = 0)
    (htrue : doubt true initial = 1) (pc : Address) (target : Option Address) (os : List Bool) :
    misses (guess D pc target) os ≤ min (2 * os.count true) (2 * os.count false + 1) := by
  have hnotTaken := h.misses_add_le false pc target os
  have htaken := h.misses_add_le true pc target os
  rw [misses_const, hfalse, Bool.not_false] at hnotTaken
  rw [misses_const, htrue, Bool.not_true] at htaken
  exact le_min (by omega) (by omega)

end Scheme

/-- A bit doubts the direction that it is not. -/
def OneBit.doubt (direction : Bool) (d : OneBit) : Nat := if d.taken = direction then 0 else 1

theorem OneBit.isDoubt_doubt : Scheme.IsDoubt OneBit.doubt := by
  rintro direction pc target ⟨taken⟩ o
  change (if taken = o then 0 else 1) + OneBit.doubt direction ⟨o⟩ ≤ _
  cases direction <;> cases o <;> cases taken <;> decide

/-- The number of outcomes in a direction that a counter has to learn to predict it. -/
def TwoBit.doubt (direction : Bool) (c : TwoBit) : Nat :=
  if direction then 2 - c.level else c.level - 1

theorem TwoBit.isDoubt_doubt : Scheme.IsDoubt TwoBit.doubt := by
  intro direction pc target c o
  change (if c.predictsTaken = o then 0 else 1) + (c.update o).doubt direction ≤ _
  cases direction <;> cases o <;> cases c <;> decide

/-- Whatever a branch does, neither a bit nor a two-bit counter misses more of its outcomes than
    twice as many as were taken, nor more than twice as many as were not taken, and one. -/
theorem bounded_by_fixed_direction (pc : Address) (target : Option Address) (os : List Bool) :
    misses (Scheme.guess OneBit pc target) os ≤ min (2 * os.count true) (2 * os.count false + 1) ∧
      misses (Scheme.guess TwoBit pc target) os ≤
        min (2 * os.count true) (2 * os.count false + 1) :=
  ⟨OneBit.isDoubt_doubt.misses_le_min rfl rfl pc target os,
    TwoBit.isDoubt_doubt.misses_le_min rfl rfl pc target os⟩

end BranchPrediction
