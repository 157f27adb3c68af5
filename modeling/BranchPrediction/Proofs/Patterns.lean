import BranchPrediction.Proofs.Histories
import BranchPrediction.Proofs.Mispredictions

/-!
# Patterns

With the two-level scheme, a branch is as many branches as there are histories, each of them
predicted by a two-bit counter that only has the outcomes after its history. What the scheme
misses is what all these counters miss (`misses_eq_sum`). The same holds of every rule that
guesses an outcome from the history before it, where each history is given a fixed direction.

So the bound for a single counter adds up: the scheme misses no more than twice what the rule
does, and one outcome for each history after which the rule guesses *taken*. If a branch follows a
rule from some outcome on, as one with a repeated pattern does, then the scheme misses a
number of outcomes that does not depend on how many there are (`bounded_by_any_rule`), and in the
end it misses none.
-/

namespace BranchPrediction

/-- From number `n` on, every outcome follows from the `n` outcomes before it by the given rule. -/
def FollowsRule (n : Nat) (rule : List Bool → Bool) (os : List Bool) : Prop :=
  ∀ t, n ≤ t → t < os.length → os[t]? = some (rule ((os.take t).rtake n))

/-- The first `t` elements of a series. -/
def beginning (s : Nat → Bool) (t : Nat) : List Bool := (List.range t).map s

variable {n : Nat} {os : List Bool} {k : PatternLength}

/-- What is guessed for each history by itself is missed for each history by itself. -/
theorem misses_eq_sum (n : Nat) (guess : Nat → List Bool → Bool) (os : List Bool) :
    misses (fun past => guess (pack (lastOutcomes n past))
        (outcomesAfter n (pack (lastOutcomes n past)) past)) os =
      ∑ h ∈ Finset.range (2 ^ n), misses (guess h) (outcomesAfter n h os) := by
  induction os using List.reverseRecOn with
  | nil => exact (Finset.sum_eq_zero fun _ _ => rfl).symm
  | append_singleton os o ih =>
    have hnow := Finset.mem_range.2 (pack_lastOutcomes_lt n os)
    have hterm : ∀ h, misses (guess h) (outcomesAfter n h (os ++ [o])) =
        misses (guess h) (outcomesAfter n h os) + if h = pack (lastOutcomes n os) then
          if guess h (outcomesAfter n h os) = o then 0 else 1 else 0 := by
      intro h
      rw [outcomesAfter_concat]
      by_cases hh : h = pack (lastOutcomes n os)
      · rw [if_pos hh.symm, if_pos hh, misses_concat]
      · rw [if_neg (Ne.symm hh), if_neg hh, List.append_nil, Nat.add_zero]
    rw [misses_concat, ih, Finset.sum_congr rfl fun h _ => hterm h, Finset.sum_add_distrib,
      Finset.sum_ite_eq', if_pos hnow]

/-- A two-level branch is predicted as a two-bit branch that has had the outcomes after the
    present history. -/
theorem guess_twoLevel (k : PatternLength) (pc : Address) (target : Option Address) :
    Scheme.guess (TwoLevel k) pc target = fun past =>
      Scheme.guess TwoBit pc target (outcomesAfter k.bits (pack (lastOutcomes k.bits past)) past) :=
  funext fun past => TwoLevel.predict_trainAll k pc target past

/-- Each history adds the doubt of its counter, which is one outcome if the rule guesses *taken*. -/
theorem misses_twoLevel_le (k : PatternLength) (pc : Address) (target : Option Address)
    (f : Nat → Bool) (os : List Bool) :
    misses (Scheme.guess (TwoLevel k) pc target) os ≤
      2 * misses (fun past => f (pack (lastOutcomes k.bits past))) os +
        Nat.count (fun h => f h = true) (2 ^ k.bits) := by
  have hdoubt : ∀ h, (Scheme.initial : TwoBit).doubt (f h) = if f h = true then 1 else 0 := by
    intro h
    cases f h <;> rfl
  calc misses (Scheme.guess (TwoLevel k) pc target) os
      = ∑ h ∈ Finset.range (2 ^ k.bits),
          misses (Scheme.guess TwoBit pc target) (outcomesAfter k.bits h os) := by
        rw [guess_twoLevel]
        exact misses_eq_sum k.bits (fun _ => Scheme.guess TwoBit pc target) os
    _ ≤ ∑ h ∈ Finset.range (2 ^ k.bits), (2 * misses (fun _ => f h) (outcomesAfter k.bits h os) +
          if f h = true then 1 else 0) := by
        refine Finset.sum_le_sum fun h _ => ?_
        rw [← hdoubt]
        exact (Nat.le_add_right _ _).trans (TwoBit.isDoubt_doubt.misses_add_le (f h) pc target _)
    _ = 2 * misses (fun past => f (pack (lastOutcomes k.bits past))) os +
          Nat.count (fun h => f h = true) (2 ^ k.bits) := by
        rw [Finset.sum_add_distrib, ← Finset.mul_sum, ← Finset.card_filter,
          ← Nat.count_eq_card_filter_range, ← misses_eq_sum k.bits (fun h _ => f h)]

/-- A rule for outcomes is a rule for the histories that they are packed into. -/
theorem exists_forall_pack_eq (n : Nat) (rule : List Bool → Bool) :
    ∃ f : Nat → Bool, ∀ os : List Bool, os.length = n → f (pack os) = rule os := by
  classical
  refine ⟨fun h => decide (∃ os, os.length = n ∧ pack os = h ∧ rule os = true), fun os hos => ?_⟩
  rw [Bool.eq_iff_iff, decide_eq_true_iff]
  constructor
  · rintro ⟨os', hos', hpack, hrule⟩
    rw [← pack_inj (hos'.trans hos.symm) hpack]
    exact hrule
  · intro hrule
    exact ⟨os, hos, rfl, hrule⟩

/-- Where the outcomes follow a rule, few are missed, however many there are. -/
theorem FollowsRule.misses_guess_le {rule : List Bool → Bool} (h : FollowsRule k.bits rule os)
    (pc : Address) (target : Option Address) :
    misses (Scheme.guess (TwoLevel k) pc target) os ≤ 2 * k.bits + 2 ^ k.bits := by
  obtain ⟨f, hf⟩ := exists_forall_pack_eq k.bits rule
  have hfew : misses (fun past => f (pack (lastOutcomes k.bits past))) os ≤ k.bits := by
    refine misses_le fun t hle hlt => ?_
    have hlength : k.bits ≤ (os.take t).length := by
      rw [List.length_take]
      omega
    rw [h t hle hlt, hf _ (length_lastOutcomes _ _), lastOutcomes_of_le hlength]
  calc misses (Scheme.guess (TwoLevel k) pc target) os
      ≤ 2 * misses (fun past => f (pack (lastOutcomes k.bits past))) os +
          Nat.count (fun h => f h = true) (2 ^ k.bits) := misses_twoLevel_le k pc target f os
    _ ≤ 2 * k.bits + 2 ^ k.bits := Nat.add_le_add (Nat.mul_le_mul_left 2 hfew) (Nat.count_le _)

/-! ## Series -/

/-- A series goes on with its next element. -/
theorem beginning_succ (s : Nat → Bool) (t : Nat) :
    beginning s (t + 1) = beginning s t ++ [s t] := by
  rw [beginning, List.range_succ, List.map_append, List.map_singleton, beginning]

/-- What is missed of a series, element by element. -/
theorem misses_beginning (guess : List Bool → Bool) (s : Nat → Bool) (t : Nat) :
    misses guess (beginning s t) = Nat.count (fun i => guess (beginning s i) ≠ s i) t := by
  induction t with
  | zero => rfl
  | succ t ih =>
    rw [beginning_succ, misses_concat, ih, Nat.count_succ]
    simp only [ne_eq, ite_not]

/-- If every element of a series follows from the `n` elements before it, then its outcomes
    do. -/
theorem followsRule_beginning {rule : List Bool → Bool} {s : Nat → Bool}
    (h : ∀ t, s (t + n) = rule ((List.range n).map fun i => s (t + i))) (m : Nat) :
    FollowsRule n rule (beginning s m) := by
  intro t hle hlt
  obtain ⟨t, rfl⟩ := Nat.exists_eq_add_of_le' hle
  rw [beginning, List.length_map, List.length_range] at hlt
  have hwindow : ((beginning s m).take (t + n)).rtake n =
      (List.range n).map fun i => s (t + i) := by
    rw [beginning, ← List.map_take, List.take_range, Nat.min_eq_left hlt.le, List.rtake,
      List.length_map, List.length_range, Nat.add_sub_cancel, List.range_add, List.map_append,
      List.drop_left' (by rw [List.length_map, List.length_range]), List.map_map]
    rfl
  rw [hwindow, ← h, beginning, List.getElem?_map, List.getElem?_range hlt, Option.map_some]

/-- What happens a bounded number of times happens no more in the end. -/
theorem exists_forall_not_of_count_le {p : Nat → Prop} [DecidablePred p] {b : Nat}
    (h : ∀ t, Nat.count p t ≤ b) : ∃ start, ∀ t, start ≤ t → ¬p t := by
  by_contra hnever
  push Not at hnever
  have hinfinite : {t | p t}.Infinite :=
    Nat.frequently_atTop_iff_infinite.1 (Filter.frequently_atTop.2 hnever)
  have hcount := h (Nat.nth p (b + 1))
  rw [Nat.count_nth_of_infinite hinfinite] at hcount
  omega

/-- The two-level scheme with histories of any length misses no more than twice as many outcomes
    as any rule that guesses them from the histories, and one for each history after which the
    rule guesses *taken*. If, from some outcome on, every outcome follows from as many before it as
    a history has, then the scheme misses no more of them than are given by the length of the
    histories, and of a series that goes on so, it predicts all outcomes from some time on. -/
theorem bounded_by_any_rule (k : PatternLength) (pc : Address) (target : Option Address) :
    (∀ (f : Nat → Bool) (os : List Bool),
      misses (Scheme.guess (TwoLevel k) pc target) os ≤
        2 * misses (fun past => f (pack (lastOutcomes k.bits past))) os +
          Nat.count (fun h => f h = true) (2 ^ k.bits)) ∧
    (∀ (rule : List Bool → Bool) (os : List Bool), FollowsRule k.bits rule os →
      misses (Scheme.guess (TwoLevel k) pc target) os ≤ 2 * k.bits + 2 ^ k.bits) ∧
    ∀ (rule : List Bool → Bool) (s : Nat → Bool),
      (∀ t, s (t + k.bits) = rule ((List.range k.bits).map fun i => s (t + i))) →
        ∃ start, ∀ t, start ≤ t → Scheme.guess (TwoLevel k) pc target (beginning s t) = s t := by
  refine ⟨misses_twoLevel_le k pc target, fun rule os h => h.misses_guess_le pc target, ?_⟩
  intro rule s hs
  have hcount : ∀ t, Nat.count
      (fun i => Scheme.guess (TwoLevel k) pc target (beginning s i) ≠ s i) t ≤
        2 * k.bits + 2 ^ k.bits := by
    intro t
    rw [← misses_beginning]
    exact (followsRule_beginning hs t).misses_guess_le pc target
  obtain ⟨start, hstart⟩ := exists_forall_not_of_count_le hcount
  exact ⟨start, fun t ht => not_not.1 (hstart t ht)⟩

/-- A branch that is taken twice and then not, over and over, is predicted from its last two
    outcomes, whatever these are taken for in the beginning. -/
theorem bounded_by_any_rule_period_three :
    let s : Nat → Bool := fun t => decide (t % 3 ≠ 2)
    let rule : List Bool → Bool := fun last => decide (last ≠ [true, true])
    (FollowsRule 2 rule (beginning s 60) ∧
      misses (Scheme.guess (TwoLevel { bits := 2 }) 0 none) (beginning s 60) ≤ 2 * 2 + 2 ^ 2) ∧
    (∀ t, s (t + 2) = rule ((List.range 2).map fun i => s (t + i))) ∧
      ∃ start, ∀ t, start ≤ t →
        Scheme.guess (TwoLevel { bits := 2 }) 0 none (beginning s t) = s t := by
  intro s rule
  have hs : ∀ t, s (t + 2) = rule ((List.range 2).map fun i => s (t + i)) := by
    intro t
    have hmod : t % 3 = 0 ∨ t % 3 = 1 ∨ t % 3 = 2 := by omega
    rcases hmod with h | h | h <;> simp [s, rule, List.range_succ, Nat.add_mod, h]
  have hbeginning := followsRule_beginning hs 60
  obtain ⟨-, hfinite, hseries⟩ := bounded_by_any_rule { bits := 2 } 0 none
  exact ⟨⟨hbeginning, hfinite rule _ hbeginning⟩, hs, hseries rule s hs⟩

end BranchPrediction
