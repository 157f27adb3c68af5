import BranchPrediction.Proofs.Mispredictions

/-!
# Loops

The branch that closes a loop is taken once for each iteration, and not taken when the loop is
left. That is an *execution* of the loop (`execution`), and a program executes the loop over and
over, each time with as many iterations as it takes (`executions`).

What is expected within such outcomes, by a bit as well as by a two-bit counter, is *taken* after
the first iteration of an execution. So the exit is always missed, and no iteration is but the first
one. Whether this one, the entry, is missed is all that the schemes differ in
(`missedAt_executions_iff`).

* A bit has always just seen the exit, so it misses every entry.
* A counter is at the same level before every execution, weakly *not taken*, until there is an
  execution with two iterations. Then it reaches the highest level, from which a single exit does
  not turn it away, so it is weakly *taken* before all executions that follow
  (`TwoBit.level_executions`), and misses no further entry.

This gives the exact cost of any number of executions (`exits_and_first_entries_are_missed`).
-/

namespace BranchPrediction

/-- The outcomes of the branch that closes a loop in an execution of `n` iterations. -/
def execution (n : Nat) : List Bool := List.replicate n true ++ [false]

/-- The outcomes in executions of the given numbers of iterations, one after the other. -/
def executions (ns : List Nat) : List Bool := ns.flatMap execution

example : executions [2, 1] = [true, true, false, true, false] := rfl

variable {before after ns : List Nat} {n i : Nat}

theorem length_execution (n : Nat) : (execution n).length = n + 1 := by
  rw [execution, List.length_append, List.length_replicate, List.length_singleton]

theorem executions_append (ns ms : List Nat) :
    executions (ns ++ ms) = executions ns ++ executions ms :=
  List.flatMap_append

theorem executions_concat (ns : List Nat) (n : Nat) :
    executions (ns ++ [n]) = executions ns ++ execution n := by
  rw [executions_append, executions, executions, List.flatMap_singleton]

/-- The branch is taken until the exit. -/
theorem getElem?_execution (hi : i ≤ n) : (execution n)[i]? = some (decide (i < n)) := by
  rcases hi.lt_or_eq with hlt | rfl
  · rw [execution, List.getElem?_append_left (by rwa [List.length_replicate]),
      List.getElem?_replicate, if_pos hlt, decide_eq_true hlt]
  · rw [execution, List.getElem?_append_right (by rw [List.length_replicate]),
      List.length_replicate, Nat.sub_self, decide_eq_false (Nat.lt_irrefl i)]
    rfl

/-- Before the exit the branch was always taken. -/
theorem take_execution (hi : i ≤ n) : (execution n).take i = List.replicate i true := by
  rw [execution, List.take_append_of_le_length (by rwa [List.length_replicate]),
    List.take_replicate, Nat.min_eq_left hi]

/-- What is guessed in an execution is guessed from the executions before, and from the iterations
    so far. -/
theorem missedAt_executions (guess : List Bool → Bool) (hi : i ≤ n) :
    MissedAt guess (executions (before ++ n :: after)) ((executions before).length + i) ↔
      guess (executions before ++ List.replicate i true) ≠ decide (i < n) := by
  have hlt : i < (execution n).length := by
    rw [length_execution]
    omega
  have hsplit : executions (before ++ n :: after) =
      executions before ++ (execution n ++ executions after) := by
    rw [executions_append, executions, executions, executions, List.flatMap_cons]
  rw [MissedAt, hsplit, List.getElem?_append_right (Nat.le_add_right _ _),
    Nat.add_sub_cancel_left, List.getElem?_append_left hlt, getElem?_execution hi,
    List.take_length_add_append, List.take_append_of_le_length hlt.le, take_execution hi, ne_eq,
    Option.some.injEq, eq_comm]

/-! ## Exits and entries -/

section

variable {guess : List Bool → Bool} {ready : Prop} [Decidable ready]

/-- If *taken* is expected after the first iteration, and on entry when the guess is ready for
    it, then the exit is missed, and the entry is missed when the guess is not ready. -/
theorem missedAt_executions_iff
    (h : ∀ i, guess (executions before ++ List.replicate i true) = decide (0 < i ∨ ready))
    (hn : 1 ≤ n) (hi : i ≤ n) :
    MissedAt guess (executions (before ++ n :: after)) ((executions before).length + i) ↔
      i = n ∨ i = 0 ∧ ¬ready := by
  rw [missedAt_executions guess hi, h, ne_eq, decide_eq_decide]
  by_cases hready : ready
  · simp only [hready, or_true, true_iff, not_true, and_false, or_false]
    omega
  · simp only [hready, or_false, not_false_iff, and_true]
    omega

/-- An execution costs its exit, and its entry when the guess is not ready for it. -/
theorem misses_executions_concat
    (h : ∀ i, guess (executions before ++ List.replicate i true) = decide (0 < i ∨ ready))
    (hn : 1 ≤ n) :
    misses guess (executions (before ++ [n])) =
      misses guess (executions before) + if ready then 1 else 2 := by
  have hmissed : ∀ i ∈ List.range (n + 1),
      decide (MissedAt guess (executions before ++ execution n) ((executions before).length + i)) =
        true ↔ decide (i = n ∨ i = 0 ∧ ¬ready) = true := by
    intro i hi
    rw [decide_eq_true_iff, decide_eq_true_iff, ← executions_concat]
    exact missedAt_executions_iff h hn (Nat.lt_succ_iff.1 (List.mem_range.1 hi))
  have hcount : Nat.count (fun i => i = n ∨ i = 0 ∧ ¬ready) (n + 1) = if ready then 1 else 2 := by
    obtain ⟨m, rfl⟩ := Nat.exists_eq_add_of_le' hn
    have hbetween : Nat.count (fun i => i + 1 = m + 1 ∨ i + 1 = 0 ∧ ¬ready) m = 0 :=
      Nat.count_iff_forall_not.2 fun i hi => by omega
    rw [Nat.count_succ, Nat.count_succ', hbetween]
    by_cases hready : ready <;> simp [hready]
  rw [executions_concat, misses_append, length_execution]
  exact congrArg (_ + ·) ((List.countP_congr hmissed).trans hcount)

end

/-- A bit expects what was last, so that it is never ready for an entry. -/
theorem OneBit.guess_executions (pc : Address) (target : Option Address) (ns : List Nat) (i : Nat) :
    Scheme.guess OneBit pc target (executions ns ++ List.replicate i true) =
      decide (0 < i ∨ False) := by
  have hlast : ∀ (os : List Bool) (o : Bool),
      Scheme.guess OneBit pc target (os ++ [o]) = o := by
    intro os o
    rw [Scheme.guess, Scheme.trainAll_append]
    rfl
  cases i with
  | succ i =>
    rw [List.replicate_succ', ← List.append_assoc, hlast, decide_eq_true (.inl (Nat.succ_pos i))]
  | zero =>
    rw [List.replicate_zero, List.append_nil]
    rcases List.eq_nil_or_concat' ns with rfl | ⟨ns, n, rfl⟩
    · rfl
    · rw [executions_concat, execution, ← List.append_assoc, hlast]
      rfl

namespace TwoBit

theorem level_le (c : TwoBit) : c.level ≤ 3 := by
  cases c <;> decide

/-- Every iteration raises the level by one. -/
theorem level_replicate (c : TwoBit) (n : Nat) :
    (Scheme.trainAll c (List.replicate n true)).level = min (c.level + n) 3 := by
  induction n generalizing c with
  | zero => exact (Nat.min_eq_left c.level_le).symm
  | succ n ih =>
    have htrain : (Scheme.train c true).level = min (c.level + 1) 3 := level_strengthen c
    rw [List.replicate_succ, Scheme.trainAll_cons, ih, htrain]
    omega

/-- The exit lowers the level that the iterations have led to. -/
theorem level_execution (c : TwoBit) (n : Nat) :
    (Scheme.trainAll c (execution n)).level = min (c.level + n) 3 - 1 := by
  rw [execution, Scheme.trainAll_append, ← level_replicate]
  exact level_weaken _

/-- Between executions, the counter is at a weak level, which is the upper one as soon as there was
    an execution with two iterations. -/
theorem level_executions (hns : ∀ n ∈ ns, 1 ≤ n) :
    (Scheme.trainAll Scheme.initial (executions ns) : TwoBit).level =
      if ∃ n ∈ ns, 2 ≤ n then 2 else 1 := by
  induction ns using List.reverseRecOn with
  | nil => rfl
  | append_singleton ns n ih =>
    have hn : 1 ≤ n := hns n (List.mem_append_right ns List.mem_cons_self)
    have hexists : (∃ k ∈ ns ++ [n], 2 ≤ k) ↔ (∃ k ∈ ns, 2 ≤ k) ∨ 2 ≤ n := by
      simp only [List.mem_append, List.mem_singleton, or_and_right, exists_or, exists_eq_left]
    rw [executions_concat, Scheme.trainAll_append, level_execution,
      ih fun k hk => hns k (List.mem_append_left _ hk)]
    simp only [hexists]
    by_cases hwarm : ∃ k ∈ ns, 2 ≤ k
    · simp only [hwarm, true_or, if_true]
      omega
    · simp only [hwarm, false_or, if_false]
      split_ifs <;> omega

/-- A counter expects another iteration, and it expects an entry as soon as there was an execution
    with two iterations. -/
theorem guess_executions (pc : Address) (target : Option Address) (hns : ∀ n ∈ ns, 1 ≤ n)
    (i : Nat) : Scheme.guess TwoBit pc target (executions ns ++ List.replicate i true) =
      decide (0 < i ∨ ∃ n ∈ ns, 2 ≤ n) := by
  change (Scheme.trainAll Scheme.initial _ : TwoBit).predictsTaken = _
  rw [predictsTaken_eq_decide, Scheme.trainAll_append, level_replicate, level_executions hns,
    decide_eq_decide]
  split_ifs with h <;> simp only [h, or_true, or_false, iff_true] <;> omega

end TwoBit

/-! ## Costs -/

/-- A bit misses two outcomes of every execution. -/
theorem misses_oneBit_executions (pc : Address) (target : Option Address) (hns : ∀ n ∈ ns, 1 ≤ n) :
    misses (Scheme.guess OneBit pc target) (executions ns) = 2 * ns.length := by
  induction ns using List.reverseRecOn with
  | nil => rfl
  | append_singleton ns n ih =>
    rw [misses_executions_concat (OneBit.guess_executions pc target ns)
        (hns n (List.mem_append_right ns List.mem_cons_self)),
      ih fun k hk => hns k (List.mem_append_left _ hk), List.length_append, List.length_singleton,
      if_neg not_false]
    omega

/-- A counter misses an outcome of every execution, and another one up to the first execution with
    two iterations. -/
theorem misses_twoBit_executions (pc : Address) (target : Option Address) (hns : ∀ n ∈ ns, 1 ≤ n) :
    misses (Scheme.guess TwoBit pc target) (executions ns) =
      ns.length + min ns.length (ns.findIdx (2 ≤ ·) + 1) := by
  induction ns using List.reverseRecOn with
  | nil => rfl
  | append_singleton ns n ih =>
    have hbefore : ∀ k ∈ ns, 1 ≤ k := fun k hk => hns k (List.mem_append_left _ hk)
    have hfirst : (ns.findIdx (2 ≤ ·)) < ns.length ↔ ∃ k ∈ ns, 2 ≤ k := by
      simp only [List.findIdx_lt_length, decide_eq_true_eq]
    have hle : (ns.findIdx (2 ≤ ·)) ≤ ns.length := List.findIdx_le_length
    rw [misses_executions_concat (TwoBit.guess_executions pc target hbefore)
        (hns n (List.mem_append_right ns List.mem_cons_self)), ih hbefore, List.findIdx_append,
      List.length_append, List.length_singleton]
    simp only [hfirst]
    split_ifs with h
    · have := hfirst.2 h
      omega
    · have := mt hfirst.1 h
      omega

/-- Let a loop be executed any number of times, with an iteration at least each time. A bit misses
    two outcomes of every execution, which are the entry and the exit. A two-bit counter misses
    the exit of every execution, and the entries up to the first execution with two iterations:
    once there was one, it misses nothing but exits, however many iterations there are. -/
theorem exits_and_first_entries_are_missed (pc : Address) (target : Option Address) {ns : List Nat}
    (hns : ∀ n ∈ ns, 1 ≤ n) :
    misses (Scheme.guess OneBit pc target) (executions ns) = 2 * ns.length ∧
      misses (Scheme.guess TwoBit pc target) (executions ns) =
        ns.length + min ns.length (ns.findIdx (2 ≤ ·) + 1) ∧
      ∀ before n after, ns = before ++ n :: after → ∀ i ≤ n,
        (MissedAt (Scheme.guess OneBit pc target) (executions ns)
          ((executions before).length + i) ↔ i = 0 ∨ i = n) ∧
        (MissedAt (Scheme.guess TwoBit pc target) (executions ns)
          ((executions before).length + i) ↔ i = n ∨ i = 0 ∧ ¬∃ k ∈ before, 2 ≤ k) := by
  refine ⟨misses_oneBit_executions pc target hns, misses_twoBit_executions pc target hns, ?_⟩
  rintro before n after rfl i hi
  have hn : 1 ≤ n := hns n (List.mem_append_right before List.mem_cons_self)
  have hbefore : ∀ k ∈ before, 1 ≤ k := fun k hk => hns k (List.mem_append_left _ hk)
  refine ⟨?_, missedAt_executions_iff (TwoBit.guess_executions pc target hbefore) hn hi⟩
  rw [missedAt_executions_iff (OneBit.guess_executions pc target before) hn hi, or_comm,
    not_false_iff, and_true]

/-- A loop is executed with a single iteration, then with three, and then with one again. -/
theorem exits_and_first_entries_are_missed_three :
    (∀ n ∈ [1, 3, 1], 1 ≤ n) ∧
      misses (Scheme.guess OneBit 0 none) (executions [1, 3, 1]) = 6 ∧
      misses (Scheme.guess TwoBit 0 none) (executions [1, 3, 1]) = 5 ∧
      ¬MissedAt (Scheme.guess TwoBit 0 none) (executions [1, 3, 1]) 6 := by
  have hns : ∀ n ∈ [1, 3, 1], 1 ≤ n := by decide
  obtain ⟨hone, htwo, hat⟩ := exits_and_first_entries_are_missed 0 none hns
  refine ⟨hns, hone, htwo, fun h => ?_⟩
  have hentry := (hat [1, 3] 1 [] rfl 0 (Nat.zero_le 1)).2.1 h
  revert hentry
  decide

end BranchPrediction
