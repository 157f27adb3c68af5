import BranchPrediction.Scheme.TwoLevel
import Mathlib

/-!
# Histories

The two-level scheme by its definition. A branch counts as always taken before its first
outcome, so that it has always had a last `n` outcomes (`lastOutcomes`). Packed into a number
(`pack`), they are its history, and the outcomes that came after a given history are a
subsequence of all outcomes (`outcomesAfter`).

The scheme keeps neither, but a register and a table of counters. After any outcomes, the
register holds the packed last outcomes (`toNat_history_trainAll`), and the counter of a history
is one that has learnt the outcomes after this history, and no others
(`getElem?_counters_trainAll`).
-/

namespace BranchPrediction

/-- Outcomes as the digits of a binary number, the newest one lowest. -/
def pack (os : List Bool) : Nat := os.foldl (fun h taken => 2 * h + taken.toNat) 0

/-- The last `n` outcomes of a branch that was always taken before the given ones. -/
def lastOutcomes (n : Nat) (os : List Bool) : List Bool := (List.replicate n true ++ os).rtake n

/-- The outcomes before which the last `n` outcomes were those of the history `h`, oldest first. -/
def outcomesAfter (n h : Nat) (os : List Bool) : List Bool :=
  (List.range os.length).filterMap fun t =>
    if pack (lastOutcomes n (os.take t)) = h then os[t]? else none

example : pack [true, true, false] = 6 := rfl

example : outcomesAfter 2 3 [false, true, true, false, true] = [false, false] := by decide

variable {n m h : Nat} {os : List Bool} {o : Bool}

/-- A further outcome is the lowest digit. -/
theorem pack_concat (os : List Bool) (o : Bool) : pack (os ++ [o]) = 2 * pack os + o.toNat :=
  List.foldl_append

/-- The oldest outcome is the highest digit. -/
theorem pack_cons (o : Bool) (os : List Bool) :
    pack (o :: os) = o.toNat * 2 ^ os.length + pack os := by
  induction os using List.reverseRecOn with
  | nil => exact pack_concat [] o |>.trans (by simp [pack])
  | append_singleton os o' ih =>
    rw [← List.cons_append, pack_concat, pack_concat, ih, List.length_append, List.length_singleton]
    ring

/-- Every outcome is a single digit. -/
theorem pack_lt (os : List Bool) : pack os < 2 ^ os.length := by
  induction os using List.reverseRecOn with
  | nil => exact Nat.one_pos
  | append_singleton os o ih =>
    have ho := Bool.toNat_lt o
    rw [pack_concat, List.length_append, List.length_singleton, pow_succ]
    omega

/-- A number of outcomes can be told from what they are packed into. -/
theorem pack_inj {os' : List Bool} (hlength : os.length = os'.length) (h : pack os = pack os') :
    os = os' := by
  induction os generalizing os' with
  | nil => exact (List.length_eq_zero_iff.1 hlength.symm).symm
  | cons o os ih =>
    obtain ⟨o', os', rfl⟩ := List.exists_cons_of_length_eq_add_one hlength.symm
    have hrest : os.length = os'.length := Nat.succ.inj hlength
    have hlt := hrest ▸ pack_lt os
    have hlt' := pack_lt os'
    rw [pack_cons, pack_cons, hrest] at h
    -- The rest is too small to make up for another highest digit.
    cases o <;> cases o' <;> simp only [Bool.toNat_true, Bool.toNat_false, zero_mul, one_mul] at h
    · rw [ih hrest (by omega)]
    · omega
    · omega
    · rw [ih hrest (by omega)]

/-- If all outcomes are taken, the number is the highest of its length. -/
theorem pack_replicate_true (n : Nat) : pack (List.replicate n true) = 2 ^ n - 1 := by
  induction n with
  | zero => rfl
  | succ n ih =>
    have hpos := Nat.two_pow_pos n
    rw [List.replicate_succ', pack_concat, ih, Bool.toNat_true, pow_succ]
    omega

/-! ## Last outcomes -/

/-- There are as many as are asked for. -/
theorem length_lastOutcomes (n : Nat) (os : List Bool) : (lastOutcomes n os).length = n := by
  rw [lastOutcomes, List.rtake, List.length_drop, List.length_append, List.length_replicate]
  omega

/-- Before the first outcome, the branch was always taken. -/
theorem lastOutcomes_nil (n : Nat) : lastOutcomes n [] = List.replicate n true := by
  rw [lastOutcomes, List.append_nil, List.rtake, List.length_replicate, Nat.sub_self,
    List.drop_zero]

/-- With a further outcome, the oldest one drops out. -/
theorem lastOutcomes_concat (hn : 0 < n) (os : List Bool) (o : Bool) :
    lastOutcomes n (os ++ [o]) = (lastOutcomes n os).tail ++ [o] := by
  obtain ⟨n, rfl⟩ := Nat.exists_eq_add_one.2 hn
  rw [lastOutcomes, ← List.append_assoc, List.rtake_concat_succ, lastOutcomes, List.rtake,
    List.rtake, List.tail_drop, List.length_append, List.length_replicate]
  refine congrArg (fun m => List.drop m _ ++ [o]) ?_
  omega

/-- Among enough outcomes, the last ones are there. -/
theorem lastOutcomes_of_le (h : n ≤ os.length) : lastOutcomes n os = os.rtake n := by
  rw [lastOutcomes, List.rtake, List.rtake, List.length_append, List.length_replicate,
    Nat.add_sub_cancel_left, List.drop_append, List.length_replicate, List.drop_of_length_le]
  · exact List.nil_append _
  · rw [List.length_replicate]
    exact h

/-- A history has a digit for each outcome. -/
theorem pack_lastOutcomes_lt (n : Nat) (os : List Bool) : pack (lastOutcomes n os) < 2 ^ n := by
  have hlt := pack_lt (lastOutcomes n os)
  rw [length_lastOutcomes] at hlt
  exact hlt

/-- An outcome comes after the present history, and after no other. -/
theorem outcomesAfter_concat (n h : Nat) (os : List Bool) (o : Bool) :
    outcomesAfter n h (os ++ [o]) =
      outcomesAfter n h os ++ if pack (lastOutcomes n os) = h then [o] else [] := by
  have hold : ∀ t ∈ List.range os.length,
      (if pack (lastOutcomes n ((os ++ [o]).take t)) = h then (os ++ [o])[t]? else none) =
        if pack (lastOutcomes n (os.take t)) = h then os[t]? else none := by
    intro t ht
    have ht := List.mem_range.1 ht
    rw [List.take_append_of_le_length ht.le, List.getElem?_append_left ht]
  rw [outcomesAfter, List.length_append, List.length_singleton, List.range_succ,
    List.filterMap_append, List.filterMap_congr hold, outcomesAfter]
  refine congrArg (_ ++ ·) ?_
  rw [List.filterMap_cons, List.filterMap_nil, List.take_left, List.getElem?_concat_length]
  split_ifs <;> rfl

/-- No outcome comes after a number that has too many digits for a history. -/
theorem outcomesAfter_of_le (h : 2 ^ n ≤ m) (os : List Bool) : outcomesAfter n m os = [] := by
  refine List.filterMap_eq_nil_iff.2 fun t _ => if_neg ?_
  exact ((pack_lastOutcomes_lt n _).trans_le h).ne

namespace TwoLevel

variable {k : PatternLength}

/-- The oldest outcome is shifted out of a register of as many bits as there are outcomes. -/
theorem toNat_shiftConcat_pack {x : BitVec n} (hn : 0 < n) (hos : os.length = n)
    (hx : x.toNat = pack os) (o : Bool) : (x.shiftConcat o).toNat = pack (os.tail ++ [o]) := by
  obtain ⟨oldest, rest, rfl⟩ := List.exists_cons_of_length_pos (hos.symm ▸ hn)
  have hlt := pack_lt (rest ++ [o])
  rw [List.length_append, List.length_singleton, ← List.length_cons (a := oldest), hos] at hlt
  have hshift : x.toNat <<< 1 + o.toNat = oldest.toNat * 2 ^ n + pack (rest ++ [o]) := by
    rw [Nat.shiftLeft_eq, pow_one, Nat.mul_comm, hx, ← pack_concat, List.cons_append, pack_cons,
      List.length_append, List.length_singleton, ← List.length_cons (a := oldest), hos]
  rw [BitVec.toNat_shiftConcat, hshift, Nat.mul_comm, Nat.mul_add_mod, Nat.mod_eq_of_lt hlt,
    List.tail_cons]

/-- The outcomes so far have been shifted into the register. -/
theorem toNat_history_trainAll (k : PatternLength) (os : List Bool) :
    (Scheme.trainAll Scheme.initial os : TwoLevel k).history.toNat =
      pack (lastOutcomes k.bits os) := by
  induction os using List.reverseRecOn with
  | nil =>
    rw [lastOutcomes_nil, pack_replicate_true]
    exact BitVec.toNat_allOnes
  | append_singleton os o ih =>
    rw [Scheme.trainAll_append, lastOutcomes_concat k.bits_pos]
    exact toNat_shiftConcat_pack k.bits_pos (length_lastOutcomes _ os) ih o

/-- The current counter is that of the history in the register. -/
theorem getElem?_counters_history (d : TwoLevel k) :
    d.counters[d.history.toNat]? = some d.current :=
  Vector.getElem?_eq_getElem d.history_lt

/-- The current counter learns an outcome, and no other one does. -/
theorem getElem?_counters_train (d : TwoLevel k) (o : Bool) (h : Nat) :
    (d.train o).counters[h]? =
      if d.history.toNat = h then some (d.current.update o) else d.counters[h]? := by
  rw [train, Vector.getElem?_set]

/-- Each counter has learnt the outcomes after its history. -/
theorem getElem?_counters_trainAll (k : PatternLength) (os : List Bool) (hh : h < counterCount) :
    (Scheme.trainAll Scheme.initial os : TwoLevel k).counters[h]? =
      some ((outcomesAfter k.bits h os).foldl TwoBit.update .weaklyNotTaken) := by
  induction os using List.reverseRecOn with
  | nil => exact Vector.getElem?_replicate.trans (if_pos hh)
  | append_singleton os o ih =>
    rw [Scheme.trainAll_append, outcomesAfter_concat, List.foldl_append]
    refine (getElem?_counters_train _ o h).trans ?_
    rw [ih, ← toNat_history_trainAll]
    split_ifs with hnow
    · -- The counter that has learnt the earlier outcomes is the current one.
      rw [← hnow, getElem?_counters_history] at ih
      rw [Option.some.inj ih, hnow]
      rfl
    · rfl

/-- What a branch is expected to do is what the counter of its last outcomes has learnt. -/
theorem predict_trainAll (k : PatternLength) (pc : Address) (target : Option Address)
    (os : List Bool) :
    Scheme.predict (Scheme.trainAll Scheme.initial os : TwoLevel k) pc target =
      ((outcomesAfter k.bits (pack (lastOutcomes k.bits os)) os).foldl TwoBit.update
        .weaklyNotTaken).predictsTaken := by
  have hcurrent := getElem?_counters_history (Scheme.trainAll Scheme.initial os : TwoLevel k)
  rw [getElem?_counters_trainAll k os (history_lt _), toNat_history_trainAll] at hcurrent
  rw [Option.some.inj hcurrent]
  rfl

/-- What the scheme keeps of a branch after the given outcomes. -/
structure Keeps (os : List Bool) (d : TwoLevel k) : Prop where
  /-- The register holds the last outcomes, with the newest in the lowest bit. -/
  history_eq : d.history.toNat = pack (lastOutcomes k.bits os)
  history_lt : d.history.toNat < 2 ^ k.bits
  /-- The counter of a history has learnt the outcomes after it, in their order. -/
  counter_eq : ∀ h < 2 ^ k.bits, d.counters[h]? =
    some ((outcomesAfter k.bits h os).foldl TwoBit.update .weaklyNotTaken)
  /-- A counter without a history has learnt nothing. -/
  unused_eq : ∀ h, 2 ^ k.bits ≤ h → h < counterCount → d.counters[h]? = some .weaklyNotTaken
  /-- The counter of the history in the register makes the prediction. -/
  predict_eq : ∃ c, d.counters[d.history.toNat]? = some c ∧
    ∀ pc target, Scheme.predict d pc target = c.predictsTaken

/-- After any outcomes, the scheme with histories of any length keeps what it is defined by: the
    last outcomes as its history, where a new branch counts as always taken before, and for every
    history a counter that has learnt the outcomes that came after it. -/
theorem keeps_last_and_learns_after (k : PatternLength) (os : List Bool) :
    Keeps os (Scheme.trainAll Scheme.initial os : TwoLevel k) where
  history_eq := toNat_history_trainAll k os
  history_lt := toNat_history_trainAll k os ▸ pack_lastOutcomes_lt k.bits os
  counter_eq h hh := by
    refine getElem?_counters_trainAll k os (hh.trans_le ?_)
    rw [counterCount, Nat.one_shiftLeft]
    exact Nat.pow_le_pow_right (by decide) k.bits_le
  unused_eq h hle hlt := by
    rw [getElem?_counters_trainAll k os hlt, outcomesAfter_of_le hle]
    rfl
  predict_eq := ⟨_, getElem?_counters_history _, fun _ _ => rfl⟩

end TwoLevel

end BranchPrediction
