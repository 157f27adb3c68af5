import BranchPrediction.Entry
import BranchPrediction.Scheme.OneBit
import BranchPrediction.Scheme.Static
import BranchPrediction.Scheme.TwoLevel
import Mathlib

/-!
# Lifecycle of entries

An entry can be reset, seeded and trained in any order. What it has become in the end depends on
two things only: what it started from, which is a cold entry if it was ever reset (`Entry.origin`),
and the events after the last reset (`Entry.sinceReset`). Each part of it then follows a rule of its
own, which every single event keeps to (`Entry.Continues`):

* the scheme has learnt the outcomes, which seeds are no part of;
* the target is the last one that was recorded, with an outcome or by a seed;
* the outcomes are counted, as far as an entry counts.

As every event but a reset records a target, an entry is cold only if it started cold and had no
event since. It is then predicted by a constant of its scheme, which for all schemes is what they
predict of a new branch without a target (`Scheme.ColdRule`).
-/

namespace BranchPrediction

/-- What is predicted of a cold entry is what the scheme predicts in its initial state, as long as
    nothing is known of the target. -/
def Scheme.ColdRule (D : Type) [Scheme D] : Prop :=
  ∀ pc, Scheme.coldTaken D = Scheme.predict (Scheme.initial : D) pc none

/-- All counters of a new branch are at the same level. -/
theorem TwoLevel.coldRule (k : PatternLength) : Scheme.ColdRule (TwoLevel k) := by
  intro pc
  change _ = (TwoLevel.initial k).current.predictsTaken
  rw [current, initial, Vector.get_replicate]
  rfl

namespace Entry

/-- The outcome that is learnt in an event, if there is one. -/
def Event.taken? : Event → Option Bool
  | reset | seed _ => none
  | train taken _ => some taken

/-- The target that is recorded in an event, if there is one. -/
def Event.target? : Event → Option Address
  | reset => none
  | seed target | train _ target => some target

/-- The outcomes in a series of events, oldest first. -/
def outcomes (events : List Event) : List Bool := events.filterMap Event.taken?

/-- The targets in a series of events, oldest first. -/
def targets (events : List Event) : List Address := events.filterMap Event.target?

/-- The events after the last reset. -/
def sinceReset (events : List Event) : List Event := events.rtakeWhile fun event => event ≠ .reset

variable {D : Type} [Scheme D] {start e : Entry D} {events : List Event} {event : Event}

/-- What the events after the last reset start from. -/
def origin (e : Entry D) (events : List Event) : Entry D := if .reset ∈ events then cold else e

/-- The entry after a series of events, oldest first. -/
def afterAll (e : Entry D) (events : List Event) : Entry D := events.foldl after e

theorem afterAll_append (e : Entry D) (xs ys : List Event) :
    e.afterAll (xs ++ ys) = (e.afterAll xs).afterAll ys :=
  List.foldl_append

/-! ## Single events -/

/-- An outcome is learnt, from the beginning if the entry was cold. -/
theorem direction?_after (e : Entry D) (hevent : event ≠ .reset) :
    (e.after event).direction? =
      some (Scheme.trainAll (e.direction?.getD Scheme.initial) event.taken?.toList) := by
  cases event with
  | reset => exact absurd rfl hevent
  | seed => cases e <;> rfl
  | train => cases e <;> rfl

/-- A target is always recorded. -/
theorem target?_after (e : Entry D) (hevent : event ≠ .reset) :
    (e.after event).target? = event.target? ∧ event.target?.isSome := by
  cases event with
  | reset => exact absurd rfl hevent
  | seed => cases e <;> exact ⟨rfl, rfl⟩
  | train => cases e <;> exact ⟨rfl, rfl⟩

theorem after_ne_cold (e : Entry D) (hevent : event ≠ .reset) : e.after event ≠ cold := by
  intro h
  obtain ⟨htarget, hsome⟩ := e.target?_after hevent
  rw [← htarget, h] at hsome
  cases hsome

/-- An outcome is counted. -/
theorem toNat_updates_after (e : Entry D) (hevent : event ≠ .reset) :
    (e.after event).updates.toNat =
      min (e.updates.toNat + event.taken?.toList.length) maxUpdates := by
  have hle : e.updates.toNat ≤ maxUpdates := Nat.le_sub_one_of_lt e.updates.toNat_lt
  cases event with
  | reset => exact absurd rfl hevent
  | seed => cases e <;> exact (Nat.min_eq_left hle).symm
  | train =>
    cases e with
    | cold => rfl
    | trained _ _ updates => exact toNat_countUp updates

/-! ## Series of events -/

/-- The entry `e` is what the given events, none of which is a reset, have made of `start`. -/
structure Continues (start : Entry D) (events : List Event) (e : Entry D) : Prop where
  eq_cold_iff : e = cold ↔ start = cold ∧ events = []
  direction_eq : e.direction?.getD Scheme.initial =
    Scheme.trainAll (start.direction?.getD Scheme.initial) (outcomes events)
  target_eq : e.target? = (targets events).getLast?.or start.target?
  updates_eq : e.updates.toNat = min (start.updates.toNat + (outcomes events).length) maxUpdates

/-- Without events, an entry is what it was. -/
theorem continues_nil (e : Entry D) : Continues e [] e where
  eq_cold_iff := (and_iff_left rfl).symm
  direction_eq := rfl
  target_eq := rfl
  updates_eq := (Nat.min_eq_left (Nat.le_sub_one_of_lt e.updates.toNat_lt)).symm

theorem outcomes_concat (events : List Event) (event : Event) :
    outcomes (events ++ [event]) = outcomes events ++ event.taken?.toList := by
  rw [outcomes, List.filterMap_append, outcomes]
  cases event <;> rfl

/-- A target that is recorded is the last one. -/
theorem getLast?_targets_concat {target : Address} (h : event.target? = some target)
    (events : List Event) : (targets (events ++ [event])).getLast? = some target := by
  rw [targets, List.filterMap_append, List.filterMap_cons_some h]
  exact List.getLast?_concat

/-- Every event but a reset follows the rules. -/
theorem Continues.after (h : Continues start events e) (hevent : event ≠ .reset) :
    Continues start (events ++ [event]) (e.after event) where
  eq_cold_iff := iff_of_false (e.after_ne_cold hevent) fun h =>
    List.append_ne_nil_of_right_ne_nil events (List.cons_ne_nil event []) h.2
  direction_eq := by
    rw [e.direction?_after hevent, Option.getD_some, h.direction_eq, outcomes_concat,
      Scheme.trainAll_append]
  target_eq := by
    obtain ⟨htarget, hsome⟩ := e.target?_after hevent
    obtain ⟨target, hevent⟩ := Option.isSome_iff_exists.1 hsome
    rw [htarget, getLast?_targets_concat hevent, hevent, Option.some_or]
  updates_eq := by
    rw [e.toNat_updates_after hevent, h.updates_eq, outcomes_concat, List.length_append]
    omega

omit [Scheme D] in
/-- A reset makes everything before it irrelevant. -/
theorem origin_concat_reset (e : Entry D) (events : List Event) :
    e.origin (events ++ [.reset]) = cold ∧ sinceReset (events ++ [.reset]) = [] :=
  ⟨if_pos List.mem_concat_self, List.rtakeWhile_concat_neg _ _ _ (by decide)⟩

omit [Scheme D] in
/-- Any other event is one more of those after the last reset. -/
theorem origin_concat (e : Entry D) (events : List Event) (hevent : event ≠ .reset) :
    e.origin (events ++ [event]) = e.origin events ∧
      sinceReset (events ++ [event]) = sinceReset events ++ [event] := by
  constructor
  · simp only [origin, List.mem_append, List.mem_singleton, hevent.symm, or_false]
  · exact List.rtakeWhile_concat_pos _ _ _ (decide_eq_true hevent)

/-- At any time, the events since the last reset have followed the rules. -/
theorem continues_afterAll (e : Entry D) (events : List Event) :
    Continues (e.origin events) (sinceReset events) (e.afterAll events) := by
  induction events using List.reverseRecOn with
  | nil => exact continues_nil e
  | append_singleton events event ih =>
    have hconcat : e.afterAll (events ++ [event]) = (e.afterAll events).after event :=
      e.afterAll_append events [event]
    rw [hconcat]
    by_cases hevent : event = .reset
    · subst hevent
      obtain ⟨horigin, hsince⟩ := e.origin_concat_reset events
      rw [horigin, hsince]
      exact continues_nil cold
    · obtain ⟨horigin, hsince⟩ := e.origin_concat events hevent
      rw [horigin, hsince]
      exact ih.after hevent

/-- What is seen of an entry `e` that has come of `start` by the given events, none of which is a
    reset. -/
structure SummedUp (start : Entry D) (events : List Event) (e : Entry D) : Prop where
  eq_cold_iff : e = cold ↔ start = cold ∧ events = []
  of_cold : e = cold → ∀ pc, e.predictTaken pc = Scheme.coldTaken D
  /-- An entry that is not cold has a state that has learnt the outcomes, the last target and the
      number of the outcomes. It is predicted from the state and the target. -/
  of_ne_cold : e ≠ cold → ∃ direction target updates, e = trained direction target updates ∧
    direction = Scheme.trainAll (start.direction?.getD Scheme.initial) (outcomes events) ∧
    (targets events).getLast?.or start.target? = some target ∧
    updates.toNat = min (start.updates.toNat + (outcomes events).length) maxUpdates ∧
    ∀ pc, e.predictTaken pc = Scheme.predict direction pc (some target)

theorem Continues.summedUp (h : Continues start events e) : SummedUp start events e where
  eq_cold_iff := h.eq_cold_iff
  of_cold he _ := by
    rw [he, predictTaken]
  of_ne_cold he := by
    cases e with
    | cold => exact absurd rfl he
    | trained direction target updates =>
      exact ⟨direction, target, updates, rfl, h.direction_eq, h.target_eq.symm, h.updates_eq,
        fun _ => rfl⟩

/-- Whatever has happened to an entry, and for every scheme, it is summed up by what it started
    from and by the events since its last reset. So it makes no difference whether an entry that
    was reset is seeded before it learns an outcome. The schemes all predict the same of a cold
    entry as of a new branch without a target. -/
theorem summed_up_since_reset :
    (∀ (D : Type) [Scheme D] (e : Entry D) (events : List Event),
      SummedUp (e.origin events) (sinceReset events) (e.afterAll events)) ∧
    (∀ (D : Type) [Scheme D] (e : Entry D) (before after : List Event) (seeded target : Address)
      (taken : Bool),
      e.afterAll (before ++ [.reset, .seed seeded, .train taken target] ++ after) =
        e.afterAll (before ++ [.reset, .train taken target] ++ after)) ∧
    Scheme.ColdRule AlwaysTaken ∧ Scheme.ColdRule BackwardTaken ∧ Scheme.ColdRule OneBit ∧
      Scheme.ColdRule TwoBit ∧ ∀ k : PatternLength, Scheme.ColdRule (TwoLevel k) := by
  refine ⟨fun D _ e events => (e.continues_afterAll events).summedUp, ?_, fun _ => rfl,
    fun _ => rfl, fun _ => rfl, fun _ => rfl, TwoLevel.coldRule⟩
  intro D _ e before after seeded target taken
  rw [afterAll_append, afterAll_append, afterAll_append, afterAll_append]
  rfl

end Entry

end BranchPrediction
