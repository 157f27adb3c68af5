import BranchPrediction.Action
import Mathlib

/-!
# Runs

What is known of an action before it is carried out: from a state `s` it
*ensures* `Q` of its answer and of the state it leaves, or else ends in a fault
of which it ensures `E` (`Action.Ensures`). As an action has exactly one result,
`E` says when it can fail at all: with an `E` that nothing satisfies, the action
answers.

A *run* carries out the same action for one input after the other and notes the
inputs with the answers, oldest first, in a *log* (`Action.each`). What holds of
the empty log, and is kept by every single step, holds of every run
(`Ensures.each`). Two runs that do the same at every step end in the same state
(`Ensures.each_forall₂`).
-/

namespace BranchPrediction.Action

variable {σ τ ι α β : Type} {x : Action σ α} {s : σ}

/-- From `s`, the action answers as `Q` says, or ends in a fault as `E` says. -/
def Ensures (x : Action σ α) (s : σ) (Q : α → σ → Prop) (E : Fault → σ → Prop) : Prop :=
  match x.run s with
  | .ok a t => Q a t
  | .error f t => E f t

/-- Carries out an action for every input in turn. -/
def each (x : ι → Action σ α) : List ι → Action σ (List (ι × α))
  | [] => pure []
  | i :: rest => do
    let a ← x i
    let log ← each x rest
    return (i, a) :: log

/-! ## One action -/

section

variable {Q Q' : α → σ → Prop} {E E' : Fault → σ → Prop}

/-- What is ensured depends on the result only. -/
theorem ensures_congr {y : Action σ α} (h : x.run s = y.run s) :
    x.Ensures s Q E ↔ y.Ensures s Q E := by
  rw [Ensures, Ensures, h]

/-- An answer is as ensured. -/
theorem Ensures.of_ok (h : x.Ensures s Q E) {a : α} {t : σ} (hr : x.run s = .ok a t) : Q a t := by
  rw [Ensures, hr] at h
  exact h

/-- A fault is as ensured. -/
theorem Ensures.of_error (h : x.Ensures s Q E) {f : Fault} {t : σ} (hr : x.run s = .error f t) :
    E f t := by
  rw [Ensures, hr] at h
  exact h

/-- Every result is checked by itself. -/
theorem ensures_iff :
    x.Ensures s Q E ↔
      (∀ a t, x.run s = .ok a t → Q a t) ∧ ∀ f t, x.run s = .error f t → E f t := by
  refine ⟨fun h => ⟨fun _ _ => h.of_ok, fun _ _ => h.of_error⟩, ?_⟩
  rintro ⟨hok, herr⟩
  rw [Ensures]
  split
  next hr => exact hok _ _ hr
  next hr => exact herr _ _ hr

/-- Less may be asked of an action. -/
theorem Ensures.mono (h : x.Ensures s Q E) (hQ : ∀ a t, Q a t → Q' a t)
    (hE : ∀ f t, E f t → E' f t) : x.Ensures s Q' E' :=
  ensures_iff.2 ⟨fun a t hr => hQ a t (h.of_ok hr), fun f t hr => hE f t (h.of_error hr)⟩

/-- An answer comes from the run. -/
theorem Ensures.with_run (h : x.Ensures s Q E) :
    x.Ensures s (fun a t => x.run s = .ok a t ∧ Q a t) E :=
  ensures_iff.2 ⟨fun _ _ hr => ⟨hr, h.of_ok hr⟩, fun _ _ hr => h.of_error hr⟩

/-- An action that cannot fail answers. -/
theorem Ensures.exists_ok (h : x.Ensures s Q fun _ _ => False) :
    ∃ a t, x.run s = .ok a t ∧ Q a t := by
  rcases hr : x.run s with ⟨a, t⟩ | ⟨f, t⟩
  · exact ⟨a, t, rfl, h.of_ok hr⟩
  · exact (h.of_error hr).elim

/-- To answer is to answer. -/
theorem ensures_pure {a : α} : (pure a : Action σ α).Ensures s Q E ↔ Q a s := Iff.rfl

/-- To ask for the state is to be given it. -/
theorem ensures_get {Q : σ → σ → Prop} : (get : Action σ σ).Ensures s Q E ↔ Q s s := Iff.rfl

/-- One action after another: what the second one needs, the first one ensures. -/
theorem ensures_bind {k : α → Action σ β} {Q : β → σ → Prop} :
    (x >>= k).Ensures s Q E ↔ x.Ensures s (fun a t => (k a).Ensures t Q E) E := by
  simp only [Ensures, EStateM.run_bind]
  cases x.run s <;> rfl

/-- The first action has to answer, and the second one from there. -/
theorem run_bind_eq_ok_iff {k : α → Action σ β} {b : β} {t : σ} :
    (x >>= k).run s = .ok b t ↔ ∃ a u, x.run s = .ok a u ∧ (k a).run u = .ok b t := by
  rw [EStateM.run_bind]
  rcases x.run s with ⟨a, u⟩ | ⟨f, u⟩
  · refine ⟨fun h => ⟨a, u, rfl, h⟩, ?_⟩
    rintro ⟨_, _, h, hk⟩
    obtain ⟨rfl, rfl⟩ := EStateM.Result.ok.inj h
    exact hk
  · refine ⟨fun h => ?_, ?_⟩
    · cases h
    · rintro ⟨_, _, h, -⟩
      cases h

/-- The first action fails, or it answers and the second one fails. -/
theorem run_bind_eq_error_iff {k : α → Action σ β} {f : Fault} {t : σ} :
    (x >>= k).run s = .error f t ↔
      x.run s = .error f t ∨ ∃ a u, x.run s = .ok a u ∧ (k a).run u = .error f t := by
  rw [EStateM.run_bind]
  rcases x.run s with ⟨a, u⟩ | ⟨g, u⟩
  · refine ⟨fun h => .inr ⟨a, u, rfl, h⟩, ?_⟩
    rintro (h | ⟨_, _, h, hk⟩)
    · cases h
    · obtain ⟨rfl, rfl⟩ := EStateM.Result.ok.inj h
      exact hk
  · refine ⟨fun h => ?_, ?_⟩
    · cases h
      exact .inl rfl
    · rintro (h | ⟨_, _, h, -⟩)
      · cases h
        rfl
      · cases h

/-- To rename an answer is to ask for it by the new name. -/
theorem ensures_map {g : α → β} {Q : β → σ → Prop} :
    (g <$> x).Ensures s Q E ↔ x.Ensures s (fun a t => Q (g a) t) E := by
  rw [map_eq_pure_bind, ensures_bind]
  rfl

/-- An action on a part of a component ensures what it does for the part. -/
theorem ensures_within (x : Action τ α) (part : σ → τ) (put : σ → τ → σ) :
    Ensures (fun s => x.within (part s) (put s)) s Q E ↔
      x.Ensures (part s) (fun a t => Q a (put s t)) fun f t => E f (put s t) := by
  simp only [Ensures, EStateM.run, within]
  cases x (part s) <;> rfl

end

/-! ## Runs -/

variable {x : ι → Action σ α} {log : List (ι × α)}

/-- A run answers if every step does. -/
theorem run_each_cons_eq_ok_iff {i : ι} {rest : List ι} {s t : σ} :
    (each x (i :: rest)).run s = .ok log t ↔ ∃ a u, (x i).run s = .ok a u ∧
      ∃ log', (each x rest).run u = .ok log' t ∧ log = (i, a) :: log' := by
  rw [each, run_bind_eq_ok_iff]
  refine exists_congr fun a => exists_congr fun u => and_congr_right fun _ => ?_
  rw [run_bind_eq_ok_iff]
  constructor
  · rintro ⟨log', v, hrest, hpure⟩
    obtain ⟨rfl, rfl⟩ := EStateM.Result.ok.inj hpure
    exact ⟨log', hrest, rfl⟩
  · rintro ⟨log', hrest, rfl⟩
    exact ⟨log', t, hrest, rfl⟩

/-- A run fails if the first step does, or else the rest. -/
theorem run_each_cons_eq_error_iff {i : ι} {rest : List ι} {f : Fault} {s t : σ} :
    (each x (i :: rest)).run s = .error f t ↔ (x i).run s = .error f t ∨
      ∃ a u, (x i).run s = .ok a u ∧ (each x rest).run u = .error f t := by
  rw [each, run_bind_eq_error_iff]
  refine or_congr_right (exists_congr fun a => exists_congr fun u => and_congr_right fun _ => ?_)
  rw [run_bind_eq_error_iff]
  refine or_iff_left ?_
  rintro ⟨log', v, -, hpure⟩
  cases hpure

/-- A run takes note of its inputs. -/
theorem map_fst_of_run_each {is : List ι} {s t : σ} (h : (each x is).run s = .ok log t) :
    log.map Prod.fst = is := by
  induction is generalizing s log with
  | nil =>
    cases h
    rfl
  | cons i rest ih =>
    obtain ⟨a, u, -, log', hrest, rfl⟩ := run_each_cons_eq_ok_iff.1 h
    rw [List.map_cons, ih hrest]

/-- A run goes on from where it has come to. -/
theorem run_each_concat {is : List ι} {i : ι} {a : α} {s t u : σ}
    (h : (each x is).run s = .ok log t) (hi : (x i).run t = .ok a u) :
    (each x (is ++ [i])).run s = .ok (log ++ [(i, a)]) u := by
  induction is generalizing s log with
  | nil =>
    cases h
    exact run_each_cons_eq_ok_iff.2 ⟨a, u, hi, [], rfl, rfl⟩
  | cons j rest ih =>
    obtain ⟨b, v, hj, log', hrest, rfl⟩ := run_each_cons_eq_ok_iff.1 h
    exact run_each_cons_eq_ok_iff.2 ⟨b, v, hj, log' ++ [(i, a)], ih hrest, rfl⟩

/-- A run fails at an input if the inputs before it are answered and the step for it fails. The
    inputs after it are never looked at. -/
theorem run_each_eq_error_iff {is : List ι} {f : Fault} {s t : σ} :
    (each x is).run s = .error f t ↔ ∃ before i after log u, is = before ++ i :: after ∧
      (each x before).run s = .ok log u ∧ (x i).run u = .error f t := by
  constructor
  · intro h
    induction is generalizing s with
    | nil => cases h
    | cons i rest ih =>
      rcases run_each_cons_eq_error_iff.1 h with hi | ⟨a, u, hi, hrest⟩
      · exact ⟨[], i, rest, [], s, rfl, rfl, hi⟩
      · obtain ⟨before, j, after, log, v, rfl, hbefore, hj⟩ := ih hrest
        exact ⟨i :: before, j, after, (i, a) :: log, v, rfl,
          run_each_cons_eq_ok_iff.2 ⟨a, u, hi, log, hbefore, rfl⟩, hj⟩
  · rintro ⟨before, i, after, log, u, rfl, hbefore, hi⟩
    induction before generalizing s log with
    | nil =>
      cases hbefore
      exact run_each_cons_eq_error_iff.2 (.inl hi)
    | cons j before ih =>
      obtain ⟨b, v, hj, log', hrest, rfl⟩ := run_each_cons_eq_ok_iff.1 hbefore
      exact run_each_cons_eq_error_iff.2 (.inr ⟨b, v, hj, ih log' hrest⟩)

/-- What every step keeps, the run keeps, whatever was noted before. -/
theorem Ensures.each_from {I : List (ι × α) → σ → Prop} {E : Fault → σ → Prop}
    (step : ∀ log s i, I log s → (x i).Ensures s (fun a t => I (log ++ [(i, a)]) t) E)
    (is : List ι) (before : List (ι × α)) (s : σ) (start : I before s) :
    (each x is).Ensures s (fun log t => I (before ++ log) t) E := by
  -- What was noted before grows by the first input, so it must be any log.
  induction is generalizing before s with
  | nil =>
    refine ensures_pure.2 ?_
    rw [List.append_nil]
    exact start
  | cons i rest ih =>
    refine ensures_bind.2 ((step before s i start).mono (fun a t ht => ?_) fun _ _ h => h)
    refine ensures_bind.2 ((ih _ t ht).mono (fun log u hu => ?_) fun _ _ h => h)
    refine ensures_pure.2 ?_
    rw [List.append_assoc] at hu
    exact hu

/-- What holds at the start and is kept by every step holds after every run. -/
theorem Ensures.each {I : List (ι × α) → σ → Prop} {E : Fault → σ → Prop}
    (start : I [] s)
    (step : ∀ log s i, I log s → (x i).Ensures s (fun a t => I (log ++ [(i, a)]) t) E)
    (is : List ι) : (each x is).Ensures s (fun log t => log.map Prod.fst = is ∧ I log t) E :=
  ensures_iff.2 ⟨fun _ _ hr => ⟨map_fst_of_run_each hr, (each_from step is [] s start).of_ok hr⟩,
    fun _ _ hr => (each_from step is [] s start).of_error hr⟩

/-- Runs of different inputs that do the same at every step end in the same state. -/
theorem Ensures.each_forall₂ {κ : Type} {y : κ → Action σ β} {R : ι → κ → Prop} {I : σ → Prop}
    {E : Fault → σ → Prop}
    (step : ∀ s i j, I s → R i j →
      (x i).Ensures s (fun _ t => I t ∧ ∃ b, (y j).run s = .ok b t) E)
    {is : List ι} {js : List κ} (h : List.Forall₂ R is js) (s : σ) (start : I s) :
    (Action.each x is).Ensures s (fun log t => log.map Prod.fst = is ∧
      ∃ log', (Action.each y js).run s = .ok log' t) E := by
  induction h generalizing s with
  | nil => exact ensures_pure.2 ⟨rfl, [], rfl⟩
  | @cons i j is js hij _ ih =>
    refine ensures_bind.2 ((step s i j start hij).mono ?_ fun _ _ hf => hf)
    rintro a t ⟨ht, b, hb⟩
    refine ensures_bind.2 ((ih t ht).mono ?_ fun _ _ hf => hf)
    rintro log u ⟨hlog, log', hlog'⟩
    refine ensures_pure.2 ⟨by rw [List.map_cons, hlog], (j, b) :: log', ?_⟩
    simp only [Action.each, EStateM.run_bind, hb, hlog', EStateM.run_pure]

end BranchPrediction.Action
