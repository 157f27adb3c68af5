import BranchPrediction.Proofs.Training
import BranchPrediction.Scheme.TwoBit

/-!
# Coupling

A table keeps its entries by way and set, and its tag array keeps the tags in a
row of slots. What couples them is the log of the outcomes so far: if a way
holds a line, then the entry there is that of the outcomes for this line since
the line was last allocated (`Coupled`). A way that holds no line has a cold
entry. Every step keeps this, whichever way the policy gives up
(`Coupled.step`).

So nothing is lost, mixed or left over: what a table knows of an address follows
from the outcomes for its line since the latest allocation, and from nothing
else (`known_since_allocation`).
-/

namespace BranchPrediction.Table

variable {D P : Type} [Scheme D] [Replacement P]

/-- The outcomes so far, oldest first, with the allocations they led to. -/
abbrev Log := List (Outcome × Option Allocation)

/-- The part of a log that is for the line `l`. -/
def Log.onLine (shape : Shape) (l : Nat) (log : Log) : Log :=
  log.filter fun e => shape.line e.1.pc = l

/-- In the log, `os` are the outcomes for the line `l` from the latest one on that
    led to an allocation. -/
def SinceAllocation (shape : Shape) (l : Nat) (log : Log) (os : List Outcome) : Prop :=
  ∃ before first allocation rest, os = first :: rest ∧
    log.onLine shape l = before ++ (first, some allocation) :: rest.map fun o => (o, none)

section

variable {shape : Shape} {l : Nat} {log : Log} {os : List Outcome} {o : Outcome}
  {a : Option Allocation}

/-- An outcome counts if it is for the line. -/
theorem Log.onLine_concat :
    Log.onLine shape l (log ++ [(o, a)]) =
      log.onLine shape l ++ if shape.line o.pc = l then [(o, a)] else [] := by
  rw [onLine, List.filter_append, List.filter_cons]
  simp only [decide_eq_true_eq, List.filter_nil]
  rfl

/-- After an outcome for another line, the outcomes are still the same. -/
theorem SinceAllocation.other (h : SinceAllocation shape l log os) (hl : shape.line o.pc ≠ l) :
    SinceAllocation shape l (log ++ [(o, a)]) os := by
  obtain ⟨before, first, allocation, rest, hos, hlog⟩ := h
  exact ⟨before, first, allocation, rest, hos, by
    rw [Log.onLine_concat, if_neg hl, List.append_nil, hlog]⟩

/-- An outcome without an allocation is one more of them. -/
theorem SinceAllocation.hit (h : SinceAllocation shape l log os) (hl : shape.line o.pc = l) :
    SinceAllocation shape l (log ++ [(o, none)]) (os ++ [o]) := by
  obtain ⟨before, first, allocation, rest, rfl, hlog⟩ := h
  refine ⟨before, first, allocation, rest ++ [o], rfl, ?_⟩
  rw [Log.onLine_concat, if_pos hl, hlog, List.map_append, List.append_assoc]
  rfl

/-- An outcome with an allocation is the first of them. -/
theorem sinceAllocation_allocate (log : Log) (allocation : Allocation)
    (hl : shape.line o.pc = l) : SinceAllocation shape l (log ++ [(o, some allocation)]) [o] :=
  ⟨log.onLine shape l, o, allocation, [], rfl, by
    rw [Log.onLine_concat, if_pos hl]
    rfl⟩

/-- One of the outcomes is the last one. -/
theorem SinceAllocation.exists_concat (h : SinceAllocation shape l log os) :
    ∃ earlier last, os = earlier ++ [last] := by
  obtain ⟨_, first, _, rest, rfl, -⟩ := h
  exact ⟨_, _, (List.dropLast_concat_getLast (List.cons_ne_nil first rest)).symm⟩

/-- The line is that of an outcome in the log. -/
theorem SinceAllocation.exists_mem (h : SinceAllocation shape l log os) :
    ∃ e ∈ log, shape.line e.1.pc = l := by
  obtain ⟨before, first, allocation, rest, -, hlog⟩ := h
  have hmem : (first, some allocation) ∈ log.onLine shape l := by
    rw [hlog]
    exact List.mem_append_right _ List.mem_cons_self
  obtain ⟨hlog, hl⟩ := List.mem_filter.1 hmem
  exact ⟨_, hlog, of_decide_eq_true hl⟩

end

/-- The entries are those of the lines that the tag array holds, as the log has
    them. -/
structure Coupled (shape : Shape) (p : P) (log : Log) (t : Table D (TagArray P)) : Prop where
  inOrder : t.store.InOrder shape p
  trained : ∀ l way, t.store.wayOfLine l = some way → ∃ os,
    SinceAllocation shape l log os ∧ t.cells.get? way (l % shape.sets) = some (.ofOutcomes os)
  cold : ∀ set < shape.sets, ∀ way < shape.ways, t.store.lineAt set way = none →
    t.cells.get? way set = some .cold

variable {shape : Shape} {p : P} {log : Log} {t t' : Table D (TagArray P)} {o : Outcome}
  {a : Option Allocation}

/-- A new table is coupled to the empty log. -/
theorem coupled_ofStore (shape : Shape) (p : P) :
    Coupled shape p [] (ofStore (.empty shape p) shape.ways shape.sets : Table D (TagArray P)) where
  inOrder := TagArray.inOrder_empty shape p
  trained l way h := by
    change (TagArray.empty shape p).wayOfLine l = some way at h
    rw [TagArray.wayOfLine_empty] at h
    cases h
  cold set hset way hway _ := by
    rw [ofStore, Grid.get?_replicate, if_pos ⟨hway, hset⟩]

/-- A way that holds a line has an entry of outcomes for the line. -/
theorem Coupled.trained_of_lineAt {set way l : Nat} (ht : Coupled shape p log t)
    (hset : set < shape.sets) (hway : way < shape.ways) (hl : t.store.lineAt set way = some l) :
    ∃ os, SinceAllocation shape l log os ∧ t.cells.get? way set = some (.ofOutcomes os) := by
  obtain rfl := ht.inOrder.shape_eq
  obtain ⟨rfl, hfound⟩ := TagArray.wayOfLine_of_lineAt ht.inOrder.distinct hset hway hl
  exact ht.trained l way hfound

/-- There is an entry for every way of every set. -/
theorem Coupled.exists_entry (ht : Coupled shape p log t) {set way : Nat} (hset : set < shape.sets)
    (hway : way < shape.ways) : ∃ e, t.cells.get? way set = some e := by
  rcases hl : t.store.lineAt set way with _ | l
  · exact ⟨_, ht.cold set hset way hway hl⟩
  · obtain ⟨os, -, he⟩ := ht.trained_of_lineAt hset hway hl
    exact ⟨_, he⟩

/-- A step keeps the coupling if the entry it changes becomes that of the line it
    puts there. -/
theorem Coupled.moved {way : Nat} {f : Entry D → Entry D} {e : Entry D} {os : List Outcome}
    (ht : Coupled shape p log t) (h : Moved shape t o way f t') (hord : t'.store.InOrder shape p)
    (hos : SinceAllocation shape (shape.line o.pc) (log ++ [(o, a)]) os)
    (he : t.cells.get? way (shape.setIndex o.pc) = some e) (hf : f e = .ofOutcomes os) :
    Coupled shape p (log ++ [(o, a)]) t' := by
  obtain rfl := ht.inOrder.shape_eq
  refine ⟨hord, fun l way' hl => ?_, fun set hset way' hway' hl => ?_⟩
  · rw [h.inserted.wayOfLine_eq ht.inOrder.distinct] at hl
    split at hl
    next hline =>
      -- The line of `o` itself, which now has the way.
      subst hline
      cases hl
      refine ⟨os, hos, ?_⟩
      rw [← hf]
      exact h.get?_self.trans (congrArg (Option.map f) he)
    next hline =>
      split at hl
      next => cases hl
      next hkept =>
        -- Another line, which has kept its way, and its entry with it.
        obtain ⟨os', hos', he'⟩ := ht.trained l way' hl
        refine ⟨os', hos'.other (Ne.symm hline), ?_⟩
        rw [h.get?_of_ne, he']
        rintro ⟨hset, rfl⟩
        exact hkept ⟨hset, hl⟩
  · -- A way that still holds no line is not the one that was written.
    rw [h.inserted.lineAt_eq hway'] at hl
    split at hl
    next => cases hl
    next hne =>
      rw [h.get?_of_ne hne]
      exact ht.cold set hset way' hway' hl

/-- Every step keeps the coupling. -/
theorem Coupled.step (ht : Coupled shape p log t) (h : Step shape t o a t')
    (hord : t'.store.InOrder shape p) : Coupled shape p (log ++ [(o, a)]) t' := by
  cases h with
  | hit hl hmoved =>
    -- The outcome is one more for a line that was allocated before.
    obtain ⟨os, hos, he⟩ := ht.trained _ _ hl
    exact ht.moved hmoved hord (hos.hit rfl) he (Entry.ofOutcomes_concat os o).symm
  | allocate _ he hmoved =>
    -- The entry starts over, whatever it was.
    exact ht.moved hmoved hord (sinceAllocation_allocate log _ rfl) he rfl

/-- A coupled table takes a step with every outcome, and stays coupled. -/
theorem Coupled.ensures_update (ht : Coupled shape p log t) (hstride : shape.stride < UInt64.size)
    (hp : Replacement.InRange shape.sets shape.ways p) (o : Outcome) :
    (update o).Ensures t (fun a t' => Step shape t o a t' ∧ Coupled shape p (log ++ [(o, a)]) t')
      (fun f t' => Replacement.TouchFault shape.sets shape.ways p f t'.store.policy) :=
  have hcells (set : Nat) (hset : set < shape.sets) (way : Nat) (hway : way < shape.ways) :=
    ht.exists_entry hset hway
  (Table.ensures_update hstride hp ht.inOrder hcells o).mono
    (fun _ _ h => ⟨h.1, ht.step h.1 h.2⟩) fun _ _ hf => hf

/-- After any outcomes, a table over a new tag array is coupled to its log, while
    the policy stays in range. So is whatever else holds of the new table and is
    kept by the steps of coupled tables. -/
theorem ensures_each_update {J : Log → Table D (TagArray P) → Prop}
    (hstride : shape.stride < UInt64.size) (hp : Replacement.InRange shape.sets shape.ways p)
    (start : J [] (ofStore (.empty shape p) shape.ways shape.sets))
    (step : ∀ log t o a t', Coupled shape p log t → J log t → Step shape t o a t' →
      J (log ++ [(o, a)]) t') (os : List Outcome) :
    (Action.each update os).Ensures
      (ofStore (.empty shape p) shape.ways shape.sets : Table D (TagArray P))
      (fun log t => log.map Prod.fst = os ∧ Coupled shape p log t ∧ J log t)
      (fun f t => Replacement.TouchFault shape.sets shape.ways p f t.store.policy) := by
  refine Action.Ensures.each ⟨coupled_ofStore shape p, start⟩ ?_ os
  rintro log t o ⟨ht, hJ⟩
  exact (ht.ensures_update hstride hp o).mono
    (fun a t' h => ⟨h.2, step log t o a t' ht hJ h.1⟩) fun _ _ hf => hf

/-! ## What a table knows -/

/-- What the table knows of `pc` is nothing, or else what it was told by the
    outcomes for the line of `pc` since the latest allocation: the scheme has learnt
    whether they were taken, and the target is that of the last one. -/
def KnownSinceAllocation (shape : Shape) (log : Log) (t : Table D (TagArray P)) (pc : Address) :
    Prop :=
  (resident pc).run t = .ok none t ∧ (info pc).run t = .ok (.fallsThrough pc) t ∨
    ∃ earlier last, SinceAllocation shape (shape.line pc) log (earlier ++ [last]) ∧
      let direction : D := Scheme.trainAll Scheme.initial ((earlier ++ [last]).map Outcome.taken)
      let updates := UInt64.ofNat (min (earlier ++ [last]).length Entry.maxUpdates)
      let taken := Scheme.predict direction pc (some last.target)
      (resident pc).run t = .ok (some (.trained direction last.target updates)) t ∧
        (info pc).run t = .ok ⟨pc, taken, if taken then last.target else fallthrough pc⟩ t

/-- An entry predicts the last target if it predicts that the branch is taken. -/
theorem predict_trained (pc : Address) (direction : D) (target : Address) (updates : UInt64) :
    predict pc (some (.trained direction target updates)) =
      ⟨pc, Scheme.predict direction pc (some target),
        if Scheme.predict direction pc (some target) then target else fallthrough pc⟩ := by
  cases h : Scheme.predict direction pc (some target) with
  | false => simp [predict, Entry.predictTaken, h, Prediction.fallsThrough]
  | true => simp [predict, Entry.predictTaken, h, Entry.target?]

/-- What a coupled table knows is what the log has. -/
theorem Coupled.known (ht : Coupled shape p log t) (hstride : shape.stride < UInt64.size)
    (pc : Address) : KnownSinceAllocation shape log t pc := by
  obtain rfl := ht.inOrder.shape_eq
  rcases hl : t.store.wayOfLine (t.store.shape.line pc) with _ | way
  · have hresident := run_resident_of_none hstride hl
    exact .inl ⟨hresident, run_info hresident⟩
  · obtain ⟨os, hos, he⟩ := ht.trained _ _ hl
    have hresident := run_resident_of_some hstride hl he
    obtain ⟨earlier, last, rfl⟩ := hos.exists_concat
    rw [Entry.ofOutcomes_concat_eq_trained] at hresident
    have hinfo := run_info hresident
    rw [predict_trained] at hinfo
    exact .inr ⟨earlier, last, hos, hresident, hinfo⟩

end BranchPrediction.Table
