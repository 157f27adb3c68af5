import BranchPrediction.Proofs.Learning
import BranchPrediction.Scheme.OneBit
import BranchPrediction.Scheme.Static

/-!
# Inclusion

Of the same outcomes, a table with more sets or more ways keeps at least as much. Its sets
are parts of those of the smaller table, so that fewer other lines compete for them: a
line that was touched recently in terms of the smaller table was so in terms of the larger
one (`RecentlyTouched.mono`). At every moment, therefore, each line of the smaller table is
also in the larger one, where it was allocated no later, and has an entry that begins
earlier and ends with the same outcomes (`Includes`, `includes_learnt`).

Both entries have the same last target, and the larger table has counted at least as many
outcomes. Where the scheme does not look back behind the last outcome
(`Scheme.RecallsLast`), they also predict the same (`enlarging_keeps_residents`).
-/

namespace BranchPrediction

namespace Shape

/-- One set of one way, for lines of an instruction. -/
def single : Shape where
  __ := twoByTwo
  sets := 1
  ways := 1
  isPowerOfTwo_sets := Nat.isPowerOfTwo_one
  isPowerOfTwo_ways := Nat.isPowerOfTwo_one

/-- The second shape is that of the same lines, and has as many sets and ways at least. -/
structure Within (s s' : Shape) : Prop where
  sets_le : s.sets ≤ s'.sets
  ways_le : s.ways ≤ s'.ways
  lineSize_eq : s.lineSize = s'.lineSize
  addressBits_eq : s.addressBits = s'.addressBits

namespace Within

variable {s s' : Shape} (h : s.Within s')
include h

/-- Each set of the smaller shape is a union of sets of the larger one. -/
theorem sets_dvd : s.sets ∣ s'.sets :=
  Geometry.isPowerOfTwo_dvd s'.isPowerOfTwo_sets s.isPowerOfTwo_sets h.sets_le

theorem line_eq (a : Address) : s.line a = s'.line a := by
  rw [line, line, masked, masked, h.lineSize_eq, h.addressBits_eq]

theorem stride_le : s.stride ≤ s'.stride := by
  rw [stride, stride, h.lineSize_eq]
  exact Nat.mul_le_mul_left _ h.sets_le

end Within

end Shape

/-- A line that was touched recently among the lines of a set was so among those of a part
    of the set, and where there are more ways. -/
theorem RecentlyTouched.mono {s s' : Shape} {ts : List Nat} {l : Nat} (h : RecentlyTouched s ts l)
    (hs : s.Within s') : RecentlyTouched s' ts l := by
  obtain ⟨before, after, hts, hl, hcard⟩ := h
  refine ⟨before, after, hts, hl, ?_⟩
  have hsub : (after.filter fun m => m % s'.sets = l % s'.sets).toFinset ⊆
      (after.filter fun m => m % s.sets = l % s.sets).toFinset := by
    intro m hm
    simp only [List.mem_toFinset, List.mem_filter, decide_eq_true_eq] at hm ⊢
    exact ⟨hm.1, Nat.ModEq.of_dvd hs.sets_dvd hm.2⟩
  exact ((Finset.card_le_card hsub).trans_lt hcard).trans_le hs.ways_le

/-- What the scheme predicts after an outcome does not depend on what it had learnt before. -/
def Scheme.RecallsLast (D : Type) [Scheme D] : Prop :=
  ∀ (d d' : D) (taken : Bool) (pc : Address) (target : Option Address),
    Scheme.predict (Scheme.train d taken) pc target =
      Scheme.predict (Scheme.train d' taken) pc target

/-- Of two series of outcomes, only the last one of each matters. -/
theorem Scheme.RecallsLast.predict_outcomes {D : Type} [Scheme D] (h : RecallsLast D)
    (os os' : List Outcome) (last : Outcome) (pc : Address) (target : Option Address) :
    predict (trainAll (initial : D) ((os ++ [last]).map Outcome.taken)) pc target =
      predict (trainAll (initial : D) ((os' ++ [last]).map Outcome.taken)) pc target := by
  rw [List.map_append, List.map_append, trainAll_append, trainAll_append]
  exact h _ _ last.taken pc target

namespace Table

variable {D : Type} [Scheme D] {shape shape' : Shape} {ts : List Nat}
  {t t' : Table D (TagArray Lru)} {l way : Nat} {o : Outcome} {os : List Outcome}

/-! ## What is kept of a line -/

/-- The line has a way, and the entry there is that of the given outcomes. -/
def Keeps (t : Table D (TagArray Lru)) (l : Nat) (os : List Outcome) : Prop :=
  ∃ way, t.store.wayOfLine l = some way ∧
    t.cells.get? way (l % t.store.shape.sets) = some (.ofOutcomes os)

/-- A coupled table keeps outcomes of each line that has a way. -/
theorem Coupled.exists_keeps {p : Lru} {log : Log} (ht : Coupled shape p log t)
    (hl : t.store.wayOfLine l = some way) : ∃ os, Keeps t l os := by
  obtain rfl := ht.inOrder.shape_eq
  obtain ⟨os, -, he⟩ := ht.trained l way hl
  exact ⟨os, way, hl, he⟩

/-- What is kept of the line of an address is the entry of the address. -/
theorem Keeps.run_resident {pc : Address} (h : Keeps t (t.store.shape.line pc) os)
    (hstride : t.store.shape.stride < UInt64.size) :
    (resident pc).run t = .ok (some (.ofOutcomes os)) t := by
  obtain ⟨way, hl, he⟩ := h
  exact run_resident_of_some hstride hl he

section

variable (ht : t.store.HoldsRecent shape ts)
include ht

/-- Of the line of the branch, the outcome is kept along with those before. -/
theorem Keeps.learn_self (h : Keeps t (shape.line o.pc) os) :
    Keeps (t.learn o) (shape.line o.pc) (os ++ [o]) := by
  obtain ⟨way, hl, he⟩ := h
  have hway := TagArray.wayFor_of_some hl
  refine ⟨way, ?_, ?_⟩
  · rw [wayOfLine_learn ht, if_pos rfl, hway]
  · change (t.learn o).cells.get? way (shape.line o.pc % t.store.shape.sets) = _
    rw [get?_learn ht, hway, if_pos ⟨rfl, ht.shape_eq ▸ rfl⟩, he, hl, Entry.ofOutcomes_concat]
    rfl

/-- If the line had no way, the outcome alone is kept. -/
theorem keeps_learn_of_none {e : Entry D} (hl : t.store.wayOfLine (shape.line o.pc) = none)
    (he : t.cells.get? (t.store.wayFor (shape.line o.pc)) (shape.setIndex o.pc) = some e) :
    Keeps (t.learn o) (shape.line o.pc) [o] := by
  refine ⟨_, (wayOfLine_learn ht ..).trans (if_pos rfl), ?_⟩
  change (t.learn o).cells.get? _ (shape.line o.pc % t.store.shape.sets) = _
  have hset : shape.line o.pc % t.store.shape.sets = shape.setIndex o.pc := by
    rw [ht.shape_eq, Shape.setIndex]
  rw [hset, get?_learn ht, if_pos ⟨rfl, rfl⟩, he, hl]
  rfl

/-- In any case the outcome is the last that is kept of the line. -/
theorem Coupled.exists_keeps_learn {p : Lru} {log : Log} (hlog : Coupled shape p log t) :
    ∃ earlier, Keeps (t.learn o) (shape.line o.pc) (earlier ++ [o]) := by
  rcases hl : t.store.wayOfLine (shape.line o.pc) with _ | way
  · obtain ⟨e, he⟩ := hlog.exists_entry (shape.setIndex_lt o.pc) (ht.wayFor_lt (shape.line o.pc))
    exact ⟨[], keeps_learn_of_none ht hl he⟩
  · obtain ⟨os, h⟩ := hlog.exists_keeps hl
    exact ⟨os, h.learn_self ht⟩

/-- Of any other line that still has a way, the same is kept as before. -/
theorem Keeps.learn_of_ne (h : Keeps t l os) (hl : l ≠ shape.line o.pc)
    (hfound : (t.learn o).store.wayOfLine l ≠ none) : Keeps (t.learn o) l os := by
  obtain ⟨way, hway, he⟩ := h
  rw [wayOfLine_learn ht, if_neg hl] at hfound
  have hkept : ¬(l % shape.sets = shape.setIndex o.pc ∧
      t.store.wayOfLine l = some (t.store.wayFor (shape.line o.pc))) :=
    fun h => hfound (if_pos h)
  refine ⟨way, ?_, ?_⟩
  · rw [wayOfLine_learn ht, if_neg hl, if_neg hkept, hway]
  · change (t.learn o).cells.get? way (l % t.store.shape.sets) = _
    rw [get?_learn ht, if_neg, he]
    rintro ⟨rfl, hset⟩
    exact hkept ⟨ht.shape_eq ▸ hset.symm, hway⟩

end

/-! ## Two tables -/

/-- Each line of the first table is also in the second one, which keeps the same outcomes
    of it, and maybe earlier ones. -/
def Includes (t t' : Table D (TagArray Lru)) : Prop :=
  ∀ l, t.store.wayOfLine l ≠ none → ∃ earlier os last,
    Keeps t l (os ++ [last]) ∧ Keeps t' l (earlier ++ (os ++ [last]))

/-- An outcome keeps the inclusion, if all lines of the first table are still in the second. -/
theorem Includes.learn {ts' : List Nat} {p p' : Lru} {log log' : Log} (h : Includes t t')
    (ht : t.store.HoldsRecent shape ts) (ht' : t'.store.HoldsRecent shape' ts')
    (hlog : Coupled shape p log t) (hlog' : Coupled shape' p' log' t')
    (hline : shape.line o.pc = shape'.line o.pc)
    (hfound : ∀ l, (t.learn o).store.wayOfLine l ≠ none → (t'.learn o).store.wayOfLine l ≠ none) :
    Includes (t.learn o) (t'.learn o) := by
  intro l hl
  by_cases ho : l = shape.line o.pc
  · subst ho
    rcases hway : t.store.wayOfLine (shape.line o.pc) with _ | way
    · -- The first table starts over, and the second one may have kept something.
      obtain ⟨e, he⟩ := hlog.exists_entry (shape.setIndex_lt o.pc) (ht.wayFor_lt (shape.line o.pc))
      obtain ⟨earlier, hlarge⟩ := hlog'.exists_keeps_learn ht' (o := o)
      exact ⟨earlier, [], o, keeps_learn_of_none ht hway he, hline ▸ hlarge⟩
    · obtain ⟨earlier, os, last, hsmall, hlarge⟩ := h _ (hway ▸ Option.some_ne_none way)
      refine ⟨earlier, os ++ [last], o, hsmall.learn_self ht, ?_⟩
      rw [hline] at hlarge ⊢
      rw [← List.append_assoc]
      exact hlarge.learn_self ht'
  · have hbefore : t.store.wayOfLine l ≠ none := by
      intro hnone
      rw [wayOfLine_learn ht, if_neg ho, hnone, ite_self] at hl
      exact hl rfl
    obtain ⟨earlier, os, last, hsmall, hlarge⟩ := h l hbefore
    exact ⟨earlier, os, last, hsmall.learn_of_ne ht ho hl,
      hlarge.learn_of_ne ht' (hline ▸ ho) (hfound l hl)⟩

/-- Each line of the smaller table is in the larger one. -/
theorem wayOfLine_learnt_mono (h : shape.Within shape') (os : List Outcome)
    (hl : (learnt shape os : Table D (TagArray Lru)).store.wayOfLine l ≠ none) :
    (learnt shape' os : Table D (TagArray Lru)).store.wayOfLine l ≠ none := by
  have hlines : (os.map fun o => shape'.line o.pc) = os.map fun o => shape.line o.pc :=
    List.map_congr_left fun o _ => (h.line_eq o.pc).symm
  rw [← Option.isSome_iff_ne_none, (holdsRecent_learnt shape os).recentlyTouched_iff] at hl
  rw [← Option.isSome_iff_ne_none, (holdsRecent_learnt shape' os).recentlyTouched_iff, hlines]
  exact hl.mono h

/-- After the same outcomes, the larger table includes the smaller one. -/
theorem includes_learnt (h : shape.Within shape') (hstride : shape'.stride < UInt64.size)
    (os : List Outcome) :
    Includes (learnt shape os : Table D (TagArray Lru)) (learnt shape' os) := by
  induction os using List.reverseRecOn with
  | nil =>
    intro l hl
    exact absurd (TagArray.wayOfLine_empty ..) hl
  | append_singleton os o ih =>
    obtain ⟨log, -, -, hlog⟩ := run_each_update (D := D) (h.stride_le.trans_lt hstride) os
    obtain ⟨log', -, -, hlog'⟩ := run_each_update (D := D) hstride os
    have hfound := fun l => wayOfLine_learnt_mono (D := D) (l := l) h (os ++ [o])
    rw [learnt_concat, learnt_concat] at hfound ⊢
    exact ih.learn (holdsRecent_learnt ..) (holdsRecent_learnt ..) hlog hlog' (h.line_eq o.pc)
      hfound

/-- The entries of an address in both tables: the last target is the same, and the larger
    table has counted as many outcomes at least. -/
theorem Includes.exists_resident {pc : Address} {e : Entry D} (h : Includes t t')
    (hline : t.store.shape.line pc = t'.store.shape.line pc)
    (hstride : t.store.shape.stride < UInt64.size) (hstride' : t'.store.shape.stride < UInt64.size)
    (he : (resident pc).run t = .ok (some e) t) :
    ∃ direction direction' target updates updates', e = .trained direction target updates ∧
      (resident pc).run t' = .ok (some (.trained direction' target updates')) t' ∧
      updates ≤ updates' ∧ (Scheme.RecallsLast D → ∃ prediction,
        (info pc).run t = .ok prediction t ∧ (info pc).run t' = .ok prediction t') := by
  have hfound : t.store.wayOfLine (t.store.shape.line pc) ≠ none := by
    intro hnone
    rw [run_resident_of_none hstride hnone] at he
    cases he
  obtain ⟨earlier, os, last, hsmall, hlarge⟩ := h _ hfound
  rw [hline, ← List.append_assoc] at hlarge
  have hr := hsmall.run_resident hstride
  have hr' := hlarge.run_resident hstride'
  rw [Entry.ofOutcomes_concat_eq_trained] at hr hr'
  rw [he] at hr
  cases hr
  refine ⟨_, _, _, _, _, rfl, hr', ?_, fun hrecalls => ?_⟩
  · rw [UInt64.le_iff_toNat_le, Entry.toNat_ofNat_min, Entry.toNat_ofNat_min]
    simp only [List.length_append]
    omega
  · refine ⟨_, run_info he, ?_⟩
    rw [run_info hr', predict_trained, predict_trained,
      hrecalls.predict_outcomes (earlier ++ os) os last]

/-- Of the same outcomes, a table with as many sets and ways at least knows every address
    that the smaller table knows, with the same target, and has counted as many outcomes
    for it at least. It also predicts the same if the scheme recalls the last outcome only.
    Three schemes do. -/
theorem enlarging_keeps_residents :
    (∀ (D : Type) [Scheme D] (sizeInEntries ways sizeInEntries' ways' addressBits : Nat)
      (small large : Table D (TagArray Lru)),
      new sizeInEntries ways addressBits = .ok small →
      new sizeInEntries' ways' addressBits = .ok large →
      small.store.shape.sets ≤ large.store.shape.sets → ways ≤ ways' →
      large.store.shape.stride < UInt64.size →
      ∀ os, ∃ log t log' t', (Action.each update os).run small = .ok log t ∧
        (Action.each update os).run large = .ok log' t' ∧
        ∀ pc e, (resident pc).run t = .ok (some e) t →
          ∃ direction direction' target updates updates', e = .trained direction target updates ∧
            (resident pc).run t' = .ok (some (.trained direction' target updates')) t' ∧
            updates ≤ updates' ∧ (Scheme.RecallsLast D → ∃ prediction,
              (info pc).run t = .ok prediction t ∧ (info pc).run t' = .ok prediction t')) ∧
    Scheme.RecallsLast AlwaysTaken ∧ Scheme.RecallsLast BackwardTaken ∧
      Scheme.RecallsLast OneBit := by
  refine ⟨?_, fun _ _ _ _ _ => rfl, fun _ _ _ _ _ => rfl, fun _ _ _ _ _ => rfl⟩
  intro D _ sizeInEntries ways sizeInEntries' ways' addressBits small large hsmall hlarge hsets
    hways hstride os
  obtain ⟨shape, hshape, rfl⟩ := exists_shape_of_new hsmall
  obtain ⟨shape', hshape', rfl⟩ := exists_shape_of_new hlarge
  change shape'.stride < UInt64.size at hstride
  obtain ⟨-, hways₁, hlineSize, hbits⟩ := Geometry.measures_of_shape hshape
  obtain ⟨-, hways₂, hlineSize', hbits'⟩ := Geometry.measures_of_shape hshape'
  have hwithin : shape.Within shape' :=
    ⟨hsets, hways₁.trans_le (hways.trans_eq hways₂.symm), hlineSize.trans hlineSize'.symm,
      hbits.trans hbits'.symm⟩
  have hstride₁ := hwithin.stride_le.trans_lt hstride
  obtain ⟨log, hr, -, -⟩ := run_each_update (D := D) hstride₁ os
  obtain ⟨log', hr', -, -⟩ := run_each_update (D := D) hstride os
  refine ⟨log, _, log', _, hr, hr', fun pc e he => ?_⟩
  have ht := (holdsRecent_learnt (D := D) shape os).shape_eq
  have ht' := (holdsRecent_learnt (D := D) shape' os).shape_eq
  refine (includes_learnt hwithin hstride os).exists_resident ?_ ?_ ?_ he
  · rw [ht, ht']
    exact hwithin.line_eq pc
  · rwa [ht]
  · rwa [ht']

/-- One set of one way against two sets of two: the small table has only kept the last
    branch. -/
theorem enlarging_keeps_residents_oneBit :
    ∃ small large : Table OneBit (TagArray Lru), new 1 1 32 = .ok small ∧ new 4 2 32 = .ok large ∧
      small.store.shape.sets ≤ large.store.shape.sets ∧ 1 ≤ 2 ∧
      large.store.shape.stride < UInt64.size ∧
      ∃ log t log' t',
        (Action.each update [⟨0, true, 64⟩, ⟨4, true, 64⟩, ⟨0, false, 32⟩]).run small =
          .ok log t ∧
        (Action.each update [⟨0, true, 64⟩, ⟨4, true, 64⟩, ⟨0, false, 32⟩]).run large =
          .ok log' t' ∧
        (resident 0).run t = .ok (some (.trained ⟨false⟩ 32 1)) t ∧
        ∃ direction direction' target updates updates',
          (.trained ⟨false⟩ 32 1 : Entry OneBit) = .trained direction target updates ∧
          (resident 0).run t' = .ok (some (.trained direction' target updates')) t' ∧
          updates ≤ updates' ∧ (Scheme.RecallsLast OneBit → ∃ prediction,
            (info 0).run t = .ok prediction t ∧ (info 0).run t' = .ok prediction t') := by
  have hsmall : new 1 1 32 = .ok (ofShape .single : Table OneBit (TagArray Lru)) := rfl
  have hlarge : new 4 2 32 = .ok (ofShape .twoByTwo : Table OneBit (TagArray Lru)) := rfl
  have hsets : Shape.single.sets ≤ Shape.twoByTwo.sets := by decide
  obtain ⟨log, t, log', t', hr, hr', hknown⟩ := enlarging_keeps_residents.1 OneBit 1 1 4 2 32 _ _
    hsmall hlarge hsets (by decide) (by decide) [⟨0, true, 64⟩, ⟨4, true, 64⟩, ⟨0, false, 32⟩]
  have hresident : (resident 0).run t = .ok (some (.trained ⟨false⟩ 32 1)) t := by
    cases hr
    rfl
  exact ⟨_, _, hsmall, hlarge, hsets, by decide, by decide, log, t, log', t', hr, hr', hresident,
    hknown 0 _ hresident⟩

end Table

end BranchPrediction
