import BranchPrediction.Proofs.StackDistance

/-!
# Learning

A table that gives up the least recently used way has nothing to choose: every outcome
does one definite thing to it (`learn`). The line of the branch is used, and the entry of
its way is trained if the line had this way before, and else starts over. No outcome fails,
so that a run from a new table ends in the table that has learnt the outcomes one after
the other (`run_each_update`).
-/

namespace BranchPrediction

/-- What an outcome makes of the entry that its branch is given: the entry is trained if
    it was that of the branch already, and else starts over. -/
def Entry.learn {D : Type} [Scheme D] (known : Bool) (o : Outcome) (e : Entry D) : Entry D :=
  if known then e.train o.taken o.target else .ofOutcomes [o]

namespace Table

variable {D : Type} [Scheme D] {shape : Shape} {ts : List Nat} {t t' : Table D (TagArray Lru)}
  {o : Outcome} {os : List Outcome} {a : Option Allocation}

/-- The table after an outcome. -/
def learn (t : Table D (TagArray Lru)) (o : Outcome) : Table D (TagArray Lru) where
  cells := t.cells.modify (t.store.wayFor (t.store.shape.line o.pc)) (t.store.shape.setIndex o.pc)
    (Entry.learn (t.store.wayOfLine (t.store.shape.line o.pc)).isSome o)
  store := t.store.use (t.store.shape.line o.pc)

/-- The table that has learnt the given outcomes, oldest first, since it was new. -/
def learnt (shape : Shape) (os : List Outcome) : Table D (TagArray Lru) :=
  os.foldl learn (ofShape shape)

/-- One more outcome is learnt after all others. -/
theorem learnt_concat (shape : Shape) (os : List Outcome) (o : Outcome) :
    (learnt shape (os ++ [o]) : Table D (TagArray Lru)) = (learnt shape os).learn o :=
  List.foldl_append

/-- The tag array holds the lines that the outcomes touched last. -/
theorem holdsRecent_learnt (shape : Shape) (os : List Outcome) :
    (learnt shape os : Table D (TagArray Lru)).store.HoldsRecent shape
      (os.map fun o => shape.line o.pc) := by
  induction os using List.reverseRecOn with
  | nil => exact TagArray.holdsRecent_lru shape
  | append_singleton os o ih =>
    rw [learnt_concat, learn, ih.shape_eq, List.map_append]
    exact ih.use (shape.line o.pc)

section

variable (ht : t.store.HoldsRecent shape ts) (o : Outcome)
include ht

/-- The line of the branch is in its way, and every other way holds what it held. -/
theorem lineAt_learn {way : Nat} (set : Nat) (hway : way < shape.ways) :
    (t.learn o).store.lineAt set way =
      if set = shape.setIndex o.pc ∧ way = t.store.wayFor (shape.line o.pc)
      then some (shape.line o.pc) else t.store.lineAt set way := by
  obtain rfl := ht.shape_eq
  exact (ht.inserted _).lineAt_eq hway

/-- The line of the branch has this way, the line that had it has none, and all other
    lines have the ways they had. -/
theorem wayOfLine_learn (l : Nat) :
    (t.learn o).store.wayOfLine l =
      if l = shape.line o.pc then some (t.store.wayFor (shape.line o.pc))
      else if l % shape.sets = shape.setIndex o.pc ∧
        t.store.wayOfLine l = some (t.store.wayFor (shape.line o.pc)) then none
      else t.store.wayOfLine l := by
  obtain rfl := ht.shape_eq
  exact (ht.inserted _).wayOfLine_eq ht.distinct l

/-- The way of the branch is promoted in the stack of its set. -/
theorem usage_learn (set : Nat) :
    (t.learn o).store.policy.usage[set]? =
      if shape.setIndex o.pc = set
      then t.store.policy.usage[set]?.map (Lru.promote (t.store.wayFor (shape.line o.pc)))
      else t.store.policy.usage[set]? := by
  obtain rfl := ht.shape_eq
  exact Array.getElem?_modify

/-- The entry in the way of the branch learns the outcome, and no other entry changes. -/
theorem get?_learn (way set : Nat) :
    (t.learn o).cells.get? way set =
      if t.store.wayFor (shape.line o.pc) = way ∧ shape.setIndex o.pc = set
      then (t.cells.get? way set).map (Entry.learn (t.store.wayOfLine (shape.line o.pc)).isSome o)
      else t.cells.get? way set := by
  obtain rfl := ht.shape_eq
  exact Grid.get?_modify ..

end

/-- A step can only be the one that the table learns by. -/
theorem Step.eq_learn (h : Step shape t o a t') (ht : t.store.HoldsRecent shape ts)
    (hstride : shape.stride < UInt64.size) : t' = t.learn o := by
  obtain rfl := ht.shape_eq
  have hinsert := ht.run_insert hstride o.pc
  have hmoved : ∀ {way : Nat} {f : Entry D → Entry D}, Moved t.store.shape t o way f t' →
      t' = ⟨t.cells.modify (t.store.wayFor (t.store.shape.line o.pc))
        (t.store.shape.setIndex o.pc) f, t.store.use (t.store.shape.line o.pc)⟩ := by
    intro way f hmoved
    obtain ⟨hway, hstore⟩ := EStateM.Result.ok.inj (hmoved.run_insert.symm.trans hinsert)
    rw [← hway, ← hstore, ← hmoved.cells_eq]
  cases h with
  | hit hl h => rw [hmoved h, learn, hl]; rfl
  | allocate hl _ h => rw [hmoved h, learn, hl]; rfl

/-- Outcomes are reported to a new table one after the other, and it has learnt them. -/
theorem run_each_update (hstride : shape.stride < UInt64.size) (os : List Outcome) :
    ∃ log, (Action.each update os).run (ofShape shape : Table D (TagArray Lru)) =
        .ok log (learnt shape os) ∧
      log.map Prod.fst = os ∧ Coupled shape (Lru.new shape.sets shape.ways) log
        (learnt shape os : Table D (TagArray Lru)) := by
  have hrun := ensures_each_update_ofShape (D := D)
    (J := fun log t => t = learnt shape (log.map Prod.fst)) hstride rfl ?_ os
  · obtain ⟨log, t, hr, hlog, ht, rfl⟩ := hrun.exists_ok
    rw [hlog] at hr ht
    exact ⟨log, hr, hlog, ht⟩
  · rintro log t o a t' - rfl hstep
    rw [List.map_append, List.map_singleton, learnt_concat]
    exact hstep.eq_learn (holdsRecent_learnt shape _) hstride

end Table

end BranchPrediction
