import BranchPrediction.Proofs.Learning

/-!
# Isolation

The sets of a table have nothing to do with each other: an outcome reads and changes the
set of its branch only. Two tables *agree on* a set if they have the same tags, the same
usage stack and the same entries there (`AgreeOn`). An outcome of the set keeps such an
agreement (`AgreeOn.learn`), and an outcome of another set makes no difference to it
(`agreeOn_learn_of_ne`). So after any outcomes, a table agrees on a set with a table that
was told those of the set only (`agreeOn_learnt_onSet`).

Tables that agree on every set are equal (`eq_of_agreeOn`), hence it does not matter in
which order the outcomes of different sets are reported (`sets_do_not_interact`).
-/

namespace BranchPrediction

/-! ## Grids of a size -/

namespace Grid

variable {α : Type} {g g' : Grid α} {ways sets : Nat}

/-- The grid has a place for every way and set, and no other place. -/
structure Covers (ways sets : Nat) (g : Grid α) : Prop where
  size_rows : g.rows.size = ways
  size_row : ∀ (way : Nat) (row : Array α), g.rows[way]? = some row → row.size = sets

theorem covers_replicate (ways sets : Nat) (a : α) : Covers ways sets (replicate ways sets a) where
  size_rows := Array.size_replicate
  size_row way row h := by
    rw [replicate, Array.getElem?_replicate] at h
    split at h
    next =>
      cases h
      exact Array.size_replicate
    next => cases h

/-- A change adds no place and removes none. -/
theorem Covers.modify (h : Covers ways sets g) (way set : Nat) (f : α → α) :
    Covers ways sets (g.modify way set f) where
  size_rows := Array.size_modify.trans h.size_rows
  size_row way' row hrow := by
    change (g.rows.modify _ _)[way']? = some row at hrow
    rw [Array.getElem?_modify] at hrow
    split at hrow
    next =>
      obtain ⟨row', hrow', rfl⟩ := Option.map_eq_some_iff.1 hrow
      exact Array.size_modify.trans (h.size_row _ _ hrow')
    next => exact h.size_row _ _ hrow

/-- Two grids of one size are equal if they hold the same everywhere. -/
theorem Covers.ext (h : Covers ways sets g) (h' : Covers ways sets g')
    (heq : ∀ way < ways, ∀ set < sets, g.get? way set = g'.get? way set) : g = g' := by
  obtain ⟨rows⟩ := g
  obtain ⟨rows'⟩ := g'
  refine congrArg Grid.mk (Array.ext (h.size_rows.trans h'.size_rows.symm) fun way hway hway' => ?_)
  have hrow := Array.getElem?_eq_getElem hway
  have hrow' := Array.getElem?_eq_getElem hway'
  have hsize := h.size_row way _ hrow
  refine Array.ext (hsize.trans (h'.size_row way _ hrow').symm) fun set hset hset' => ?_
  have := heq way (h.size_rows ▸ hway) set (hsize ▸ hset)
  rw [get?, get?, hrow, hrow', Option.bind_some, Option.bind_some,
    Array.getElem?_eq_getElem hset, Array.getElem?_eq_getElem hset'] at this
  exact Option.some.inj this

end Grid

namespace TagArray

variable {P : Type} {t t' : TagArray P} {set way : Nat}

/-- Ways of a set hold the same tag if they hold the same line. -/
theorem tagAt_eq_iff_lineAt_eq (h : t.shape = t'.shape) :
    t.tagAt set way = t'.tagAt set way ↔ t.lineAt set way = t'.lineAt set way := by
  have hinj : Function.Injective fun tag => t.shape.sets * tag + set := fun _ _ h =>
    Nat.eq_of_mul_eq_mul_left t.shape.sets_pos (Nat.add_right_cancel h)
  rw [lineAt, lineAt, ← h]
  exact (Option.map_injective hinj).eq_iff.symm

/-- A line has the same way in tag arrays with the same tags in its set. -/
theorem wayOfLine_congr {l : Nat} (h : t.shape = t'.shape)
    (htags : ∀ way < t.shape.ways,
      t.tagAt (l % t.shape.sets) way = t'.tagAt (l % t.shape.sets) way) :
    t.wayOfLine l = t'.wayOfLine l := by
  rw [wayOfLine, wayOfLine, wayOf, wayOf, ← h]
  refine List.find?_congr fun way hway => ?_
  rw [htags way (List.mem_range.1 hway)]

/-- Tag arrays are equal if they have the same tags in every way of every set, and the same
    policy. -/
theorem eq_of_tagAt_eq (h : t.shape = t'.shape) (hpolicy : t.policy = t'.policy)
    (htags : ∀ set < t.shape.sets, ∀ way < t.shape.ways, t.tagAt set way = t'.tagAt set way) :
    t = t' := by
  obtain ⟨shape, slots, policy⟩ := t
  obtain ⟨shape', slots', policy'⟩ := t'
  obtain rfl : shape = shape' := h
  obtain rfl : policy = policy' := hpolicy
  refine congrArg (TagArray.mk shape · policy) (Vector.ext fun i hi => ?_)
  -- Every slot is that of a way of a set.
  have htag := htags (i / shape.ways) (Nat.div_lt_of_lt_mul (Nat.mul_comm .. ▸ hi)) (i % shape.ways)
    (Nat.mod_lt _ shape.ways_pos)
  have hslot : i / shape.ways * shape.ways + i % shape.ways = i := Nat.div_add_mod' ..
  simp only [tagAt, slot, hslot, Vector.getElem?_eq_getElem hi, Option.join_some] at htag
  exact htag

end TagArray

namespace Table

variable {D : Type} [Scheme D] {shape : Shape} {ts ts' : List Nat}
  {t t' t'' : Table D (TagArray Lru)} {set : Nat} {o : Outcome} {os os' : List Outcome}

/-- Both tables of the given shape have the same on a set. -/
structure AgreeOn (shape : Shape) (set : Nat) (t t' : Table D (TagArray Lru)) : Prop where
  /-- The same tags in the ways of the set. -/
  tagAt_eq : ∀ way < shape.ways, t.store.tagAt set way = t'.store.tagAt set way
  /-- The same usage stack. -/
  usage_eq : t.store.policy.usage[set]? = t'.store.policy.usage[set]?
  /-- The same entries. -/
  entry_eq : ∀ way < shape.ways, t.cells.get? way set = t'.cells.get? way set

section

omit [Scheme D]

theorem AgreeOn.refl (shape : Shape) (set : Nat) (t : Table D (TagArray Lru)) :
    AgreeOn shape set t t :=
  ⟨fun _ _ => rfl, rfl, fun _ _ => rfl⟩

theorem AgreeOn.symm (h : AgreeOn shape set t t') : AgreeOn shape set t' t :=
  ⟨fun way hway => (h.tagAt_eq way hway).symm, h.usage_eq.symm,
    fun way hway => (h.entry_eq way hway).symm⟩

theorem AgreeOn.trans (h : AgreeOn shape set t t') (h' : AgreeOn shape set t' t'') :
    AgreeOn shape set t t'' :=
  ⟨fun way hway => (h.tagAt_eq way hway).trans (h'.tagAt_eq way hway),
    h.usage_eq.trans h'.usage_eq,
    fun way hway => (h.entry_eq way hway).trans (h'.entry_eq way hway)⟩

/-- Tables that have the same lines in a set have the same tags there. -/
theorem AgreeOn.of_lineAt (hshape : t.store.shape = t'.store.shape)
    (hline : ∀ way < shape.ways, t.store.lineAt set way = t'.store.lineAt set way)
    (husage : t.store.policy.usage[set]? = t'.store.policy.usage[set]?)
    (hentry : ∀ way < shape.ways, t.cells.get? way set = t'.cells.get? way set) :
    AgreeOn shape set t t' :=
  ⟨fun way hway => (TagArray.tagAt_eq_iff_lineAt_eq hshape).2 (hline way hway), husage, hentry⟩

variable (ht : t.store.HoldsRecent shape ts) (ht' : t'.store.HoldsRecent shape ts')
include ht ht'

/-- A line of the set has the same way in both tables. -/
theorem AgreeOn.wayOfLine_eq {l : Nat} (h : AgreeOn shape (l % shape.sets) t t') :
    t.store.wayOfLine l = t'.store.wayOfLine l := by
  obtain rfl := ht.shape_eq
  exact TagArray.wayOfLine_congr ht'.shape_eq.symm h.tagAt_eq

/-- A line of the set is put into the same way in both tables. -/
theorem AgreeOn.wayFor_eq {l : Nat} (h : AgreeOn shape (l % shape.sets) t t') :
    t.store.wayFor l = t'.store.wayFor l := by
  rw [TagArray.wayFor, TagArray.wayFor, h.wayOfLine_eq ht ht', ht.shape_eq, ht'.shape_eq,
    h.usage_eq]

end

/-! ## Outcomes -/

/-- An outcome changes nothing on the sets of other branches. -/
theorem agreeOn_learn_of_ne (ht : t.store.HoldsRecent shape ts) (ho : shape.setIndex o.pc ≠ set) :
    AgreeOn shape set (t.learn o) t := by
  refine .of_lineAt rfl (fun way hway => ?_) ?_ fun way _ => ?_
  · rw [lineAt_learn ht o set hway, if_neg fun h => ho h.1.symm]
  · rw [usage_learn ht o, if_neg ho]
  · rw [get?_learn ht o, if_neg fun h => ho h.2]

/-- An outcome does the same to tables that agree on the set of its branch. -/
theorem AgreeOn.learn (h : AgreeOn shape (shape.setIndex o.pc) t t')
    (ht : t.store.HoldsRecent shape ts) (ht' : t'.store.HoldsRecent shape ts') :
    AgreeOn shape (shape.setIndex o.pc) (t.learn o) (t'.learn o) := by
  have hshape := ht.shape_eq.trans ht'.shape_eq.symm
  refine .of_lineAt hshape (fun way hway => ?_) ?_ fun way hway => ?_
  · rw [lineAt_learn ht o _ hway, lineAt_learn ht' o _ hway, h.wayFor_eq ht ht',
      (TagArray.tagAt_eq_iff_lineAt_eq hshape).1 (h.tagAt_eq way hway)]
  · rw [usage_learn ht o, usage_learn ht' o, h.wayFor_eq ht ht', h.usage_eq]
  · rw [get?_learn ht o, get?_learn ht' o, h.wayFor_eq ht ht', h.wayOfLine_eq ht ht',
      h.entry_eq way hway]

/-- The outcomes whose branches belong to the set. -/
def onSet (shape : Shape) (set : Nat) (os : List Outcome) : List Outcome :=
  os.filter fun o => shape.setIndex o.pc = set

/-- An outcome counts if it is of the set. -/
theorem onSet_concat (shape : Shape) (set : Nat) (os : List Outcome) (o : Outcome) :
    onSet shape set (os ++ [o]) =
      onSet shape set os ++ if shape.setIndex o.pc = set then [o] else [] := by
  rw [onSet, List.filter_append, List.filter_cons]
  simp only [decide_eq_true_eq, List.filter_nil]
  rfl

/-- On a set, a table has learnt nothing but the outcomes of the set. -/
theorem agreeOn_learnt_onSet (shape : Shape) (set : Nat) (os : List Outcome) :
    AgreeOn shape set (learnt shape os : Table D (TagArray Lru))
      (learnt shape (onSet shape set os)) := by
  induction os using List.reverseRecOn with
  | nil => exact .refl ..
  | append_singleton os o ih =>
    rw [onSet_concat, learnt_concat]
    split
    next ho =>
      subst ho
      rw [learnt_concat]
      exact ih.learn (holdsRecent_learnt ..) (holdsRecent_learnt ..)
    next ho =>
      rw [List.append_nil]
      exact (agreeOn_learn_of_ne (holdsRecent_learnt ..) ho).trans ih

/-- Tables that were told the same of a set agree on it. -/
theorem agreeOn_of_onSet_eq (h : onSet shape set os = onSet shape set os') :
    AgreeOn shape set (learnt shape os : Table D (TagArray Lru)) (learnt shape os') := by
  have hos := agreeOn_learnt_onSet (D := D) shape set os
  rw [h] at hos
  exact hos.trans (agreeOn_learnt_onSet shape set os').symm

/-- Of two outcomes of different sets, one at most is of the set. -/
theorem onSet_comm {o' : Outcome} (h : shape.setIndex o.pc ≠ shape.setIndex o'.pc) :
    onSet shape set (os ++ [o, o']) = onSet shape set (os ++ [o', o]) := by
  rw [List.append_cons, List.append_cons os o', onSet_concat, onSet_concat, onSet_concat,
    onSet_concat]
  by_cases ho : shape.setIndex o.pc = set
  · have ho' : shape.setIndex o'.pc ≠ set := fun h' => h (ho.trans h'.symm)
    rw [if_neg ho', List.append_nil, List.append_nil]
  · rw [if_neg ho, List.append_nil, List.append_nil]

/-! ## Tables -/

/-- A table has an entry for every way of every set, and no other entry. -/
theorem covers_learnt (shape : Shape) (os : List Outcome) :
    (learnt shape os : Table D (TagArray Lru)).cells.Covers shape.ways shape.sets := by
  induction os using List.reverseRecOn with
  | nil => exact Grid.covers_replicate ..
  | append_singleton os o ih =>
    rw [learnt_concat]
    exact ih.modify ..

/-- Tables that agree on every set have learnt to the same effect. -/
theorem eq_of_agreeOn
    (h : ∀ set, AgreeOn shape set (learnt shape os : Table D (TagArray Lru)) (learnt shape os')) :
    (learnt shape os : Table D (TagArray Lru)) = learnt shape os' := by
  have ht := holdsRecent_learnt (D := D) shape os
  have ht' := holdsRecent_learnt (D := D) shape os'
  have hcells := (covers_learnt (D := D) shape os).ext (covers_learnt shape os')
    fun way hway set _ => (h set).entry_eq way hway
  have husage := congrArg Lru.mk (Array.ext_getElem? fun set => (h set).usage_eq)
  have hstore := TagArray.eq_of_tagAt_eq (ht.shape_eq.trans ht'.shape_eq.symm) husage
    fun set _ way hway => (h set).tagAt_eq way (ht.shape_eq ▸ hway)
  exact congrArg₂ Table.mk hcells hstore

/-- Tables that agree on the set of an address predict the same for it. -/
theorem AgreeOn.exists_run_info {p : Lru} {log : Log} {pc : Address}
    (h : AgreeOn shape (shape.setIndex pc) t t') (hstride : shape.stride < UInt64.size)
    (ht : t.store.HoldsRecent shape ts) (ht' : t'.store.HoldsRecent shape ts')
    (hlog : Coupled shape p log t) :
    ∃ prediction, (info pc).run t = .ok prediction t ∧ (info pc).run t' = .ok prediction t' := by
  have hfound := h.wayOfLine_eq ht ht'
  have hshape := ht'.shape_eq
  obtain rfl := ht.shape_eq
  rcases hl : t.store.wayOfLine (t.store.shape.line pc) with _ | way
  · have hl' : t'.store.wayOfLine (t'.store.shape.line pc) = none := by rw [hshape, ← hfound, hl]
    exact ⟨_, run_info (run_resident_of_none hstride hl),
      run_info (run_resident_of_none (hshape ▸ hstride) hl')⟩
  · have hl' : t'.store.wayOfLine (t'.store.shape.line pc) = some way := by
      rw [hshape, ← hfound, hl]
    obtain ⟨os, -, he⟩ := hlog.trained _ _ hl
    have he' : t'.cells.get? way (t'.store.shape.setIndex pc) = some (.ofOutcomes os) := by
      rw [hshape, ← h.entry_eq way (TagArray.lineAt_of_wayOfLine hl).1]
      exact he
    exact ⟨_, run_info (run_resident_of_some hstride hl he),
      run_info (run_resident_of_some (hshape ▸ hstride) hl' he')⟩

/-- Two new tables of one shape that are told the same outcomes for a set, in the same
    order, agree on the set, whatever they are told of other sets and in whatever order.
    They also predict the same for the addresses of the set. So outcomes of different
    sets may be reported in either order. -/
theorem sets_do_not_interact {sizeInEntries ways addressBits : Nat} {table : Table D (TagArray Lru)}
    (htable : new sizeInEntries ways addressBits = .ok table)
    (hstride : table.store.shape.stride < UInt64.size) :
    (∀ set os os', onSet table.store.shape set os = onSet table.store.shape set os' →
      ∃ log t log' t', (Action.each update os).run table = .ok log t ∧
        (Action.each update os').run table = .ok log' t' ∧
        AgreeOn table.store.shape set t t' ∧
        ∀ pc, table.store.shape.setIndex pc = set → ∃ prediction,
          (info pc).run t = .ok prediction t ∧ (info pc).run t' = .ok prediction t') ∧
    ∀ os o o', table.store.shape.setIndex o.pc ≠ table.store.shape.setIndex o'.pc →
      ∃ log log' t, (Action.each update (os ++ [o, o'])).run table = .ok log t ∧
        (Action.each update (os ++ [o', o])).run table = .ok log' t := by
  obtain ⟨shape, -, rfl⟩ := exists_shape_of_new htable
  change shape.stride < UInt64.size at hstride
  constructor
  · intro set os os' h
    obtain ⟨log, hr, -, hlog⟩ := run_each_update (D := D) hstride os
    obtain ⟨log', hr', -, -⟩ := run_each_update (D := D) hstride os'
    have hagree := agreeOn_of_onSet_eq (D := D) h
    refine ⟨log, _, log', _, hr, hr', hagree, fun pc hpc => ?_⟩
    subst hpc
    exact hagree.exists_run_info hstride (holdsRecent_learnt ..) (holdsRecent_learnt ..) hlog
  · intro os o o' ho
    change shape.setIndex o.pc ≠ shape.setIndex o'.pc at ho
    obtain ⟨log, hr, -, -⟩ := run_each_update (D := D) hstride (os ++ [o, o'])
    obtain ⟨log', hr', -, -⟩ := run_each_update (D := D) hstride (os ++ [o', o])
    refine ⟨log, log', _, hr, ?_⟩
    rw [hr', eq_of_agreeOn fun set => agreeOn_of_onSet_eq (onSet_comm ho)]

/-- The branches at `0` and `8` share a set, and the branches at `4` and `12` the other. -/
theorem sets_do_not_interact_twoBit :
    ∃ table : Table TwoBit (TagArray Lru), new 4 2 32 = .ok table ∧
      table.store.shape.stride < UInt64.size ∧
      onSet table.store.shape 0 [⟨0, true, 64⟩, ⟨4, true, 64⟩, ⟨8, true, 64⟩] =
        onSet table.store.shape 0 [⟨0, true, 64⟩, ⟨8, true, 64⟩, ⟨12, false, 64⟩] ∧
      (∃ log t log' t',
        (Action.each update [⟨0, true, 64⟩, ⟨4, true, 64⟩, ⟨8, true, 64⟩]).run table = .ok log t ∧
        (Action.each update [⟨0, true, 64⟩, ⟨8, true, 64⟩, ⟨12, false, 64⟩]).run table =
          .ok log' t' ∧
        AgreeOn table.store.shape 0 t t' ∧
        ∀ pc, table.store.shape.setIndex pc = 0 → ∃ prediction,
          (info pc).run t = .ok prediction t ∧ (info pc).run t' = .ok prediction t') ∧
      table.store.shape.setIndex 0 ≠ table.store.shape.setIndex 4 ∧
      ∃ log log' t,
        (Action.each update [⟨8, true, 64⟩, ⟨0, true, 64⟩, ⟨4, true, 64⟩]).run table = .ok log t ∧
        (Action.each update [⟨8, true, 64⟩, ⟨4, true, 64⟩, ⟨0, true, 64⟩]).run table =
          .ok log' t := by
  have htable : new 4 2 32 = .ok (ofShape .twoByTwo : Table TwoBit (TagArray Lru)) := rfl
  obtain ⟨hagree, hcomm⟩ := sets_do_not_interact htable (by decide)
  have hsame : onSet .twoByTwo 0 [⟨0, true, 64⟩, ⟨4, true, 64⟩, ⟨8, true, 64⟩] =
      onSet .twoByTwo 0 [⟨0, true, 64⟩, ⟨8, true, 64⟩, ⟨12, false, 64⟩] := by decide
  have hne : Shape.twoByTwo.setIndex 0 ≠ Shape.twoByTwo.setIndex 4 := by decide
  exact ⟨_, htable, by decide, hsame, hagree 0 _ _ hsame, hne,
    hcomm [⟨8, true, 64⟩] ⟨0, true, 64⟩ ⟨4, true, 64⟩ hne⟩

end Table

end BranchPrediction
