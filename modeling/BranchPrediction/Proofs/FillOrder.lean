import BranchPrediction.Proofs.Eviction
import BranchPrediction.Proofs.Learning

/-!
# Fill order

A table that gives up the least recently used way never looks for an empty one. It fills all
ways before it evicts a line nevertheless, because the ways that were not used yet lie at the
bottom of the usage stack, the highest of them last, and a touch of any other way moves it
within the part of the stack above them (`FilledDown`). Each allocation takes the last of these
ways, from the highest one on down to the lowest. Once there are none left, the way at the
bottom is that of the line that was used before all others (`HoldsRecent.laterThan_of_bottom`).

So the first allocations of a set, as many as there are ways, evict nothing, and every later
one evicts the least recently updated line of the set (`fills_before_evicting`).
-/

namespace BranchPrediction

namespace TagArray

variable {shape : Shape} {ts : List Nat} {t : TagArray Lru} {set l m n way : Nat}

/-- After `n` allocations in the set, only its other ways hold nothing: those with the lowest
    numbers, which lie in order at the bottom of the stack. -/
structure FilledDown (shape : Shape) (set n : Nat) (t : TagArray Lru) : Prop where
  lineAt_eq_none_iff : ∀ way < shape.ways, t.lineAt set way = none ↔ way < shape.ways - n
  exists_stack : ∃ used, t.policy.usage[set]? = some (used ++ List.range (shape.ways - n))

/-- In a new tag array, no way is filled. -/
theorem filledDown_lru (hset : set < shape.sets) : FilledDown shape set 0 (lru shape) where
  lineAt_eq_none_iff way hway := iff_of_true (lineAt_empty _ _ _ _) hway
  exists_stack := ⟨[], by rw [lru, empty, Lru.new, Array.getElem?_replicate, if_pos hset]; rfl⟩

/-- The lowest way is the last one to be filled. -/
theorem FilledDown.bottom_eq (h : FilledDown shape set n t) {stack : List Nat}
    (hstack : t.policy.usage[set]? = some stack) (hn : n < shape.ways) :
    Lru.bottom stack = shape.ways - 1 - n := by
  obtain ⟨used, hused⟩ := h.exists_stack
  have hrange : shape.ways - n = shape.ways - 1 - n + 1 := by omega
  rw [hstack, hrange, List.range_succ, ← List.append_assoc] at hused
  rw [Option.some.inj hused, Lru.bottom_concat]

section

variable (ht : HoldsRecent shape ts t)
include ht

/-- Along the stack of a set, a line is later than those below it. -/
theorem HoldsRecent.pairwise_stack {stack : List Nat} (hset : set < shape.sets)
    (hstack : t.policy.usage[set]? = some stack) :
    stack.Pairwise fun way way' => ∀ m l, t.lineAt set way = some m → t.lineAt set way' = some l →
      LaterThan ts m l := by
  have hrecency : (recency (ts.filter fun m => m % shape.sets = set)).Pairwise (LaterThan ts) := by
    rw [recency_filter]
    exact (pairwise_recency ts).filter _
  have hwindow := pairwise_window hrecency shape.ways
  rw [← ht.map_lineAt set hset stack hstack, List.pairwise_map] at hwindow
  exact hwindow

/-- Every other line of a set is later than the one in the way at the bottom. -/
theorem HoldsRecent.laterThan_of_bottom {stack : List Nat} (hset : set < shape.sets)
    (hstack : t.policy.usage[set]? = some stack) (hway : way < shape.ways)
    (hm : t.lineAt set way = some m) (hl : t.lineAt set (Lru.bottom stack) = some l)
    (hne : m ≠ l) : LaterThan ts m l := by
  have hperm := ht.stacked.perm set stack hstack
  have hbottom : way ≠ Lru.bottom stack := by
    rintro rfl
    exact hne (Option.some.inj (hm.symm.trans hl))
  exact Lru.rel_bottom shape.ways_pos hperm (ht.pairwise_stack hset hstack)
    (hperm.mem_iff.2 (List.mem_range.2 hway)) hbottom m l hm hl

/-- A line of another set leaves the set as it is. -/
theorem FilledDown.use_of_ne (h : FilledDown shape set n t) (hne : l % shape.sets ≠ set) :
    FilledDown shape set n (t.use l) := by
  obtain rfl := ht.shape_eq
  constructor
  · intro way hway
    rw [(ht.inserted l).lineAt_eq hway, if_neg fun h' => hne h'.1.symm]
    exact h.lineAt_eq_none_iff way hway
  · obtain ⟨used, hused⟩ := h.exists_stack
    exact ⟨used, by rw [usage_use, if_neg hne, hused]⟩

/-- A line that has a way is only moved among those that have one. -/
theorem FilledDown.use_of_some (h : FilledDown shape (l % shape.sets) n t)
    (hl : t.wayOfLine l = some way) : FilledDown shape (l % shape.sets) n (t.use l) := by
  obtain rfl := ht.shape_eq
  obtain ⟨hway, hline⟩ := lineAt_of_wayOfLine hl
  constructor
  · rw [TagArray.use_of_some hl]
    exact h.lineAt_eq_none_iff
  · obtain ⟨used, hused⟩ := h.exists_stack
    have hmem : way ∈ used ++ List.range (t.shape.ways - n) :=
      (ht.stacked.perm _ _ hused).mem_iff.2 (List.mem_range.2 hway)
    -- The way is not one of those that hold nothing.
    have hfilled : way ∉ List.range (t.shape.ways - n) := fun hempty => by
      rw [List.mem_range, ← h.lineAt_eq_none_iff way hway, hline] at hempty
      cases hempty
    have hused' : way ∈ used := (List.mem_append.1 hmem).resolve_right hfilled
    refine ⟨way :: used.erase way, ?_⟩
    rw [usage_use, if_pos rfl, hused, Option.map_some, wayFor_of_some hl, Lru.promote,
      if_pos hmem, List.erase_append_left _ hused', List.cons_append]

section

variable (h : FilledDown shape (l % shape.sets) n t) (hl : t.wayOfLine l = none)
include h hl

/-- In a set that is not full, a line without a way is given the next way down. -/
theorem FilledDown.wayFor_eq (hn : n < shape.ways) : t.wayFor l = shape.ways - 1 - n := by
  obtain rfl := ht.shape_eq
  obtain ⟨used, hused⟩ := h.exists_stack
  rw [wayFor_of_none hl hused, h.bottom_eq hused hn]

/-- Once the line is there, one way less holds nothing. -/
theorem FilledDown.lineAt_use_eq_none_iff (hway : way < shape.ways) :
    (t.use l).lineAt (l % shape.sets) way = none ↔ way < shape.ways - (n + 1) := by
  have hnext := h.wayFor_eq ht hl
  obtain rfl := ht.shape_eq
  rw [(ht.inserted l).lineAt_eq hway]
  by_cases hline : way = t.wayFor l
  · rw [if_pos ⟨rfl, hline⟩]
    refine iff_of_false (Option.some_ne_none l) fun hempty => ?_
    have := hnext (by omega)
    omega
  · rw [if_neg fun heq => hline heq.2, h.lineAt_eq_none_iff way hway]
    -- No other way lies between the two bounds.
    refine ⟨fun hempty => ?_, fun hempty => by omega⟩
    have := hnext (by omega)
    omega

/-- The way is taken from the bottom of the stack, and with it the last of those that hold
    nothing. -/
theorem FilledDown.exists_stack_use : ∃ used,
    (t.use l).policy.usage[l % shape.sets]? = some (used ++ List.range (shape.ways - (n + 1))) := by
  obtain rfl := ht.shape_eq
  obtain ⟨used, hused⟩ := h.exists_stack
  have hperm := ht.stacked.perm _ _ hused
  rw [usage_use, if_pos rfl, hused, Option.map_some, wayFor_of_none hl hused,
    Lru.promote_bottom t.shape.ways_pos hperm]
  rcases Nat.lt_or_ge n t.shape.ways with hn | hn
  · have hrange : t.shape.ways - n = t.shape.ways - (n + 1) + 1 := by omega
    refine ⟨Lru.bottom (used ++ List.range (t.shape.ways - n)) :: used, ?_⟩
    rw [hrange, List.range_succ, ← List.append_assoc, List.dropLast_concat, List.cons_append]
  · have hrange : t.shape.ways - (n + 1) = 0 := by omega
    exact ⟨_, by rw [hrange, List.range_zero, List.append_nil]⟩

/-- A line without a way fills the next one down. -/
theorem FilledDown.use_of_none : FilledDown shape (l % shape.sets) (n + 1) (t.use l) where
  lineAt_eq_none_iff _ hway := h.lineAt_use_eq_none_iff ht hl hway
  exists_stack := h.exists_stack_use ht hl

end

end

end TagArray

namespace Table

variable {D : Type} [Scheme D] {shape : Shape} {log : Log} {t t' : Table D (TagArray Lru)}
  {o : Outcome} {a : Option Allocation} {al : Allocation} {ts : List Nat}

/-- The number of allocations in a set so far. -/
def Log.allocations (set : Nat) (log : Log) : Nat :=
  log.countP fun e => e.2.any fun al => al.set = set

/-- The lines of the branches in the log. -/
def Log.lines (shape : Shape) (log : Log) : List Nat := log.map fun e => shape.line e.1.pc

/-- The line is resident in the set, and every other line that is resident there has been
    updated since it was. -/
structure LeastRecent (shape : Shape) (log : Log) (t : Table D (TagArray Lru)) (set l : Nat) :
    Prop where
  mod_eq : l % shape.sets = set
  resident : t.store.Resident l
  laterThan : ∀ m, m % shape.sets = set → t.store.Resident m → m ≠ l →
    LaterThan (log.lines shape) m l

/-- What is seen of the allocation `al` that the outcome `o` makes after those of the log. -/
structure AllocatesNext (shape : Shape) (log : Log) (t : Table D (TagArray Lru)) (o : Outcome)
    (al : Allocation) (t' : Table D (TagArray Lru)) : Prop where
  pc_eq : al.pc = o.pc
  set_eq : al.set = shape.setIndex o.pc
  /-- The first allocations of a set fill its ways, from the highest one down. -/
  fills : log.allocations al.set < shape.ways →
    al.way = shape.ways - 1 - log.allocations al.set ∧ al.evicted = false ∧
    ∀ m, t.store.Resident m → t'.store.Resident m
  /-- All others take the way of the least recently updated line, and no other line loses
      its way. -/
  evicts : shape.ways ≤ log.allocations al.set → al.evicted = true ∧ ∃ l,
    LeastRecent shape log t al.set l ∧
    (∀ b, shape.line b = l → (TagArray.peek b).run t.store = .ok (some al.way) t.store) ∧
    ∀ m, t.store.Resident m ∧ ¬t'.store.Resident m ↔ m = l

/-- An allocation counts for its set. -/
theorem Log.allocations_concat (set : Nat) (log : Log) (o : Outcome) (a : Option Allocation) :
    Log.allocations set (log ++ [(o, a)]) =
      log.allocations set + if a.any fun al => al.set = set then 1 else 0 := by
  rw [allocations, List.countP_append, List.countP_singleton, allocations]

/-- The branch of an outcome is the last one. -/
theorem Log.lines_concat (shape : Shape) (log : Log) (o : Outcome) (a : Option Allocation) :
    Log.lines shape (log ++ [(o, a)]) = log.lines shape ++ [shape.line o.pc] :=
  List.map_append

/-- The tag array holds the lines touched last, and its sets are filled by the allocations. -/
structure FilledByLog (shape : Shape) (log : Log) (t : Table D (TagArray Lru)) : Prop where
  holdsRecent : t.store.HoldsRecent shape (log.lines shape)
  filledDown : ∀ set < shape.sets, t.store.FilledDown shape set (log.allocations set)

omit [Scheme D] in
/-- A new table has not allocated anything. -/
theorem filledByLog_ofShape (shape : Shape) :
    FilledByLog shape [] (ofShape shape : Table D (TagArray Lru)) :=
  ⟨TagArray.holdsRecent_lru shape, fun _ => TagArray.filledDown_lru⟩

/-- An outcome uses the line of its branch. -/
theorem Step.store_eq (h : Step shape t o a t') (ht : t.store.HoldsRecent shape ts)
    (hstride : shape.stride < UInt64.size) : t'.store = t.store.use (shape.line o.pc) := by
  obtain rfl := ht.shape_eq
  rw [h.eq_learn ht hstride, learn]

/-- An allocation takes the way that the tag array gives to the line. -/
theorem Step.way_eq (h : Step shape t o (some al) t') (ht : t.store.HoldsRecent shape ts)
    (hstride : shape.stride < UInt64.size) : al.way = t.store.wayFor (shape.line o.pc) := by
  cases h with
  | allocate _ _ hmoved =>
    exact (EStateM.Result.ok.inj (hmoved.run_insert.symm.trans (ht.run_insert hstride o.pc))).1

/-- Every step keeps this. -/
theorem FilledByLog.step (ht : FilledByLog shape log t) (hstride : shape.stride < UInt64.size)
    (h : Step shape t o a t') : FilledByLog shape (log ++ [(o, a)]) t' := by
  have hrecent := ht.holdsRecent
  refine ⟨?_, fun set hset => ?_⟩
  · rw [h.store_eq hrecent hstride, Log.lines_concat]
    exact hrecent.use _
  · have hfilled := ht.filledDown set hset
    rw [h.store_eq hrecent hstride, Log.allocations_concat]
    by_cases hline : shape.setIndex o.pc = set
    · subst hline
      cases h with
      | hit hl _ => exact hfilled.use_of_some hrecent hl
      | allocate hl _ _ =>
        rw [Option.any_some, decide_eq_true rfl, if_pos rfl]
        exact hfilled.use_of_none hrecent hl
    · have hnone : (a.any fun al => al.set = set) = false := by
        cases h with
        | hit => rfl
        | allocate => exact decide_eq_false hline
      rw [hnone]
      exact hfilled.use_of_ne hrecent hline

section

variable (hc : Coupled shape (Lru.new shape.sets shape.ways) log t) (ht : FilledByLog shape log t)
  (hstride : shape.stride < UInt64.size) (h : Step shape t o (some al) t')
  (hc' : Coupled shape (Lru.new shape.sets shape.ways) (log ++ [(o, some al)]) t')
include ht hstride h

/-- An allocation in a set that is not full takes the next way down. -/
theorem FilledByLog.way_eq (hn : log.allocations al.set < shape.ways) :
    al.way = shape.ways - 1 - log.allocations al.set := by
  rw [h.way_eq ht.holdsRecent hstride]
  cases h with
  | allocate hl _ _ =>
    exact (ht.filledDown _ (shape.setIndex_lt o.pc)).wayFor_eq ht.holdsRecent hl hn

include hc

/-- An allocation evicts if and only if its set is full. -/
theorem FilledByLog.evicted_iff_le :
    al.evicted = true ↔ shape.ways ≤ log.allocations al.set := by
  have hset : al.set < shape.sets := by
    cases h with
    | allocate => exact shape.setIndex_lt o.pc
  have hway : al.way < shape.ways := by
    rw [h.way_eq ht.holdsRecent hstride]
    exact ht.holdsRecent.wayFor_lt _
  rw [evicted_iff hc h, ne_eq, (ht.filledDown al.set hset).lineAt_eq_none_iff al.way hway]
  constructor
  · intro hnot
    by_contra hn
    have := ht.way_eq hstride h (by omega)
    omega
  · intro hn
    omega

/-- The line in the way of an allocation is the least recently updated one of the set. -/
theorem FilledByLog.leastRecent {l : Nat} (hl : t.store.lineAt al.set al.way = some l) :
    LeastRecent shape log t al.set l ∧ t.store.wayOfLine l = some al.way := by
  obtain rfl := ht.holdsRecent.shape_eq
  have hdistinct := ht.holdsRecent.distinct
  have hwayFor := h.way_eq ht.holdsRecent hstride
  have hway : al.way < t.store.shape.ways := hwayFor ▸ ht.holdsRecent.wayFor_lt _
  cases h with
  | allocate hnone _ _ =>
    have hset := t.store.shape.setIndex_lt o.pc
    obtain ⟨hmod, hfound⟩ := TagArray.wayOfLine_of_lineAt hdistinct hset hway hl
    obtain ⟨stack, hstack, -⟩ := ht.holdsRecent.stacked.exists_stack hset
    rw [hwayFor, TagArray.wayFor_of_none hnone hstack] at hl
    refine ⟨⟨hmod, (hc.resident_iff hstride).2 (hfound ▸ Option.some_ne_none _), ?_⟩, hfound⟩
    intro m hm hresident hne
    obtain ⟨way, hway'⟩ := Option.ne_none_iff_exists'.1 ((hc.resident_iff hstride).1 hresident)
    obtain ⟨hlt, hline⟩ := TagArray.lineAt_of_wayOfLine hway'
    rw [hm] at hline
    exact ht.holdsRecent.laterThan_of_bottom hset hstack hlt hline hl hne

include hc'

/-- Every allocation is the next one in its set. -/
theorem FilledByLog.allocatesNext : AllocatesNext shape log t o al t' := by
  have hevicted := ht.evicted_iff_le hc hstride h
  have hlost := evicts_iff hc hstride h hc'
  refine ⟨?_, ?_, fun hn => ?_, fun hn => ⟨hevicted.2 hn, ?_⟩⟩
  · cases h with
    | allocate => rfl
  · cases h with
    | allocate => rfl
  · have hnot : al.evicted = false := by
      rw [← Bool.not_eq_true, hevicted]
      omega
    exact ⟨ht.way_eq hstride h hn, hnot, hlost.2.1 hnot⟩
  · obtain ⟨l, hl⟩ := Option.ne_none_iff_exists'.1 ((evicted_iff hc h).1 (hevicted.2 hn))
    obtain ⟨hleast, hfound⟩ := ht.leastRecent hc hstride h hl
    obtain rfl := hc.inOrder.shape_eq
    refine ⟨l, hleast, fun b hb => ?_, fun m => ?_⟩
    · rw [TagArray.run_peek_eq hstride, hb, hfound]
    · rw [lost_iff hc hstride h hc', hl, Option.some.injEq]
      exact eq_comm

end

/-- An outcome makes an allocation if and only if its branch is not resident. -/
theorem Step.eq_none_iff (h : Step shape t o a t')
    (hc : Coupled shape (Lru.new shape.sets shape.ways) log t)
    (hstride : shape.stride < UInt64.size) :
    a = none ↔ t.store.Resident (shape.line o.pc) := by
  rw [hc.resident_iff hstride]
  cases h with
  | hit hl _ => exact iff_of_true rfl (hl ▸ Option.some_ne_none _)
  | allocate hl _ _ => exact iff_of_false (Option.some_ne_none _) fun hne => hne hl

/-- In a new table that gives up the least recently used way, no outcome fails, and the outcomes
    of branches that are not resident are those that make an allocation. In every set, the first
    allocations take the ways from the highest one down and evict nothing. Once there are as
    many as ways, each one evicts the line of the set that was updated least recently, takes its
    way, and takes no way from any other line. -/
theorem fills_before_evicting (D : Type) [Scheme D] {sizeInEntries ways addressBits : Nat}
    {table : Table D (TagArray Lru)} (htable : new sizeInEntries ways addressBits = .ok table)
    (hstride : table.store.shape.stride < UInt64.size) (os : List Outcome) (o : Outcome) :
    (Action.each update os).Ensures table
      (fun log t => log.map Prod.fst = os ∧
        (update o).Ensures t
          (fun a t' => (a = none ↔ t.store.Resident (table.store.shape.line o.pc)) ∧
            ∀ al, a = some al → AllocatesNext table.store.shape log t o al t')
          fun _ _ => False)
      fun _ _ => False := by
  obtain ⟨shape, -, rfl⟩ := exists_shape_of_new htable
  have hrun := ensures_each_update_ofShape (D := D) (J := fun log t => FilledByLog shape log t)
    hstride (filledByLog_ofShape shape) (fun _ _ _ _ _ _ ht hstep => ht.step hstride hstep) os
  refine hrun.mono (fun log t h => ⟨h.1, ?_⟩) fun _ _ hf => hf
  obtain ⟨-, hc, ht⟩ := h
  refine (hc.ensures_update hstride (Lru.inRange_new _ shape.ways_pos) o).mono ?_
    fun _ _ hf => Lru.not_touchFault hf
  rintro a t' ⟨hstep, hc'⟩
  refine ⟨hstep.eq_none_iff hc hstride, ?_⟩
  rintro al rfl
  exact ht.allocatesNext hc hstride hstep hc'

/-- Two branches fill the ways of a set, the first one is updated again, and a third one then
    evicts the second. -/
theorem fills_before_evicting_twoBit :
    ∃ table : Table TwoBit (TagArray Lru), new 4 2 32 = .ok table ∧
      table.store.shape.stride < UInt64.size ∧
      (Action.each update [⟨0, true, 64⟩, ⟨8, true, 64⟩, ⟨0, true, 64⟩]).Ensures table
        (fun log t => log.map Prod.fst = [⟨0, true, 64⟩, ⟨8, true, 64⟩, ⟨0, true, 64⟩] ∧
          (update ⟨16, false, 64⟩).Ensures t
            (fun a t' => (a = none ↔ t.store.Resident (table.store.shape.line 16)) ∧
              ∀ al, a = some al → AllocatesNext table.store.shape log t ⟨16, false, 64⟩ al t')
            fun _ _ => False)
        fun _ _ => False := by
  have htable : new 4 2 32 = .ok (ofShape .twoByTwo : Table TwoBit (TagArray Lru)) := rfl
  exact ⟨_, htable, by decide, fills_before_evicting TwoBit htable (by decide) _ _⟩

end Table

end BranchPrediction
