import BranchPrediction.Proofs.Coupling

/-!
# Eviction

An allocation says whether the entry that it takes was known of another branch.
The table sees this on the entry, while the line is lost in the tag array; as both
are coupled, it is the same (`evicts_iff`): the allocation evicts if and only if
one line loses its way, and otherwise no line does.

An allocation that does not evict thus fills a slot, and nothing else does, nor is
a slot ever given up: there are as many tags in the tag array as there were such
allocations (`occupied_eq_fills_step`).
-/

namespace BranchPrediction

namespace TagArray

variable {P : Type} {t t' : TagArray P} {l way m : Nat}

/-- The number of slots with a tag. -/
def occupied (t : TagArray P) : Nat := t.slots.toList.countP Option.isSome

/-- The lines of the addresses that are found. -/
def Resident (t : TagArray P) (l : Nat) : Prop :=
  ∃ a way, t.shape.line a = l ∧ (peek a).run t = .ok (some way) t

/-- A new tag array has no tags. -/
theorem occupied_empty (shape : Shape) (p : P) : (empty shape p).occupied = 0 := by
  refine List.countP_eq_zero.2 fun tag htag => ?_
  have := Vector.mem_toList_iff.1 htag
  rw [Vector.eq_of_mem_replicate this]
  exact Bool.false_ne_true

/-- To put a line into a way fills the slot of the way, if it is not filled. -/
theorem occupied_place (hway : way < t.shape.ways) :
    (t.place l way).occupied =
      t.occupied + if t.lineAt (l % t.shape.sets) way = none then 1 else 0 := by
  -- One slot is rewritten, which counts afterwards, and did before if it held a tag.
  have hslot := slot_lt (t.shape.mod_sets_lt l) hway
  have hlist : t.slot (l % t.shape.sets) way < t.slots.toList.length := by
    rw [Vector.length_toList]
    exact hslot
  have hget : t.lineAt (l % t.shape.sets) way = none ↔
      t.slots.toList[t.slot (l % t.shape.sets) way] = none := by
    rw [lineAt, Option.map_eq_none_iff, tagAt, Vector.getElem?_eq_getElem hslot,
      Vector.getElem_toList]
    rfl
  have hset : (t.place l way).slots.toList =
      t.slots.toList.set (t.slot (l % t.shape.sets) way) (some (l / t.shape.sets)) :=
    Vector.toList_setIfInBounds
  rw [occupied, hset, List.countP_set hlist, occupied]
  rcases htag : t.slots.toList[t.slot (l % t.shape.sets) way] with _ | tag
  · rw [if_pos (hget.2 htag)]
    rfl
  · have hpos : 0 < t.slots.toList.countP Option.isSome :=
      List.countP_pos_iff.2 ⟨_, List.getElem_mem hlist, by rw [htag]; rfl⟩
    have hfilled : t.lineAt (l % t.shape.sets) way ≠ none := fun h =>
      Option.some_ne_none tag (htag.symm.trans (hget.1 h))
    rw [if_neg hfilled]
    simp only [Option.isSome_some, if_true]
    omega

/-- Putting a new line into a way, the line that the way held loses its way, and
    no other line does. -/
theorem Inserted.lost_iff (h : Inserted t l way t') (ht : t.Distinct) (hl : t.wayOfLine l = none) :
    t.wayOfLine m ≠ none ∧ t'.wayOfLine m = none ↔ t.lineAt (l % t.shape.sets) way = some m := by
  rw [h.wayOfLine_eq ht]
  constructor
  · rintro ⟨hm, hm'⟩
    split at hm'
    next => cases hm'
    next =>
      split at hm'
      next hlost =>
        rw [← hlost.1]
        exact (lineAt_of_wayOfLine hlost.2).2
      next => exact absurd hm' hm
  · intro hm
    obtain ⟨hset, hfound⟩ := wayOfLine_of_lineAt ht (t.shape.mod_sets_lt l) h.way_lt hm
    have hne : m ≠ l := by
      rintro rfl
      rw [hl] at hfound
      cases hfound
    rw [if_neg hne, if_pos ⟨hset, hfound⟩, hfound]
    exact ⟨Option.some_ne_none way, rfl⟩

end TagArray

namespace Table

variable {D P : Type} [Scheme D] [Replacement P] {shape : Shape} {p : P} {log : Log}
  {t t' : Table D (TagArray P)} {o : Outcome} {a : Option Allocation} {e : Entry D}
  {set way l : Nat}

/-- An entry of outcomes has learnt one at least. -/
theorem SinceAllocation.exists_ofOutcomes {os : List Outcome} (h : SinceAllocation shape l log os) :
    ∃ direction target updates,
      (Entry.ofOutcomes os : Entry D) = .trained direction target updates ∧ 1 ≤ updates := by
  obtain ⟨earlier, last, rfl⟩ := h.exists_concat
  refine ⟨_, _, _, Entry.ofOutcomes_concat_eq_trained earlier last, ?_⟩
  rw [UInt64.le_iff_toNat_le, Entry.toNat_ofNat_min, List.length_append, List.length_singleton]
  exact le_min (Nat.le_add_left 1 _) (by decide)

/-- The entries of the ways without a line are the cold ones. -/
theorem Coupled.isCold_iff (ht : Coupled shape p log t) (hset : set < shape.sets)
    (hway : way < shape.ways) (he : t.cells.get? way set = some e) :
    e.isCold = true ↔ t.store.lineAt set way = none := by
  rcases hl : t.store.lineAt set way with _ | l
  · rw [ht.cold set hset way hway hl] at he
    cases he
    exact iff_of_true rfl rfl
  · obtain ⟨os, hos, he'⟩ := ht.trained_of_lineAt hset hway hl
    obtain ⟨direction, target, updates, htrained, -⟩ := hos.exists_ofOutcomes (D := D)
    rw [he', htrained] at he
    cases he
    exact iff_of_false Bool.false_ne_true (Option.some_ne_none l)

/-- The resident lines are those that have a way: each of them was given it by an
    outcome. -/
theorem Coupled.resident_iff (ht : Coupled shape p log t) (hstride : shape.stride < UInt64.size) :
    t.store.Resident l ↔ t.store.wayOfLine l ≠ none := by
  obtain rfl := ht.inOrder.shape_eq
  constructor
  · rintro ⟨a, way, rfl, hr⟩
    rw [TagArray.run_peek_eq hstride] at hr
    injection hr with hr
    rw [hr]
    exact Option.some_ne_none way
  · intro hl
    obtain ⟨way, hway⟩ := Option.ne_none_iff_exists'.1 hl
    obtain ⟨os, hos, -⟩ := ht.trained l way hway
    obtain ⟨e, -, he⟩ := hos.exists_mem
    refine ⟨e.1.pc, way, he, ?_⟩
    rw [TagArray.run_peek_eq hstride, he, hway]

/-! ## Steps -/

/-- An allocation loses the line that its way held, if it held one. -/
theorem lost_iff {al : Allocation} (ht : Coupled shape p log t)
    (hstride : shape.stride < UInt64.size) (h : Step shape t o (some al) t')
    (ht' : Coupled shape p (log ++ [(o, some al)]) t') :
    t.store.Resident l ∧ ¬t'.store.Resident l ↔ t.store.lineAt al.set al.way = some l := by
  obtain rfl := ht.inOrder.shape_eq
  cases h with
  | allocate hl _ hmoved =>
    rw [ht.resident_iff hstride, ht'.resident_iff hstride, not_not]
    exact hmoved.inserted.lost_iff ht.inOrder.distinct hl

/-- An allocation says that it evicts if and only if its way held a line. -/
theorem evicted_iff {al : Allocation} (ht : Coupled shape p log t)
    (h : Step shape t o (some al) t') :
    al.evicted = true ↔ t.store.lineAt al.set al.way ≠ none := by
  obtain rfl := ht.inOrder.shape_eq
  cases h with
  | allocate _ he hmoved =>
    rw [Bool.not_eq_true', ← Bool.not_eq_true,
      ht.isCold_iff (t.store.shape.setIndex_lt _) hmoved.inserted.way_lt he]

/-- An allocation evicts if it takes its place from one line, and does not evict if
    it takes it from none. -/
theorem evicts_iff {al : Allocation} (ht : Coupled shape p log t)
    (hstride : shape.stride < UInt64.size) (h : Step shape t o (some al) t')
    (ht' : Coupled shape p (log ++ [(o, some al)]) t') :
    (al.evicted = true ↔ ∃! l, t.store.Resident l ∧ ¬t'.store.Resident l) ∧
      (al.evicted = false ↔ ∀ l, t.store.Resident l → t'.store.Resident l) := by
  have hlost : ∀ l, t.store.Resident l ∧ ¬t'.store.Resident l ↔
      t.store.lineAt al.set al.way = some l := fun l => lost_iff ht hstride h ht'
  have hkept : (∀ l, t.store.Resident l → t'.store.Resident l) ↔
      t.store.lineAt al.set al.way = none := by
    rw [Option.eq_none_iff_forall_ne_some]
    refine forall_congr' fun l => ?_
    rw [ne_eq, ← hlost l, not_and, not_not]
  rw [hkept, ← Bool.not_eq_true, evicted_iff ht h, not_not]
  refine ⟨?_, Iff.rfl⟩
  simp only [hlost]
  constructor
  · intro hne
    obtain ⟨l, hl⟩ := Option.ne_none_iff_exists'.1 hne
    exact ⟨l, hl, fun m hm => Option.some.inj (hm.symm.trans hl)⟩
  · rintro ⟨l, hl, -⟩
    rw [hl]
    exact Option.some_ne_none l

/-- The number of allocations in the log that did not evict. -/
def Log.fills (log : Log) : Nat := log.countP fun e => e.2.any fun al => !al.evicted

/-- A step fills a slot if it is an allocation that does not evict. -/
theorem occupied_of_step (ht : Coupled shape p log t) (h : Step shape t o a t') :
    t'.store.occupied = t.store.occupied + if a.any fun al => !al.evicted then 1 else 0 := by
  cases h with
  | hit hl hmoved =>
    -- The slots are as they were.
    obtain rfl := ht.inOrder.shape_eq
    rw [hmoved.inserted.eq_withPolicy hl]
    rfl
  | allocate hl he hmoved =>
    -- The flag says whether the entry was cold, and the count whether the way was empty.
    have hevicted := evicted_iff ht (.allocate hl he hmoved)
    obtain rfl := ht.inOrder.shape_eq
    rw [hmoved.inserted.eq_place]
    refine (TagArray.occupied_place hmoved.inserted.way_lt).trans ?_
    rw [Option.any_some]
    refine congrArg (t.store.occupied + ·) (if_congr ?_ rfl rfl)
    rw [Bool.not_eq_true', ← Bool.not_eq_true, hevicted, not_not]
    rfl

/-- After any outcomes, there are as many tags as there were allocations that did
    not evict. -/
theorem occupied_eq_fills_step (ht : Coupled shape p log t) (hcount : t.store.occupied = log.fills)
    (h : Step shape t o a t') : t'.store.occupied = Log.fills (log ++ [(o, a)]) := by
  rw [occupied_of_step ht h, hcount, Log.fills, Log.fills, List.countP_append,
    List.countP_singleton]

/-! ## Tags and entries -/

/-- What is seen of a table whose tags and entries are in step, after the outcomes
    of the log. -/
structure InStep (shape : Shape) (p : P) (log : Log) (t : Table D (TagArray P)) : Prop where
  /-- The ways with a tag have entries that have learnt an outcome. -/
  trained_iff : ∀ set < shape.sets, ∀ way < shape.ways, (t.store.tagAt set way).isSome ↔
    ∃ direction target updates,
      t.cells.get? way set = some (.trained direction target updates) ∧ 1 ≤ updates
  /-- The ways without a tag have cold entries. -/
  cold_iff : ∀ set < shape.sets, ∀ way < shape.ways, t.store.tagAt set way = none ↔
    t.cells.get? way set = some .cold
  /-- An address that is found has a target. -/
  target_of_resident : ∀ pc e t', (resident pc).run t = .ok (some e) t' → e.target?.isSome
  /-- A further outcome evicts if one line gives its place up, and else no line does. -/
  evicts : ∀ o, (update o).Ensures t
    (fun a t' => ∀ al, a = some al →
      (al.evicted = true ↔ ∃! l, t.store.Resident l ∧ ¬t'.store.Resident l) ∧
      (al.evicted = false ↔ ∀ l, t.store.Resident l → t'.store.Resident l))
    (fun f t' => Replacement.TouchFault shape.sets shape.ways p f t'.store.policy)
  /-- There are as many tags as there were allocations that did not evict. -/
  occupied_eq : t.store.occupied = log.fills

/-- A coupled table is in step. -/
theorem Coupled.inStep (ht : Coupled shape p log t) (hstride : shape.stride < UInt64.size)
    (hp : Replacement.InRange shape.sets shape.ways p) (hcount : t.store.occupied = log.fills) :
    InStep shape p log t := by
  refine ⟨fun set hset way hway => ?_, fun set hset way hway => ?_, fun pc e t' hr => ?_,
    fun o => ?_, hcount⟩
  · rw [Option.isSome_iff_ne_none, ne_eq, ← TagArray.lineAt_eq_none_iff]
    constructor
    · intro hl
      obtain ⟨l, hl⟩ := Option.ne_none_iff_exists'.1 hl
      obtain ⟨os, hos, he⟩ := ht.trained_of_lineAt hset hway hl
      obtain ⟨direction, target, updates, htrained, hone⟩ := hos.exists_ofOutcomes (D := D)
      exact ⟨direction, target, updates, htrained ▸ he, hone⟩
    · rintro ⟨direction, target, updates, he, -⟩
      rw [← ht.isCold_iff hset hway he]
      exact Bool.false_ne_true
  · rw [← TagArray.lineAt_eq_none_iff]
    refine ⟨ht.cold set hset way hway, fun he => ?_⟩
    rw [← ht.isCold_iff hset hway he]
    rfl
  · rcases ht.known hstride pc with ⟨hnone, -⟩ | ⟨earlier, last, -, hsome, -⟩
    · rw [hnone] at hr
      cases hr
    · rw [hsome] at hr
      cases hr
      rfl
  · refine (ht.ensures_update hstride hp o).mono ?_ fun _ _ hf => hf
    rintro _ t' ⟨hstep, ht'⟩ al rfl
    exact evicts_iff ht hstride hstep ht'

/-- After any outcomes, a table over a new tag array whose policy stays in range
    has trained entries in the ways with a tag and cold ones in all others, and it
    says of every allocation whether a line lost its place. Only a touch of the
    policy can fail. -/
theorem tags_and_entries_in_step {g : Geometry} {tags : TagArray P}
    (hg : TagArray.ofGeometry g p = .ok tags) (hstride : tags.shape.stride < UInt64.size)
    (hp : Replacement.InRange tags.shape.sets tags.shape.ways p) (os : List Outcome) :
    (Action.each update os).Ensures
      (ofStore tags tags.shape.ways tags.shape.sets : Table D (TagArray P))
      (fun log t => log.map Prod.fst = os ∧ InStep tags.shape p log t)
      (fun f t => Replacement.TouchFault tags.shape.sets tags.shape.ways p f t.store.policy) := by
  have hrun := ensures_each_update (D := D) (J := fun log t => t.store.occupied = log.fills)
    hstride hp (TagArray.occupied_empty tags.shape p)
    (fun _ _ _ _ _ ht hcount hstep => occupied_eq_fills_step ht hcount hstep) os
  rw [← TagArray.eq_empty_of_ofGeometry hg] at hrun
  exact hrun.mono (fun _ _ h => ⟨h.1, h.2.1.inStep hstride hp h.2.2⟩) fun _ _ hf => hf

/-- Two branches take the ways of a set, and a third one evicts the first. -/
theorem tags_and_entries_in_step_lru :
    ∃ tags, TagArray.ofGeometry ⟨4, 2, 4, 32⟩ (Lru.new 2 2) = .ok tags ∧
      tags.shape.stride < UInt64.size ∧
      Replacement.InRange tags.shape.sets tags.shape.ways (Lru.new 2 2) ∧
      (Action.each update [⟨0, true, 64⟩, ⟨8, true, 64⟩, ⟨16, false, 64⟩]).Ensures
        (ofStore tags tags.shape.ways tags.shape.sets : Table TwoBit (TagArray Lru))
        (fun log t => log.map Prod.fst = [⟨0, true, 64⟩, ⟨8, true, 64⟩, ⟨16, false, 64⟩] ∧
          InStep tags.shape (Lru.new 2 2) log t)
        (fun f t => Replacement.TouchFault tags.shape.sets tags.shape.ways (Lru.new 2 2) f
          t.store.policy) := by
  have hp : Replacement.InRange 2 2 (Lru.new 2 2) := Lru.inRange_new 2 (by decide)
  exact ⟨_, TagArray.ofGeometry_twoByTwo _, by decide, hp,
    tags_and_entries_in_step (TagArray.ofGeometry_twoByTwo _) (by decide) hp _⟩

end Table

end BranchPrediction
