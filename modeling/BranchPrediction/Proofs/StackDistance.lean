import BranchPrediction.Proofs.Coupling
import BranchPrediction.Proofs.Recency

/-!
# Stack distance

A tag array that gives up the least recently used way keeps its lines in fixed
slots, and the order in which they were used in a stack of ways. Read along this
stack, the lines of a set are the first of the recency of the lines touched so far,
as many as there are ways (`HoldsRecent`). Every touch keeps this, whether the line
has a way, takes an empty one or takes its way from another line
(`HoldsRecent.use`).

So an address is found if and only if its line was touched, and fewer other lines
of its set than there are ways have been touched since (`RecentlyTouched`,
`resident_iff_recentlyTouched`). To a table the same applies, in which every outcome
touches the line of its branch once.
-/

namespace BranchPrediction

/-- In the sequence `ts` of lines that were touched, `l` occurs, and fewer other
    lines of its set than there are ways occur after it did last. -/
def RecentlyTouched (shape : Shape) (ts : List Nat) (l : Nat) : Prop :=
  ∃ before after, ts = before ++ l :: after ∧ l ∉ after ∧
    (after.filter fun m => m % shape.sets = l % shape.sets).toFinset.card < shape.ways

namespace TagArray

/-- The line that a call touches, given its answer: that of an address that is
    inserted, or looked up and found. -/
def touched (shape : Shape) : AddressStore.Call × Option Nat → Option Nat
  | (.peek _, _) => none
  | (.lookup a, way) => way.map fun _ => shape.line a
  | (.insert a, _) => some (shape.line a)

/-- The lines touched by calls, oldest first. -/
def touches (shape : Shape) (log : List (AddressStore.Call × Option Nat)) : List Nat :=
  log.filterMap (touched shape)

/-- A call touches its line after all others. -/
theorem touches_concat (shape : Shape) (log : List (AddressStore.Call × Option Nat))
    (e : AddressStore.Call × Option Nat) :
    touches shape (log ++ [e]) = touches shape log ++ (touched shape e).toList := by
  rw [touches, List.filterMap_append, List.filterMap_cons]
  cases touched shape e <;> rfl

/-- The way that a line is put into: the one it has, or else the one at the bottom
    of the stack. -/
def wayFor (t : TagArray Lru) (l : Nat) : Nat :=
  (t.wayOfLine l).getD (Lru.bottom (t.policy.usage[l % t.shape.sets]?.getD []))

/-- Puts a line into its way and touches it there. -/
def use (t : TagArray Lru) (l : Nat) : TagArray Lru :=
  (t.place l (t.wayFor l)).withPolicy
    ⟨t.policy.usage.modify (l % t.shape.sets) (Lru.promote (t.wayFor l))⟩

/-- The ways hold the lines that were touched last: along the stack of a set, the
    first of their recency. -/
structure HoldsRecent (shape : Shape) (ts : List Nat) (t : TagArray Lru) : Prop where
  shape_eq : t.shape = shape
  distinct : t.Distinct
  stacked : Lru.Stacked shape.sets shape.ways t.policy
  map_lineAt : ∀ set < shape.sets, ∀ stack, t.policy.usage[set]? = some stack →
    stack.map (t.lineAt set) = window shape.ways (recency (ts.filter fun m => m % shape.sets = set))

variable {shape : Shape} {ts : List Nat} {t : TagArray Lru} {l way : Nat}

/-- A line keeps the way it has. -/
theorem wayFor_of_some (hl : t.wayOfLine l = some way) : t.wayFor l = way := by
  rw [wayFor, hl, Option.getD_some]

/-- A line without a way is given the one at the bottom of the stack. -/
theorem wayFor_of_none {stack : List Nat} (hl : t.wayOfLine l = none)
    (hstack : t.policy.usage[l % t.shape.sets]? = some stack) :
    t.wayFor l = Lru.bottom stack := by
  rw [wayFor, hl, hstack, Option.getD_none, Option.getD_some]

/-- To use a line that has a way is to touch the way. -/
theorem use_of_some (hl : t.wayOfLine l = some way) :
    t.use l = t.withPolicy ⟨t.policy.usage.modify (l % t.shape.sets) (Lru.promote way)⟩ := by
  rw [use, wayFor_of_some hl, place_of_wayOfLine hl]

/-- To use a line promotes its way in the stack of its set. -/
theorem usage_use (t : TagArray Lru) (l set : Nat) :
    (t.use l).policy.usage[set]? =
      if l % t.shape.sets = set then t.policy.usage[set]?.map (Lru.promote (t.wayFor l))
      else t.policy.usage[set]? :=
  Array.getElem?_modify

/-- A new tag array holds nothing, as no line was touched. -/
theorem holdsRecent_lru (shape : Shape) : HoldsRecent shape [] (lru shape) where
  shape_eq := rfl
  distinct := distinct_empty _ _
  stacked := Lru.stacked_new _ _
  map_lineAt set _ stack hstack := by
    have hlength : stack.length = shape.ways :=
      ((Lru.stacked_new _ _).perm set stack hstack).length_eq.trans List.length_range
    have hnone : (lru shape).lineAt set = fun _ => none := funext fun way => lineAt_empty _ _ _ _
    rw [hnone, List.map_const', hlength]
    exact (List.take_of_length_le (by simp)).symm

section

variable (ht : HoldsRecent shape ts t)
include ht

/-- A line that has a way is seen along the stack of its set. -/
theorem HoldsRecent.wayOfLine_isSome (l : Nat) :
    (t.wayOfLine l).isSome ↔
      some l ∈ window shape.ways
        (recency (ts.filter fun m => m % shape.sets = l % shape.sets)) := by
  obtain rfl := ht.shape_eq
  obtain ⟨stack, hstack, hperm⟩ := ht.stacked.exists_stack (t.shape.mod_sets_lt l)
  rw [← ht.map_lineAt _ (t.shape.mod_sets_lt l) stack hstack, List.mem_map,
    Option.isSome_iff_exists]
  refine exists_congr fun way => ?_
  rw [wayOfLine_eq_some_iff ht.distinct, hperm.mem_iff, List.mem_range]

/-- The lines that have a way are those touched recently. -/
theorem HoldsRecent.recentlyTouched_iff (l : Nat) :
    (t.wayOfLine l).isSome ↔ RecentlyTouched shape ts l := by
  rw [ht.wayOfLine_isSome, some_mem_window_iff]
  exact mem_take_recency_filter_iff (decide_eq_true rfl)

/-- A line is put into a way of its set. -/
theorem HoldsRecent.wayFor_lt (l : Nat) : t.wayFor l < shape.ways := by
  obtain rfl := ht.shape_eq
  rcases hl : t.wayOfLine l with _ | way
  · obtain ⟨stack, hstack, hperm⟩ := ht.stacked.exists_stack (t.shape.mod_sets_lt l)
    rw [wayFor_of_none hl hstack]
    exact Lru.bottom_lt t.shape.ways_pos hperm
  · rw [wayFor_of_some hl]
    exact (lineAt_of_wayOfLine hl).1

/-- To use a line puts it into its way. -/
theorem HoldsRecent.inserted (l : Nat) : Inserted t l (t.wayFor l) (t.use l) where
  way_lt := ht.shape_eq ▸ ht.wayFor_lt l
  way_eq _ hl := (wayFor_of_some hl).symm
  eq_place := rfl

/-- Once its way is taken out of the stack and put on top for it, a line is the one
    that was touched last, in front of all others. -/
theorem HoldsRecent.cons_map_erase {stack : List Nat}
    (hstack : t.policy.usage[l % shape.sets]? = some stack) :
    some l :: (stack.erase (t.wayFor l)).map (t.lineAt (l % shape.sets)) =
      window shape.ways
        (l :: (recency (ts.filter fun m => m % shape.sets = l % shape.sets)).erase l) := by
  obtain rfl := ht.shape_eq
  have hset := t.shape.mod_sets_lt l
  have hperm := ht.stacked.perm _ stack hstack
  have hseen := ht.wayOfLine_isSome l
  rcases hl : t.wayOfLine l with _ | way
  · -- The line takes the way at the bottom from the line that is seen last.
    rw [hl] at hseen
    rw [window_use_of_not_mem t.shape.ways_pos fun h => Bool.false_ne_true (hseen.2 h),
      ← ht.map_lineAt _ hset stack hstack, wayFor_of_none hl hstack,
      Lru.erase_bottom t.shape.ways_pos hperm, List.map_dropLast]
  · -- The line keeps its way, which holds no other line.
    obtain ⟨hway, hline⟩ := lineAt_of_wayOfLine hl
    have hunique : ∀ way' ∈ stack, t.lineAt (l % t.shape.sets) way' =
        t.lineAt (l % t.shape.sets) way → way' = way := by
      intro way' hmem h
      exact ht.distinct (List.mem_range.1 (hperm.mem_iff.1 hmem)) hway (h.trans hline) hline
    rw [hl] at hseen
    rw [window_use_of_mem t.shape.ways_pos (hseen.1 rfl), ← ht.map_lineAt _ hset stack hstack,
      wayFor_of_some hl, map_erase_of_unique hunique, hline]

/-- A touch keeps the lines that were touched last. -/
theorem HoldsRecent.use (l : Nat) : HoldsRecent shape (ts ++ [l]) (t.use l) := by
  obtain rfl := ht.shape_eq
  have hinserted := ht.inserted l
  refine ⟨rfl, hinserted.distinct ht.distinct, ht.stacked.modify _ _,
    fun set hset stack' hstack' => ?_⟩
  change (t.policy.usage.modify _ _)[set]? = some stack' at hstack'
  rw [Array.getElem?_modify] at hstack'
  rw [List.filter_append, List.filter_singleton]
  obtain ⟨stack, hstack, hperm⟩ := ht.stacked.exists_stack hset
  have hlt : ∀ way ∈ stack, way < t.shape.ways := fun way hway =>
    List.mem_range.1 (hperm.mem_iff.1 hway)
  rw [hstack] at hstack'
  by_cases h : l % t.shape.sets = set
  · -- The way of the line moves to the top, and all others hold what they held.
    subst h
    rw [if_pos rfl] at hstack'
    cases hstack'
    have hmem : t.wayFor l ∈ stack := hperm.mem_iff.2 (List.mem_range.2 hinserted.way_lt)
    have hrest : (stack.erase (t.wayFor l)).map ((t.use l).lineAt (l % t.shape.sets)) =
        (stack.erase (t.wayFor l)).map (t.lineAt (l % t.shape.sets)) := by
      refine List.map_congr_left fun way hway => ?_
      obtain ⟨hne, hway⟩ := (hperm.nodup_iff.2 List.nodup_range).mem_erase_iff.1 hway
      rw [hinserted.lineAt_eq (hlt way hway), if_neg fun h => hne h.2]
    rw [Lru.promote, if_pos hmem, List.map_cons, hinserted.lineAt_eq hinserted.way_lt,
      if_pos ⟨rfl, rfl⟩, hrest, decide_eq_true rfl, cond_true, recency_concat]
    exact ht.cons_map_erase hstack
  · -- In another set, nothing is touched.
    rw [if_neg h] at hstack'
    cases hstack'
    rw [decide_eq_false h, cond_false, List.append_nil, ← ht.map_lineAt set hset _ hstack]
    refine List.map_congr_left fun way hway => ?_
    rw [hinserted.lineAt_eq (hlt way hway), if_neg fun h' => h h'.1.symm]

end

/-! ## Calls -/

section

variable (ht : HoldsRecent shape ts t) (hstride : shape.stride < UInt64.size) (a : Address)
include ht hstride

/-- An insertion uses the line of the address. -/
theorem HoldsRecent.run_insert :
    (insert a).run t = .ok (t.wayFor (shape.line a)) (t.use (shape.line a)) := by
  obtain rfl := ht.shape_eq
  have hset : t.shape.setIndex a < t.policy.usage.size :=
    ht.stacked.size_eq.symm ▸ t.shape.setIndex_lt a
  rcases hl : t.wayOfLine (t.shape.line a) with _ | way
  · obtain ⟨stack, hstack, hperm⟩ := ht.stacked.exists_stack (t.shape.setIndex_lt a)
    have hslot := slot_lt (t.shape.mod_sets_lt (t.shape.line a))
      (Lru.bottom_lt t.shape.ways_pos hperm)
    rw [run_insert_of_victim hstride hl (Lru.run_victim hstack) hslot (Lru.run_touch hset),
      TagArray.use, wayFor_of_none hl hstack]
    rfl
  · rw [run_insert_of_touch hstride hl (Lru.run_touch hset), use_of_some hl, wayFor_of_some hl]
    rfl

/-- A lookup uses the line of an address that is found. -/
theorem HoldsRecent.run_lookup :
    (lookup a).run t =
      .ok (t.wayOfLine (shape.line a))
        (if (t.wayOfLine (shape.line a)).isSome then t.use (shape.line a) else t) := by
  obtain rfl := ht.shape_eq
  have hset : t.shape.setIndex a < t.policy.usage.size :=
    ht.stacked.size_eq.symm ▸ t.shape.setIndex_lt a
  rcases hl : t.wayOfLine (t.shape.line a) with _ | way
  · exact run_lookup_of_none hstride hl
  · rw [run_lookup_of_touch hstride hl (Lru.run_touch hset), use_of_some hl]
    rfl

end

/-- Every call is carried out, and keeps the lines that were touched last. -/
theorem HoldsRecent.ensures_perform (ht : HoldsRecent shape ts t)
    (hstride : shape.stride < UInt64.size) (c : AddressStore.Call) :
    (AddressStore.perform c).Ensures t
      (fun r t' => HoldsRecent shape (ts ++ (touched shape (c, r)).toList) t')
      fun _ _ => False := by
  obtain rfl := ht.shape_eq
  cases c with
  | peek a =>
    change (peek a).Ensures t _ _
    rw [Action.Ensures, run_peek_eq hstride]
    change HoldsRecent t.shape (ts ++ []) t
    rw [List.append_nil]
    exact ht
  | lookup a =>
    change (lookup a).Ensures t _ _
    rw [Action.Ensures, ht.run_lookup hstride]
    rcases t.wayOfLine (t.shape.line a) with _ | way
    · change HoldsRecent t.shape (ts ++ []) t
      rw [List.append_nil]
      exact ht
    · exact ht.use _
  | insert a =>
    refine Action.ensures_map.2 ?_
    change (insert a).Ensures t _ _
    rw [Action.Ensures, ht.run_insert hstride]
    exact ht.use _

/-- After any calls, a new tag array holds the lines that they touched last. -/
theorem ensures_each_perform_lru (hstride : shape.stride < UInt64.size)
    (calls : List AddressStore.Call) :
    (Action.each AddressStore.perform calls).Ensures (lru shape)
      (fun log t => log.map Prod.fst = calls ∧ HoldsRecent shape (touches shape log) t)
      fun _ _ => False := by
  refine Action.Ensures.each (holdsRecent_lru shape) (fun log t c ht => ?_) calls
  refine (ht.ensures_perform hstride c).mono (fun r t' ht' => ?_) fun _ _ hf => hf
  rw [touches_concat]
  exact ht'

/-- Insertions touch the line of every address. -/
theorem touches_of_inserts {ι : Type} {is : List ι} {address : ι → Address}
    {log : List (AddressStore.Call × Option Nat)}
    (h : log.map Prod.fst = is.map fun i => .insert (address i)) :
    touches shape log = is.map fun i => shape.line (address i) := by
  induction is generalizing log with
  | nil =>
    rw [List.map_eq_nil_iff.1 h]
    rfl
  | cons i rest ih =>
    obtain ⟨⟨c, r⟩, log, rfl, hc, hrest⟩ := List.map_eq_cons_iff.1 h
    subst hc
    change shape.line (address i) :: touches shape log = _
    rw [ih hrest, List.map_cons]

end TagArray

/-! ## Addresses that are found -/

/-- An address is found if its line was touched recently, and else it is not. The
    search always answers, and changes nothing. -/
def FindsRecent {σ β : Type} (shape : Shape) (ts : List Nat) (find : Address → Action σ (Option β))
    (s : σ) : Prop :=
  ∀ a, ∃ r, (find a).run s = .ok r s ∧ (r.isSome ↔ RecentlyTouched shape ts (shape.line a))

namespace Table

variable {D : Type} [Scheme D] {shape : Shape} {ts : List Nat}

omit [Scheme D] in
/-- A new table has the shape of its geometry. -/
theorem exists_shape_of_new {sizeInEntries ways addressBits : Nat} {t : Table D (TagArray Lru)}
    (h : new sizeInEntries ways addressBits = .ok t) :
    ∃ shape, (geometry sizeInEntries ways addressBits).shape = .ok shape ∧ t = ofShape shape :=
  Geometry.exists_of_map_shape h

/-- Every outcome inserts its branch into the tag array. -/
theorem Step.exists_run_insert {P : Type} [Replacement P] {t t' : Table D (TagArray P)}
    {o : Outcome} {a : Option Allocation} (h : Step shape t o a t') :
    ∃ way, (TagArray.insert o.pc).run t.store = .ok way t'.store := by
  cases h with
  | hit _ hmoved => exact ⟨_, hmoved.run_insert⟩
  | allocate _ _ hmoved => exact ⟨_, hmoved.run_insert⟩

/-- After any outcomes, a new table is coupled to its log, and no outcome fails. Whatever
    else is kept by the steps of coupled tables still holds. -/
theorem ensures_each_update_ofShape {J : Log → Table D (TagArray Lru) → Prop}
    (hstride : shape.stride < UInt64.size) (start : J [] (ofShape shape))
    (step : ∀ log t o a t', Coupled shape (Lru.new shape.sets shape.ways) log t → J log t →
      Step shape t o a t' → J (log ++ [(o, a)]) t') (os : List Outcome) :
    (Action.each update os).Ensures (ofShape shape : Table D (TagArray Lru))
      (fun log t => log.map Prod.fst = os ∧
        Coupled shape (Lru.new shape.sets shape.ways) log t ∧ J log t)
      fun _ _ => False :=
  (ensures_each_update hstride (Lru.inRange_new _ shape.ways_pos) start step os).mono
    (fun _ _ h => h) fun _ _ hf => Lru.not_touchFault hf

/-- Outcomes leave the tag array of a new table as if their branches were inserted
    into it, one after the other. -/
theorem ensures_each_update_lru (hstride : shape.stride < UInt64.size) (os : List Outcome) :
    (Action.each update os).Ensures (ofShape shape : Table D (TagArray Lru))
      (fun log t => log.map Prod.fst = os ∧
        Coupled shape (Lru.new shape.sets shape.ways) log t ∧
        ∃ calls, (Action.each AddressStore.perform (os.map fun o => .insert o.pc)).run
          (.lru shape) = .ok calls t.store)
      fun _ _ => False := by
  have hrun := ensures_each_update_ofShape (D := D)
    (J := fun log t => ∃ calls, (Action.each AddressStore.perform
      ((log.map Prod.fst).map fun o => .insert o.pc)).run (.lru shape) = .ok calls t.store)
    hstride ⟨[], rfl⟩ ?_ os
  · refine hrun.mono (fun log t h => ?_) fun _ _ hf => hf
    obtain ⟨hlog, ht, hcalls⟩ := h
    rw [hlog] at hcalls
    exact ⟨hlog, ht, hcalls⟩
  · rintro log t o a t' - ⟨calls, hcalls⟩ hstep
    obtain ⟨way, hinsert⟩ := hstep.exists_run_insert
    have hperform : (AddressStore.perform (.insert o.pc)).run t.store =
        .ok (some way) t'.store := by
      change (some <$> TagArray.insert o.pc).run t.store = _
      rw [EStateM.run_map, hinsert]
      rfl
    rw [List.map_append, List.map_append]
    exact ⟨_, Action.run_each_concat hcalls hperform⟩

/-- A table finds the addresses that its tag array finds. -/
theorem Coupled.exists_run_resident {P : Type} [Replacement P] {p : P} {log : Log}
    {t : Table D (TagArray P)} (ht : Coupled shape p log t) (hstride : shape.stride < UInt64.size)
    (pc : Address) : ∃ r, (resident pc).run t = .ok r t ∧
      (r.isSome ↔ (t.store.wayOfLine (shape.line pc)).isSome) := by
  obtain rfl := ht.inOrder.shape_eq
  rcases hl : t.store.wayOfLine (t.store.shape.line pc) with _ | way
  · exact ⟨_, run_resident_of_none hstride hl, Iff.rfl⟩
  · obtain ⟨os, -, he⟩ := ht.trained _ _ hl
    exact ⟨_, run_resident_of_some hstride hl he, Iff.rfl⟩

/-- A new tag array that gives up the least recently used way carries out all calls,
    and then finds an address if and only if its line was touched, and fewer other
    lines of its set than there are ways have been touched since. So does a new
    table, whose outcomes each touch the line of their branch once. -/
theorem resident_iff_recentlyTouched (D : Type) [Scheme D] :
    (∀ (g : Geometry) (shape : Shape), g.shape = .ok shape → shape.stride < UInt64.size →
      ∀ calls, (Action.each AddressStore.perform calls).Ensures (TagArray.lru shape)
        (fun log t => log.map Prod.fst = calls ∧
          FindsRecent shape (TagArray.touches shape log) TagArray.peek t)
        fun _ _ => False) ∧
    ∀ (sizeInEntries ways addressBits : Nat) (table : Table D (TagArray Lru)),
      new sizeInEntries ways addressBits = .ok table → table.store.shape.stride < UInt64.size →
      ∀ os, (Action.each update os).Ensures table
        (fun log t => log.map Prod.fst = os ∧
          (∃ calls, (Action.each AddressStore.perform (os.map fun o => .insert o.pc)).run
            table.store = .ok calls t.store) ∧
          FindsRecent table.store.shape (os.map fun o => table.store.shape.line o.pc) resident t)
        fun _ _ => False := by
  constructor
  · intro g shape _ hstride calls
    refine (TagArray.ensures_each_perform_lru hstride calls).mono (fun log t h => ?_)
      fun _ _ hf => hf
    obtain ⟨hlog, ht⟩ := h
    refine ⟨hlog, fun a => ⟨_, TagArray.run_peek_eq (ht.shape_eq ▸ hstride) a, ?_⟩⟩
    rw [ht.shape_eq]
    exact ht.recentlyTouched_iff _
  · intro sizeInEntries ways addressBits table htable hstride os
    obtain ⟨shape, -, rfl⟩ := exists_shape_of_new htable
    refine (ensures_each_update_lru hstride os).mono (fun log t h => ?_) fun _ _ hf => hf
    obtain ⟨hlog, ht, calls, hcalls⟩ := h
    obtain ⟨hinserts, hrecent⟩ := (TagArray.ensures_each_perform_lru hstride _).of_ok hcalls
    rw [TagArray.touches_of_inserts hinserts] at hrecent
    refine ⟨hlog, ⟨calls, hcalls⟩, fun pc => ?_⟩
    obtain ⟨r, hr, hfound⟩ := ht.exists_run_resident hstride pc
    exact ⟨r, hr, hfound.trans (hrecent.recentlyTouched_iff _)⟩

/-- Two lines fill a set, and a third one takes the way of the line that was used
    before the other. -/
theorem resident_iff_recentlyTouched_twoBit :
    (∃ shape, Geometry.shape ⟨4, 2, 4, 32⟩ = .ok shape ∧ shape.stride < UInt64.size ∧
      (Action.each AddressStore.perform [.insert 0, .insert 8, .lookup 0, .insert 16]).Ensures
        (TagArray.lru shape)
        (fun log t => log.map Prod.fst = [.insert 0, .insert 8, .lookup 0, .insert 16] ∧
          FindsRecent shape (TagArray.touches shape log) TagArray.peek t)
        fun _ _ => False) ∧
    ∃ table : Table TwoBit (TagArray Lru), new 4 2 32 = .ok table ∧
      table.store.shape.stride < UInt64.size ∧
      (Action.each update [⟨0, true, 64⟩, ⟨8, true, 64⟩, ⟨16, false, 64⟩]).Ensures table
        (fun log t => log.map Prod.fst = [⟨0, true, 64⟩, ⟨8, true, 64⟩, ⟨16, false, 64⟩] ∧
          (∃ calls, (Action.each AddressStore.perform [.insert 0, .insert 8, .insert 16]).run
            table.store = .ok calls t.store) ∧
          FindsRecent table.store.shape [table.store.shape.line 0, table.store.shape.line 8,
            table.store.shape.line 16] resident t)
        fun _ _ => False := by
  obtain ⟨hcalls, houtcomes⟩ := resident_iff_recentlyTouched TwoBit
  have hshape : Geometry.shape ⟨4, 2, 4, 32⟩ = .ok .twoByTwo := rfl
  have htable : new 4 2 32 = .ok (ofShape .twoByTwo : Table TwoBit (TagArray Lru)) := rfl
  exact ⟨⟨_, hshape, by decide, hcalls _ _ hshape (by decide) _⟩,
    ⟨_, htable, by decide, houtcomes 4 2 32 _ htable (by decide) _⟩⟩

end Table

end BranchPrediction
