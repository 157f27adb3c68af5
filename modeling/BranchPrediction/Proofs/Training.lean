import BranchPrediction.Proofs.Insertion
import BranchPrediction.Table

/-!
# Training

What an outcome does to a table over a tag array.

* An entry that is trained with one outcome after the other holds what its scheme
  has learnt from all of them, the last target, and their number
  (`Entry.ofOutcomes_concat_eq_trained`).
* A branch that has a way is inserted where it is, and its entry is trained
  (`run_update_of_some`). Any other branch is inserted, and the entry of the way
  that it is given starts over with the outcome (`run_update_of_none`).

A table thus takes a `Step` with every outcome: one branch is moved into a way, and
the entry of this way is the only one that changes (`Moved`, `ensures_update`).
-/

namespace BranchPrediction

/-! ## Entries -/

namespace Entry

variable {D : Type} [Scheme D]

/-- The entry of a branch that has had the given outcomes, oldest first, since its
    place was given to it. -/
def ofOutcomes (os : List Outcome) : Entry D := os.foldl (fun e o => e.train o.taken o.target) cold

/-- A further outcome trains the entry. -/
theorem ofOutcomes_concat (os : List Outcome) (o : Outcome) :
    (ofOutcomes (os ++ [o]) : Entry D) = (ofOutcomes os).train o.taken o.target :=
  List.foldl_append

/-- An entry that is reset and seeded learns an outcome as a cold one does. -/
theorem train_seed_reset (e : Entry D) (o : Outcome) :
    (e.reset.seed o.target).train o.taken o.target = ofOutcomes [o] := rfl

/-- A count of outcomes is held as far as an entry counts. -/
theorem toNat_ofNat_min (n : Nat) : (UInt64.ofNat (min n maxUpdates)).toNat = min n maxUpdates :=
  UInt64.toNat_ofNat_of_lt ((Nat.min_le_right _ _).trans_lt (by decide))

/-- The scheme has learnt all outcomes, the target is the last one, and every
    outcome is counted, up to the most that an entry counts. -/
theorem ofOutcomes_concat_eq_trained (os : List Outcome) (last : Outcome) :
    (ofOutcomes (os ++ [last]) : Entry D) =
      .trained (Scheme.trainAll Scheme.initial ((os ++ [last]).map Outcome.taken)) last.target
        (.ofNat (min (os ++ [last]).length maxUpdates)) := by
  -- Entries are trained in order, so the outcome to take away is the one before the last.
  induction os using List.reverseRecOn generalizing last with
  | nil => rfl
  | append_singleton os o ih =>
    have hcount : countUp (.ofNat (min (os ++ [o]).length maxUpdates)) =
        .ofNat (min (os ++ [o] ++ [last]).length maxUpdates) := by
      refine UInt64.toNat_inj.1 ?_
      rw [toNat_countUp, toNat_ofNat_min, toNat_ofNat_min]
      simp only [List.length_append, List.length_singleton]
      omega
    rw [ofOutcomes_concat, ih o, train, hcount]
    simp only [List.map_append, Scheme.trainAll_append]
    rfl

end Entry

namespace Table

variable {D S P : Type}

/-! ## Actions -/

section

variable {t : Table D S} {α : Type} {way set : Nat} {e : Entry D} {E : Fault → Table D S → Prop}

/-- What an action of the store ensures for the table. -/
theorem ensures_onStore {x : Action S α} {Q : α → Table D S → Prop} :
    (onStore x).Ensures t Q E ↔
      x.Ensures t.store (fun a s => Q a ⟨t.cells, s⟩) fun f s => E f ⟨t.cells, s⟩ :=
  Action.ensures_within x store fun t s => ⟨t.cells, s⟩

/-- An entry is read where there is one. -/
theorem ensures_entry {Q : Entry D → Table D S → Prop} (he : t.cells.get? way set = some e) :
    (entry way set).Ensures t Q E ↔ Q e t := by
  rw [Action.Ensures, run_entry, he]

/-- An entry is changed where there is one. -/
theorem ensures_modifyEntry {f : Entry D → Entry D} {Q : Unit → Table D S → Prop}
    (he : t.cells.get? way set = some e) :
    (modifyEntry way set f).Ensures t Q E ↔ Q () ⟨t.cells.modify way set f, t.store⟩ := by
  rw [Action.Ensures, run_modifyEntry, he]

end

variable [Replacement P] {t t' : Table D (TagArray P)} {pc : Address} {way : Nat} {e : Entry D}
  (hstride : t.store.shape.stride < UInt64.size)

include hstride in
/-- An address without a way has no entry. -/
theorem run_resident_of_none (hl : t.store.wayOfLine (t.store.shape.line pc) = none) :
    (resident pc).run t = .ok none t := by
  have hpeek : (AddressStore.peek pc).run t.store = .ok none t.store :=
    (TagArray.run_peek_eq hstride pc).trans (by rw [hl])
  simp only [resident, EStateM.run_bind, run_onStore, Action.within, hpeek]
  rfl

include hstride in
/-- The entry of an address is in the way that the address has. -/
theorem run_resident_of_some (hl : t.store.wayOfLine (t.store.shape.line pc) = some way)
    (he : t.cells.get? way (t.store.shape.setIndex pc) = some e) :
    (resident pc).run t = .ok (some e) t := by
  have hpeek : (AddressStore.peek pc).run t.store = .ok (some way) t.store :=
    (TagArray.run_peek_eq hstride pc).trans (by rw [hl])
  have hset : AddressStore.setIndex t.store pc = t.store.shape.setIndex pc := rfl
  simp only [resident, EStateM.run_bind, run_onStore, Action.within, hpeek, EStateM.run_get,
    EStateM.run_map, run_entry, hset, he]
  rfl

/-- An address is predicted from its entry. -/
theorem run_info [Scheme D] {r : Option (Entry D)} (hr : (resident pc).run t = .ok r t) :
    (info pc).run t = .ok (predict pc r) t := by
  rw [info, EStateM.run_map, hr]
  rfl

/-- The outcome of a branch that has a way trains its entry. -/
theorem run_update_of_some [Scheme D] {o : Outcome} (hstride : t.store.shape.stride < UInt64.size)
    (hl : t.store.wayOfLine (t.store.shape.line o.pc) = some way) :
    (update o).run t =
      (do
        let way ← onStore (TagArray.insert o.pc)
        modifyEntry way (t.store.shape.setIndex o.pc) (Entry.train o.taken o.target)
        return none).run t := by
  have hset : AddressStore.setIndex t.store o.pc = t.store.shape.setIndex o.pc := rfl
  have hlookup := TagArray.run_lookup_of_some hstride hl
  have hinsert := TagArray.run_insert_of_some hstride hl
  change (AddressStore.lookup o.pc).run t.store = _ at hlookup
  simp only [update, EStateM.run_bind, EStateM.run_get, run_onStore, Action.within, hlookup,
    hinsert, hset]
  cases (TagArray.onPolicy (Replacement.touch (t.store.shape.setIndex o.pc) way)).run t.store
  · rfl
  · rfl

/-- The outcome of any other branch gives it a way, whose entry is reset first. -/
theorem run_update_of_none [Scheme D] {o : Outcome} (hstride : t.store.shape.stride < UInt64.size)
    (hl : t.store.wayOfLine (t.store.shape.line o.pc) = none) :
    (update o).run t =
      (do
        let way ← onStore (TagArray.insert o.pc)
        let old ← entry way (t.store.shape.setIndex o.pc)
        modifyEntry way (t.store.shape.setIndex o.pc) fun _ => Entry.ofOutcomes [o]
        return some ⟨o.pc, t.store.shape.setIndex o.pc, way, !old.isCold⟩ :
          Action (Table D (TagArray P)) (Option Allocation)).run t := by
  have hset : AddressStore.setIndex t.store o.pc = t.store.shape.setIndex o.pc := rfl
  have hlookup := TagArray.run_lookup_of_none hstride hl
  change (AddressStore.lookup o.pc).run t.store = _ at hlookup
  simp only [update, EStateM.run_bind, EStateM.run_get, run_onStore, Action.within, hlookup, hset,
    Entry.train_seed_reset]
  rfl

/-! ## Steps -/

variable [Scheme D] {shape : Shape} {p : P} {o : Outcome} {a : Option Allocation} {set l : Nat}

/-- The branch of `o` was put into `way`, and `f` was applied to the entry there. -/
structure Moved (shape : Shape) (t : Table D (TagArray P)) (o : Outcome) (way : Nat)
    (f : Entry D → Entry D) (t' : Table D (TagArray P)) : Prop where
  run_insert : (TagArray.insert o.pc).run t.store = .ok way t'.store
  inserted : t.store.Inserted (shape.line o.pc) way t'.store
  cells_eq : t'.cells = t.cells.modify way (shape.setIndex o.pc) f

/-- What an outcome can do to a table: the branch has a way, or it is allocated one. -/
inductive Step (shape : Shape) (t : Table D (TagArray P)) (o : Outcome) :
    Option Allocation → Table D (TagArray P) → Prop
  | hit {way : Nat} {t' : Table D (TagArray P)} :
      t.store.wayOfLine (shape.line o.pc) = some way →
      Moved shape t o way (Entry.train o.taken o.target) t' → Step shape t o none t'
  | allocate {way : Nat} {old : Entry D} {t' : Table D (TagArray P)} :
      t.store.wayOfLine (shape.line o.pc) = none →
      t.cells.get? way (shape.setIndex o.pc) = some old →
      Moved shape t o way (fun _ => Entry.ofOutcomes [o]) t' →
      Step shape t o (some ⟨o.pc, shape.setIndex o.pc, way, !old.isCold⟩) t'

omit [Scheme D] in
/-- The entry of the way is changed. -/
theorem Moved.get?_self {f : Entry D → Entry D} (h : Moved shape t o way f t') :
    t'.cells.get? way (shape.setIndex o.pc) =
      (t.cells.get? way (shape.setIndex o.pc)).map f := by
  rw [h.cells_eq, Grid.get?_modify, if_pos ⟨rfl, rfl⟩]

omit [Scheme D] in
/-- No other entry is changed. -/
theorem Moved.get?_of_ne {f : Entry D → Entry D} (h : Moved shape t o way f t') {way' : Nat}
    (hne : ¬(set = shape.setIndex o.pc ∧ way' = way)) :
    t'.cells.get? way' set = t.cells.get? way' set := by
  rw [h.cells_eq, Grid.get?_modify, if_neg fun h => hne ⟨h.2.symm, h.1.symm⟩]

/-- A table whose tag array is in order takes such a step, as long as there is an
    entry for every way of every set. -/
theorem ensures_update (hstride : shape.stride < UInt64.size)
    (hp : Replacement.InRange shape.sets shape.ways p) (ht : t.store.InOrder shape p)
    (hcells : ∀ set < shape.sets, ∀ way < shape.ways, ∃ e, t.cells.get? way set = some e)
    (o : Outcome) :
    (update o).Ensures t (fun a t' => Step shape t o a t' ∧ t'.store.InOrder shape p)
      (fun f t' => Replacement.TouchFault shape.sets shape.ways p f t'.store.policy) := by
  obtain rfl := ht.shape_eq
  have hinsert := (ht.ensures_insert hstride hp o.pc).with_run
  cases hl : t.store.wayOfLine (t.store.shape.line o.pc) with
  | some way =>
    refine (Action.ensures_congr (run_update_of_some hstride hl)).2 (Action.ensures_bind.2 ?_)
    refine ensures_onStore.2 (hinsert.mono ?_ fun _ _ hf => hf)
    rintro way' s ⟨hr, hins, hs⟩
    obtain ⟨e, he⟩ := hcells _ (t.store.shape.setIndex_lt o.pc) way' hins.way_lt
    refine Action.ensures_bind.2 ((ensures_modifyEntry (t := ⟨t.cells, s⟩) he).2 ?_)
    exact Action.ensures_pure.2 ⟨.hit (hins.way_eq way hl ▸ hl) ⟨hr, hins, rfl⟩, hs⟩
  | none =>
    refine (Action.ensures_congr (run_update_of_none hstride hl)).2 (Action.ensures_bind.2 ?_)
    refine ensures_onStore.2 (hinsert.mono ?_ fun _ _ hf => hf)
    rintro way s ⟨hr, hins, hs⟩
    obtain ⟨e, he⟩ := hcells _ (t.store.shape.setIndex_lt o.pc) way hins.way_lt
    refine Action.ensures_bind.2 ((ensures_entry (t := ⟨t.cells, s⟩) he).2 ?_)
    refine Action.ensures_bind.2 ((ensures_modifyEntry (t := ⟨t.cells, s⟩) he).2 ?_)
    exact Action.ensures_pure.2 ⟨.allocate hl he ⟨hr, hins, rfl⟩, hs⟩

end Table

end BranchPrediction
