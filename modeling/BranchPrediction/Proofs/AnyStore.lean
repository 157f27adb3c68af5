import BranchPrediction.Proofs.Totality
import BranchPrediction.Store.Scripted

/-!
# Tables over any store

A table takes its store at its word. So whatever the store answers, and whatever it does to
itself, it is known from its answers which calls the table makes and which of its entries
change:

* training looks the branch up and, if it is not found, inserts it. These are all calls.
  The entry at the place that was answered changes, and no other one (`TrainsOneCell`);
* a query peeks, which is the only call, and leaves every entry as it is (`PeeksOnce`).

A place that the table does not have is a fault, which leaves every entry as it is too.
The table has the same places for ever (`Reachable.hasPlaces`), so nothing else needs to be known
of how it came to its state. Together, this is `store_is_followed`.
-/

namespace BranchPrediction

namespace Grid

variable {α : Type} {way set : Nat}

/-- The value at a place was changed by `f`, and no other value was. -/
structure ChangedAt (way set : Nat) (f : α → α) (g g' : Grid α) : Prop where
  get?_self : g'.get? way set = (g.get? way set).map f
  get?_of_ne : ∀ way' set', ¬(way' = way ∧ set' = set) → g'.get? way' set' = g.get? way' set'

theorem changedAt_modify (g : Grid α) (way set : Nat) (f : α → α) :
    ChangedAt way set f g (g.modify way set f) where
  get?_self := by rw [get?_modify, if_pos ⟨rfl, rfl⟩]
  get?_of_ne way' set' hne := by
    rw [get?_modify, if_neg]
    rintro ⟨rfl, rfl⟩
    exact hne ⟨rfl, rfl⟩

end Grid

namespace AddressStore.Recorded

variable {S α : Type} {c : Call} {x : Action S α} {r : Recorded S} {s : S}

/-- A call that is answered is noted. -/
theorem run_call_of_ok {a : α} (h : x.run r.store = .ok a s) :
    (call c x).run r = .ok a ⟨s, r.calls.push c⟩ :=
  Action.within_of_ok h _

/-- A call that ends in a fault is noted too. -/
theorem run_call_of_error {f : Fault} (h : x.run r.store = .error f s) :
    (call c x).run r = .error f ⟨s, r.calls.push c⟩ :=
  Action.within_of_error h _

end AddressStore.Recorded

namespace Table

open AddressStore (Recorded)

variable {D S : Type} [Scheme D] [AddressStore S]

/-- The states that a table over a store comes to: a new one, and what a request leaves,
    whether it was answered or ended in a fault. -/
inductive Reachable (store : S) (ways sets : Nat) : Table D S → Prop
  | new : Reachable store ways sets (ofStore store ways sets)
  | answered {t t' : Table D S} {r : Request} {a : Answer} : Reachable store ways sets t →
      (answer r).run t = .ok a t' → Reachable store ways sets t'
  | faulted {t t' : Table D S} {r : Request} {f : Fault} : Reachable store ways sets t →
      (answer r).run t = .error f t' → Reachable store ways sets t'

/-! ## What the table does -/

/-- What comes of an action that changes the entry of a way of a set by `f`, and leaves the
    store `s`: it answers if the table has the entry, and is a fault otherwise. -/
structure Writes (ways sets : Nat) (t : Table D S) (s : S) (way set : Nat)
    (f : Entry D → Entry D) (answer : Entry D → Option Allocation)
    (result : EStateM.Result Fault (Table D S) (Option Allocation)) : Prop where
  ok : way < ways ∧ set < sets → ∃ old cells, t.cells.get? way set = some old ∧
    t.cells.ChangedAt way set f cells ∧ result = .ok (answer old) ⟨cells, s⟩
  fault : ¬(way < ways ∧ set < sets) → result = .error (.cellOutOfRange way set) ⟨t.cells, s⟩

/-- Training with `o` looks the branch up, and inserts it if it is not found. If it is found,
    the entry at its place is trained; if not, the entry starts over with the outcome,
    whatever it was. -/
structure TrainsOneCell (ways sets : Nat) (t : Table D (Recorded S)) (o : Outcome) : Prop where
  lookup_fault : ∀ f s, (AddressStore.lookup o.pc).run t.store.store = .error f s →
    (update o).run t = .error f ⟨t.cells, s, t.store.calls.push (.lookup o.pc)⟩
  hit : ∀ way s, (AddressStore.lookup o.pc).run t.store.store = .ok (some way) s →
    Writes ways sets t ⟨s, t.store.calls.push (.lookup o.pc)⟩ way
      (AddressStore.setIndex t.store.store o.pc) (Entry.train o.taken o.target) (fun _ => none)
      ((update o).run t)
  insert_fault : ∀ s f s', (AddressStore.lookup o.pc).run t.store.store = .ok none s →
    (AddressStore.insert o.pc).run s = .error f s' →
    (update o).run t =
      .error f ⟨t.cells, s', (t.store.calls.push (.lookup o.pc)).push (.insert o.pc)⟩
  miss : ∀ s way s', (AddressStore.lookup o.pc).run t.store.store = .ok none s →
    (AddressStore.insert o.pc).run s = .ok way s' →
    Writes ways sets t ⟨s', (t.store.calls.push (.lookup o.pc)).push (.insert o.pc)⟩ way
      (AddressStore.setIndex t.store.store o.pc)
      (fun _ => .trained (Scheme.train Scheme.initial o.taken) o.target 1)
      (fun old => some ⟨o.pc, AddressStore.setIndex t.store.store o.pc, way, !old.isCold⟩)
      ((update o).run t)

/-- All three queries come to the same result: a prediction, or what it says of the
    direction or of the target, or else a fault. -/
structure Asked (t : Table D S) (pc : Address)
    (result : EStateM.Result Fault (Table D S) Prediction) : Prop where
  run_info : (info pc).run t = result
  run_isTaken : (isTaken pc).run t = result.map Prediction.taken
  run_target : (target pc).run t = result.map Prediction.target

/-- The prediction that an entry stands for. A cold one has no target. -/
def entryPrediction (pc : Address) : Entry D → Prediction
  | .cold => ⟨pc, Scheme.coldTaken D, pc + 4⟩
  | .trained direction target _ =>
    ⟨pc, Scheme.predict direction pc (some target),
      if Scheme.predict direction pc (some target) then target else pc + 4⟩

/-- A query peeks for the branch, and is answered from the entry at the place that it has,
    if it has one. -/
structure PeeksOnce (ways sets : Nat) (t : Table D (Recorded S)) (pc : Address) : Prop where
  peek_fault : ∀ f s, (AddressStore.peek pc).run t.store.store = .error f s →
    Asked t pc (.error f ⟨t.cells, s, t.store.calls.push (.peek pc)⟩)
  miss : ∀ s, (AddressStore.peek pc).run t.store.store = .ok none s →
    Asked t pc (.ok ⟨pc, false, pc + 4⟩ ⟨t.cells, s, t.store.calls.push (.peek pc)⟩)
  hit : ∀ way s, (AddressStore.peek pc).run t.store.store = .ok (some way) s →
    way < ways ∧ AddressStore.setIndex s pc < sets →
    ∃ e, t.cells.get? way (AddressStore.setIndex s pc) = some e ∧
      Asked t pc (.ok (entryPrediction pc e) ⟨t.cells, s, t.store.calls.push (.peek pc)⟩)
  hit_fault : ∀ way s, (AddressStore.peek pc).run t.store.store = .ok (some way) s →
    ¬(way < ways ∧ AddressStore.setIndex s pc < sets) →
    Asked t pc (.error (.cellOutOfRange way (AddressStore.setIndex s pc))
      ⟨t.cells, s, t.store.calls.push (.peek pc)⟩)

/-! ## Runs of one request -/

section

variable {t t' : Table D S} {o : Outcome} {pc : Address} {way : Nat} {s s' : S} {f : Fault}

/-- Training ends where the lookup does. -/
theorem run_update_of_lookup_error (h : (AddressStore.lookup o.pc).run t.store = .error f s) :
    (update o).run t = .error f ⟨t.cells, s⟩ := by
  simp only [update, EStateM.run_bind, EStateM.run_get, run_onStore, Action.within, h]

/-- A branch that is found has the entry there trained. -/
theorem run_update_of_lookup_some (h : (AddressStore.lookup o.pc).run t.store = .ok (some way) s) :
    (update o).run t =
      (do
        modifyEntry way (AddressStore.setIndex t.store o.pc) (Entry.train o.taken o.target)
        return none).run ⟨t.cells, s⟩ := by
  simp only [update, EStateM.run_bind, EStateM.run_get, run_onStore, Action.within, h]

/-- Training ends where the insertion does. -/
theorem run_update_of_insert_error (h : (AddressStore.lookup o.pc).run t.store = .ok none s)
    (hi : (AddressStore.insert o.pc).run s = .error f s') :
    (update o).run t = .error f ⟨t.cells, s'⟩ := by
  simp only [update, EStateM.run_bind, EStateM.run_get, run_onStore, Action.within, h, hi]

/-- A branch that is inserted has the entry there start over. -/
theorem run_update_of_insert_ok (h : (AddressStore.lookup o.pc).run t.store = .ok none s)
    (hi : (AddressStore.insert o.pc).run s = .ok way s') :
    (update o).run t =
      (do
        let old ← entry way (AddressStore.setIndex t.store o.pc)
        modifyEntry way (AddressStore.setIndex t.store o.pc) fun _ => Entry.ofOutcomes [o]
        return some ⟨o.pc, AddressStore.setIndex t.store o.pc, way, !old.isCold⟩ :
          Action (Table D S) (Option Allocation)).run ⟨t.cells, s'⟩ := by
  simp only [update, EStateM.run_bind, EStateM.run_get, run_onStore, Action.within, h, hi,
    Entry.train_seed_reset]

/-- Queries come to what the search for the entry comes to. -/
theorem asked_of_run_resident {result : EStateM.Result Fault (Table D S) (Option (Entry D))}
    (h : (resident pc).run t = result) : Asked t pc (result.map (predict pc)) := by
  have hinfo : (info pc).run t = result.map (predict pc) := by
    rw [info, EStateM.run_map, h]
  refine ⟨hinfo, ?_, ?_⟩
  · rw [isTaken, EStateM.run_map, hinfo]
  · rw [target, EStateM.run_map, hinfo]

omit [Scheme D] in
/-- The search ends where the peek does. -/
theorem run_resident_of_peek_error (h : (AddressStore.peek pc).run t.store = .error f s) :
    (resident pc).run t = .error f ⟨t.cells, s⟩ := by
  simp only [resident, EStateM.run_bind, run_onStore, Action.within, h]

omit [Scheme D] in
/-- A branch that is not found has no entry. -/
theorem run_resident_of_peek_none (h : (AddressStore.peek pc).run t.store = .ok none s) :
    (resident pc).run t = .ok none ⟨t.cells, s⟩ := by
  simp only [resident, EStateM.run_bind, run_onStore, Action.within, h, EStateM.run_pure]

omit [Scheme D] in
/-- A branch that is found has the entry there, if there is one. -/
theorem run_resident_of_peek_some (h : (AddressStore.peek pc).run t.store = .ok (some way) s) :
    (resident pc).run t =
      match t.cells.get? way (AddressStore.setIndex s pc) with
      | some e => .ok (some e) ⟨t.cells, s⟩
      | none => .error (.cellOutOfRange way (AddressStore.setIndex s pc)) ⟨t.cells, s⟩ := by
  simp only [resident, EStateM.run_bind, run_onStore, Action.within, h, EStateM.run_get,
    EStateM.run_map, run_entry]
  cases t.cells.get? way (AddressStore.setIndex s pc) <;> rfl

/-- An entry stands for its prediction. -/
theorem predict_some (pc : Address) (e : Entry D) : predict pc (some e) = entryPrediction pc e := by
  rcases e with _ | ⟨direction, target, updates⟩
  · rw [entryPrediction]
    cases h : Scheme.coldTaken D <;> simp only [predict, Entry.predictTaken, h] <;> rfl
  · exact predict_trained pc direction target updates

end

/-! ## Places -/

section

variable {ways sets : Nat} {t : Table D S}

/-- The table has an entry for so many ways of so many sets, and no other entry. -/
def HasPlaces (ways sets : Nat) (t : Table D S) : Prop :=
  ∀ way set, (t.cells.get? way set).isSome ↔ way < ways ∧ set < sets

omit [Scheme D] [AddressStore S] in
/-- A new table has the places that were asked for. -/
theorem hasPlaces_ofStore (store : S) (ways sets : Nat) :
    HasPlaces ways sets (ofStore store ways sets : Table D S) := by
  intro way set
  rw [ofStore, Grid.get?_replicate]
  split <;> simp [*]

omit [Scheme D] [AddressStore S] in
/-- The store does not reach the entries. -/
theorem HasPlaces.ensures_onStore {α : Type} (ht : HasPlaces ways sets t) (x : Action S α) :
    (onStore x).Ensures t (fun _ => HasPlaces ways sets) (fun _ => HasPlaces ways sets) :=
  Table.ensures_onStore.2 (Action.ensures_iff.2 ⟨fun _ _ _ => ht, fun _ _ _ => ht⟩)

omit [Scheme D] [AddressStore S] in
theorem HasPlaces.ensures_entry (ht : HasPlaces ways sets t) (way set : Nat) :
    (entry way set).Ensures t (fun _ => HasPlaces ways sets) (fun _ => HasPlaces ways sets) := by
  rw [Action.Ensures, run_entry]
  cases t.cells.get? way set <;> exact ht

omit [Scheme D] [AddressStore S] in
/-- A changed entry is an entry still. -/
theorem HasPlaces.ensures_modifyEntry (ht : HasPlaces ways sets t) (way set : Nat)
    (f : Entry D → Entry D) :
    (modifyEntry way set f).Ensures t (fun _ => HasPlaces ways sets)
      (fun _ => HasPlaces ways sets) := by
  rw [Action.Ensures, run_modifyEntry]
  cases t.cells.get? way set with
  | none => exact ht
  | some e =>
    intro way' set'
    rw [Grid.isSome_get?_modify]
    exact ht way' set'

omit [Scheme D] in
theorem HasPlaces.ensures_resident (ht : HasPlaces ways sets t) (pc : Address) :
    (resident pc).Ensures t (fun _ => HasPlaces ways sets) (fun _ => HasPlaces ways sets) := by
  refine Action.ensures_bind.2 ((ht.ensures_onStore _).mono (fun r t' ht' => ?_) fun _ _ h => h)
  rcases r with _ | way
  · exact ht'
  · exact Action.ensures_map.2 (ht'.ensures_entry _ _)

theorem HasPlaces.ensures_update (ht : HasPlaces ways sets t) (o : Outcome) :
    (update o).Ensures t (fun _ => HasPlaces ways sets) (fun _ => HasPlaces ways sets) := by
  refine Action.ensures_bind.2 (Action.ensures_get.2 (Action.ensures_bind.2 ?_))
  refine (ht.ensures_onStore _).mono (fun r t' ht' => ?_) fun _ _ h => h
  rcases r with _ | way
  · refine Action.ensures_bind.2 ((ht'.ensures_onStore _).mono (fun way u hu => ?_) fun _ _ h => h)
    refine Action.ensures_bind.2 ((hu.ensures_entry _ _).mono (fun _ v hv => ?_) fun _ _ h => h)
    exact Action.ensures_bind.2 (hv.ensures_modifyEntry _ _ _)
  · exact Action.ensures_bind.2 (ht'.ensures_modifyEntry _ _ _)

/-- No request adds a place or removes one. -/
theorem HasPlaces.ensures_answer (ht : HasPlaces ways sets t) (r : Request) :
    (answer r).Ensures t (fun _ => HasPlaces ways sets) (fun _ => HasPlaces ways sets) := by
  have hinfo (pc : Address) : (info pc).Ensures t (fun _ => HasPlaces ways sets)
      (fun _ => HasPlaces ways sets) := Action.ensures_map.2 (ht.ensures_resident pc)
  cases r with
  | update o => exact Action.ensures_map.2 (ht.ensures_update o)
  | info pc => exact Action.ensures_map.2 (hinfo pc)
  | isTaken pc => exact Action.ensures_map.2 (Action.ensures_map.2 (hinfo pc))
  | target pc => exact Action.ensures_map.2 (Action.ensures_map.2 (hinfo pc))

/-- A table has the places that it was made with. -/
theorem Reachable.hasPlaces {store : S} (ht : Reachable store ways sets t) :
    HasPlaces ways sets t := by
  induction ht with
  | new => exact hasPlaces_ofStore store ways sets
  | @answered _ _ r _ _ hr ih => exact (ih.ensures_answer r).of_ok hr
  | @faulted _ _ r _ _ hr ih => exact (ih.ensures_answer r).of_error hr

omit [Scheme D] [AddressStore S] in
/-- There is no entry where there is no place. -/
theorem HasPlaces.get?_eq_none (ht : HasPlaces ways sets t) {way set : Nat}
    (h : ¬(way < ways ∧ set < sets)) : t.cells.get? way set = none := by
  rw [← ht way set, Bool.not_eq_true, Option.isSome_eq_false_iff, Option.isNone_iff_eq_none] at h
  exact h

omit [Scheme D] [AddressStore S] in
/-- There is an entry at every place. -/
theorem HasPlaces.exists_entry (ht : HasPlaces ways sets t) {way set : Nat}
    (h : way < ways ∧ set < sets) : ∃ e, t.cells.get? way set = some e :=
  Option.isSome_iff_exists.1 ((ht way set).2 h)

end

/-! ## Following the store -/

section

variable {ways sets : Nat} {t : Table D S} {s : S} {way set : Nat} {f : Entry D → Entry D}

omit [Scheme D] [AddressStore S] in
/-- An entry is changed alone. -/
theorem HasPlaces.writes_train (ht : HasPlaces ways sets t) (s : S) (way set : Nat)
    (f : Entry D → Entry D) :
    Writes ways sets t s way set f (fun _ => none)
      ((do modifyEntry way set f; return none : Action (Table D S) (Option Allocation)).run
        ⟨t.cells, s⟩) where
  ok h := by
    obtain ⟨old, hold⟩ := ht.exists_entry h
    refine ⟨old, _, hold, Grid.changedAt_modify _ way set f, ?_⟩
    simp only [EStateM.run_bind, run_modifyEntry, hold, EStateM.run_pure]
  fault h := by
    simp only [EStateM.run_bind, run_modifyEntry, ht.get?_eq_none h]

omit [Scheme D] [AddressStore S] in
/-- An entry that is given to a branch is changed alone. -/
theorem HasPlaces.writes_allocate (ht : HasPlaces ways sets t) (s : S) (way set : Nat)
    (f : Entry D → Entry D) (answer : Entry D → Option Allocation) :
    Writes ways sets t s way set f answer
      ((do
        let old ← entry way set
        modifyEntry way set f
        return answer old : Action (Table D S) (Option Allocation)).run ⟨t.cells, s⟩) where
  ok h := by
    obtain ⟨old, hold⟩ := ht.exists_entry h
    refine ⟨old, _, hold, Grid.changedAt_modify _ way set f, ?_⟩
    simp only [EStateM.run_bind, run_entry, run_modifyEntry, hold, EStateM.run_pure]
  fault h := by
    simp only [EStateM.run_bind, run_entry, ht.get?_eq_none h]

end

variable {ways sets : Nat} {t : Table D (Recorded S)}

/-- Training does what the store answers. -/
theorem HasPlaces.trainsOneCell (ht : HasPlaces ways sets t) (o : Outcome) :
    TrainsOneCell ways sets t o where
  lookup_fault f s h := run_update_of_lookup_error (Recorded.run_call_of_error h)
  hit way s h := by
    have hlookup : (AddressStore.lookup o.pc).run t.store = .ok (some way) ⟨s, _⟩ :=
      Recorded.run_call_of_ok h
    rw [run_update_of_lookup_some hlookup]
    exact ht.writes_train ..
  insert_fault s f s' h hi :=
    run_update_of_insert_error (s := ⟨s, _⟩) (Recorded.run_call_of_ok h)
      (Recorded.run_call_of_error hi)
  miss s way s' h hi := by
    have hlookup : (AddressStore.lookup o.pc).run t.store = .ok none ⟨s, _⟩ :=
      Recorded.run_call_of_ok h
    rw [run_update_of_insert_ok hlookup (Recorded.run_call_of_ok hi)]
    exact ht.writes_allocate ..

/-- Queries are answered from what the store answers. -/
theorem HasPlaces.peeksOnce (ht : HasPlaces ways sets t) (pc : Address) :
    PeeksOnce ways sets t pc where
  peek_fault f s h :=
    asked_of_run_resident (run_resident_of_peek_error (Recorded.run_call_of_error h))
  miss s h := asked_of_run_resident (run_resident_of_peek_none (Recorded.run_call_of_ok h))
  hit way s h hin := by
    have hpeek : (AddressStore.peek pc).run t.store = .ok (some way) ⟨s, _⟩ :=
      Recorded.run_call_of_ok h
    have hset : AddressStore.setIndex (⟨s, t.store.calls.push (.peek pc)⟩ : Recorded S) pc =
        AddressStore.setIndex s pc := rfl
    have hresident := run_resident_of_peek_some hpeek
    obtain ⟨e, he⟩ := ht.exists_entry hin
    simp only [hset, he] at hresident
    refine ⟨e, he, ?_⟩
    rw [← predict_some]
    exact asked_of_run_resident hresident
  hit_fault way s h hout := by
    have hpeek : (AddressStore.peek pc).run t.store = .ok (some way) ⟨s, _⟩ :=
      Recorded.run_call_of_ok h
    have hset : AddressStore.setIndex (⟨s, t.store.calls.push (.peek pc)⟩ : Recorded S) pc =
        AddressStore.setIndex s pc := rfl
    have hresident := run_resident_of_peek_some hpeek
    simp only [hset, ht.get?_eq_none hout] at hresident
    exact asked_of_run_resident hresident

/-- Whatever the store, and whatever the table was asked before, an outcome and a query each
    make their own calls only, and an outcome changes no other entry than that of the place
    which the store answers. -/
theorem store_is_followed {store : Recorded S} (ht : Reachable store ways sets t) :
    (∀ o, TrainsOneCell ways sets t o) ∧ ∀ pc, PeeksOnce ways sets t pc :=
  ⟨ht.hasPlaces.trainsOneCell, ht.hasPlaces.peeksOnce⟩

/-- A store that gives a branch the way `1`, and then claims to find it in a way that the table
    does not have. Training ends in a fault there, and the entry is still what it was. -/
theorem store_is_followed_scripted :
    let store : Recorded ScriptedStore := ⟨⟨⟨[some 1, none]⟩, ⟨[none, some 7]⟩, ⟨[1]⟩, 2⟩, #[]⟩
    let left : Recorded ScriptedStore :=
      ⟨⟨⟨[none]⟩, ⟨[some 7]⟩, ⟨[1]⟩, 2⟩, #[.lookup 4, .insert 4, .peek 4, .lookup 4]⟩
    let t : Table TwoBit (Recorded ScriptedStore) :=
      ⟨⟨#[#[.cold, .cold], #[.cold, .trained .weaklyTaken 64 1]]⟩, left⟩
    Reachable store 2 2 t ∧ (∀ o, TrainsOneCell 2 2 t o) ∧ ∀ pc, PeeksOnce 2 2 t pc := by
  intro store left t
  let start : Table TwoBit (Recorded ScriptedStore) := ofStore store 2 2
  have hstart : Reachable store 2 2 start := .new
  have htrained : (answer (.update ⟨4, true, 64⟩)).run start =
      .ok (.allocation (some ⟨4, 1, 1, false⟩))
        ⟨t.cells, ⟨⟨[some 1, none]⟩, ⟨[some 7]⟩, ⟨[1]⟩, 2⟩, #[.lookup 4, .insert 4]⟩ := rfl
  have hasked : (answer (.info 4)).run
      (⟨t.cells, ⟨⟨[some 1, none]⟩, ⟨[some 7]⟩, ⟨[1]⟩, 2⟩, #[.lookup 4, .insert 4]⟩ :
        Table TwoBit (Recorded ScriptedStore)) =
      .ok (.prediction ⟨4, true, 64⟩)
        ⟨t.cells, ⟨⟨[none]⟩, ⟨[some 7]⟩, ⟨[1]⟩, 2⟩, #[.lookup 4, .insert 4, .peek 4]⟩ := rfl
  have hfailed : (answer (.update ⟨4, true, 64⟩)).run
      (⟨t.cells, ⟨⟨[none]⟩, ⟨[some 7]⟩, ⟨[1]⟩, 2⟩, #[.lookup 4, .insert 4, .peek 4]⟩ :
        Table TwoBit (Recorded ScriptedStore)) =
      .error (.cellOutOfRange 7 1) t := rfl
  have ht : Reachable store 2 2 t := ((hstart.answered htrained).answered hasked).faulted hfailed
  exact ⟨ht, store_is_followed ht⟩

end Table

end BranchPrediction
