import BranchPrediction.Proofs.Insertion
import BranchPrediction.Replacement.Scripted

/-!
# Calls of policies

What a tag array asks its replacement policy, and what it tells it. The policy need not keep
within its range: a victim beyond the ways of its set is taken at its word, as long as it has a
slot, and then lies in a later set. All that is asked of the policy is that it does not fail by
itself (`Replacement.NeverFails`).

* A touch is reported for every lookup that finds its address, and for every insertion. A victim is
  asked for once by every insertion of an address that is not found, before the touch. There is no
  other call (`callsFor`).
* The one thing that can fail is the insertion of an address that is not found, when the victim has
  no slot. The policy has been asked by then, but it is told nothing, and no slot is written
  (`Refused`).

Whether an address is found depends on every slot that was written before. So each request is noted
with the way that its address had just then (`AddressStore.noted`), and from these notes the calls
of a whole series of requests follow in their order (`policy_hears_every_use`).
-/

namespace BranchPrediction

namespace Replacement

variable {P : Type} [Replacement P] {set way : Nat} {q : P}

/-- The states that a policy comes to from `p` while it serves a tag array: a way of a set is
    touched, or a victim is named, and touched if it has a slot. -/
inductive Served (sets ways : Nat) (p : P) : P → Prop
  | refl : Served sets ways p p
  | touch {q q' : P} {set way : Nat} : Served sets ways p q → set < sets → way < ways →
      (Replacement.touch set way).run q = .ok () q' → Served sets ways p q'
  | fill {q q' q'' : P} {set way : Nat} : Served sets ways p q → set < sets →
      (Replacement.victim set).run q = .ok way q' → set * ways + way < sets * ways →
      (Replacement.touch set way).run q' = .ok () q'' → Served sets ways p q''

/-- No call of a tag array ends in a fault of the policy's own. -/
structure NeverFails (sets ways : Nat) (p : P) : Prop where
  touch : ∀ q, Served sets ways p q → ∀ set < sets, ∀ way < ways,
    ∃ q', (Replacement.touch set way).run q = .ok () q'
  victim : ∀ q, Served sets ways p q → ∀ set < sets,
    ∃ way q', (Replacement.victim set).run q = .ok way q'
  fill : ∀ q, Served sets ways p q → ∀ set < sets, ∀ way q',
    (Replacement.victim set).run q = .ok way q' → set * ways + way < sets * ways →
      ∃ q'', (Replacement.touch set way).run q' = .ok () q''

namespace Recorded

variable {r : Recorded P}

/-- A touch is noted. -/
theorem run_touch (h : (touch set way).run r.policy = .ok () q) :
    (touch set way).run r = .ok () ⟨q, r.calls.push (.touch set way)⟩ :=
  Action.within_of_ok h _

/-- That a victim was asked for is noted. -/
theorem run_victim (h : (victim set).run r.policy = .ok way q) :
    (victim set).run r = .ok way ⟨q, r.calls.push (.victim set)⟩ :=
  Action.within_of_ok h _

end Recorded

end Replacement

namespace Script

variable {α : Type}

/-- A script goes on for ever, unless it is empty. -/
theorem exists_run_next {s : Script α} (h : s.answers ≠ []) :
    ∃ a s', next.run s = .ok a s' ∧ s'.answers ≠ [] := by
  match s, h with
  | ⟨[a]⟩, h => exact ⟨a, ⟨[a]⟩, rfl, h⟩
  | ⟨a :: b :: rest⟩, _ => exact ⟨a, ⟨b :: rest⟩, rfl, List.cons_ne_nil b rest⟩

end Script

namespace ScriptedPolicy

open Replacement (NeverFails Served)

variable {p q : ScriptedPolicy} {sets ways : Nat}

/-- A victim is named while there is one in the script, which never ends then. -/
theorem exists_run_victim (h : q.victims.answers ≠ []) (set : Nat) :
    ∃ way q', (Replacement.victim set).run q = .ok way q' ∧ q'.victims.answers ≠ [] := by
  obtain ⟨way, victims, hnext, hvictims⟩ := Script.exists_run_next h
  exact ⟨way, ⟨victims⟩, Action.within_of_ok hnext _, hvictims⟩

/-- To serve a tag array leaves a victim in the script. -/
theorem answers_ne_nil_of_served (h : p.victims.answers ≠ []) (hq : Served sets ways p q) :
    q.victims.answers ≠ [] := by
  induction hq with
  | refl => exact h
  | touch _ _ _ htouch ih =>
    cases htouch
    exact ih
  | fill _ _ hvictim _ htouch ih =>
    obtain ⟨way, q', hvictim', hq'⟩ := exists_run_victim ih _
    cases hvictim.symm.trans hvictim'
    cases htouch
    exact hq'

/-- A scripted policy never fails, unless its script is empty. -/
theorem neverFails (h : p.victims.answers ≠ []) : NeverFails sets ways p where
  touch q _ _ _ _ _ := ⟨q, rfl⟩
  victim q hq set _ := by
    obtain ⟨way, q', hvictim, -⟩ := exists_run_victim (answers_ne_nil_of_served h hq) set
    exact ⟨way, q', hvictim⟩
  fill _ _ _ _ _ q' _ _ := ⟨q', rfl⟩

end ScriptedPolicy

namespace AddressStore

variable {S : Type} [AddressStore S]

/-- What a store can be asked: the set of an address, or a call. -/
inductive Request
  | setIndex (a : Address)
  | call (c : Call)

/-- What a request is answered with. -/
inductive Answer
  | set (set : Nat)
  | way (way : Option Nat)

/-- The address that a request is for. -/
def Request.address : Request → Address
  | setIndex a | call (.peek a) | call (.lookup a) | call (.insert a) => a

/-- Answers a request. -/
def answer : Request → Action S Answer
  | .setIndex a => do return .set (setIndex (← get) a)
  | .call c => Answer.way <$> perform c

/-- Answers a request, and notes the way that the address had before. -/
def noted (r : Request) : Action S (Option Nat × Answer) := do
  let found ← peek r.address
  let a ← answer r
  return (found, a)

end AddressStore

namespace TagArray

open AddressStore (Request Answer answer noted)
open Replacement (Recorded Served NeverFails)

variable {P : Type} {a : Address} {set way : Nat}

/-- The tag of `a` was written into the slot of `way` in its set, and into no other slot. -/
structure Filled (t : TagArray P) (a : Address) (way : Nat) (t' : TagArray P) : Prop where
  shape_eq : t'.shape = t.shape
  slot_lt : t.slot (t.shape.setIndex a) way < t.shape.slots
  getElem?_slots : ∀ i, t'.slots[i]? =
    if i = t.slot (t.shape.setIndex a) way then some (some (t.shape.masked a / t.shape.stride))
    else t.slots[i]?

/-- The same tag array without the record of the calls. -/
def unrecorded (t : TagArray (Recorded P)) : TagArray P := ⟨t.shape, t.slots, t.policy.policy⟩

/-- The tag array after a call of its policy, which has left the policy in the state `q`. -/
def told (t : TagArray (Recorded P)) (c : Replacement.Call) (q : P) : TagArray (Recorded P) :=
  t.withPolicy ⟨q, t.policy.calls.push c⟩

/-- The calls of the policy for a request that is noted with the way that its address had, and with
    its answer. -/
def callsFor (shape : Shape) : Request × Option Nat × Answer → List Replacement.Call
  | (.call (.lookup a), _, .way (some way)) => [.touch (shape.setIndex a) way]
  | (.call (.insert a), some _, .way (some way)) => [.touch (shape.setIndex a) way]
  | (.call (.insert a), none, .way (some way)) =>
    [.victim (shape.setIndex a), .touch (shape.setIndex a) way]
  | _ => []

/-- The set and the way that a request has used. -/
def used (shape : Shape) : Request × Option Nat × Answer → Option (Nat × Nat)
  | (.call (.lookup a), _, .way (some way)) => some (shape.setIndex a, way)
  | (.call (.insert a), _, .way (some way)) => some (shape.setIndex a, way)
  | _ => none

/-! ## Single calls -/

section

variable {t : TagArray P}

/-- A line that is put into a way with a slot fills the slot. -/
theorem filled_place (h : t.slot (t.shape.setIndex a) way < t.shape.slots) (q : P) :
    Filled t a way ((t.place (t.shape.line a) way).withPolicy q) where
  shape_eq := rfl
  slot_lt := h
  getElem?_slots i := by
    change (t.slots.setIfInBounds (t.slot (t.shape.setIndex a) way) _)[i]? = _
    rw [Vector.getElem?_setIfInBounds, t.shape.masked_div_stride]
    by_cases hi : i = t.slot (t.shape.setIndex a) way
    · rw [if_pos hi.symm, if_pos hi, if_pos h]
    · rw [if_neg (Ne.symm hi), if_neg hi]

/-- The slot of a line that is held is filled with what it holds. -/
theorem filled_of_wayOfLine (hl : t.wayOfLine (t.shape.line a) = some way) (q : P) :
    Filled t a way (t.withPolicy q) := by
  have hslot := slot_lt (t.shape.mod_sets_lt (t.shape.line a)) (lineAt_of_wayOfLine hl).1
  have hfilled := filled_place hslot q
  rw [place_of_wayOfLine hl] at hfilled
  exact hfilled

/-- An address is found if its line has a way. -/
theorem run_peek_eq_ok_iff (hstride : t.shape.stride < UInt64.size) {found : Option Nat} :
    (peek a).run t = .ok found t ↔ t.wayOfLine (t.shape.line a) = found := by
  rw [run_peek_eq hstride, EStateM.Result.ok.injEq, and_iff_left rfl]

end

/-! ## Requests -/

variable [Replacement P] {shape : Shape} {p : P} {t t' : TagArray (Recorded P)} {r : Request}

/-- What every call of `t` leads to. -/
structure Serves (t : TagArray (Recorded P)) : Prop where
  /-- To ask for a set changes nothing, -/
  setIndex_exact : ∀ a, (answer (.setIndex a)).run t = .ok (.set (t.shape.setIndex a)) t
  /-- nor does it change anything to peek, -/
  peek_exact : ∀ a, ∃ found, (peek a).run t = .ok found t
  /-- nor to look up an address that is not found. -/
  lookup_miss : ∀ a, (peek a).run t = .ok none t → (lookup a).run t = .ok none t
  /-- The way of an address that is found is touched, -/
  lookup_hit : ∀ a way, (peek a).run t = .ok (some way) t → ∃ q,
    (Replacement.touch (t.shape.setIndex a) way).run t.policy.policy = .ok () q ∧
    (lookup a).run t = .ok (some way) (t.told (.touch (t.shape.setIndex a) way) q)
  /-- and so it is when the address is inserted. Its tag is written where it is. -/
  insert_hit : ∀ a way, (peek a).run t = .ok (some way) t → ∃ t' q,
    (Replacement.touch (t.shape.setIndex a) way).run t.policy.policy = .ok () q ∧
    (insert a).run t = .ok way t' ∧ Filled t a way t' ∧
    t'.policy = ⟨q, t.policy.calls.push (.touch (t.shape.setIndex a) way)⟩
  /-- An address that is not found is inserted into the slot of the victim, if there is one, and
      then the victim is touched. -/
  insert_miss : ∀ a way q, (peek a).run t = .ok none t →
    (Replacement.victim (t.shape.setIndex a)).run t.policy.policy = .ok way q →
    t.slot (t.shape.setIndex a) way < t.shape.slots → ∃ t' q',
      (Replacement.touch (t.shape.setIndex a) way).run q = .ok () q' ∧
      (insert a).run t = .ok way t' ∧ Filled t a way t' ∧
      t'.policy = ⟨q', (t.policy.calls.push (.victim (t.shape.setIndex a))).push
        (.touch (t.shape.setIndex a) way)⟩
  /-- If there is none, the policy is told nothing more, and no slot is written. -/
  insert_fault : ∀ a way q, (peek a).run t = .ok none t →
    (Replacement.victim (t.shape.setIndex a)).run t.policy.policy = .ok way q →
    t.shape.slots ≤ t.slot (t.shape.setIndex a) way →
      (insert a).run t = .error (.slotOutOfRange (t.slot (t.shape.setIndex a) way))
        (t.told (.victim (t.shape.setIndex a)) q)
  /-- There is no other way to fail. -/
  insert_fails_iff : ∀ a, (∃ f t', (insert a).run t = .error f t') ↔
    (peek a).run t = .ok none t ∧ ∃ way q,
      (Replacement.victim (t.shape.setIndex a)).run t.policy.policy = .ok way q ∧
      t.shape.slots ≤ t.slot (t.shape.setIndex a) way

/-- What is seen of a request of `t` that is noted with `a`, and that leaves `t'`. -/
structure Answered (t : TagArray (Recorded P)) (r : Request) (a : Option Nat × Answer)
    (t' : TagArray (Recorded P)) : Prop where
  found : (peek r.address).run t = .ok a.1 t
  answer : (answer r).run t = .ok a.2 t'
  /-- The record is without influence. -/
  unrecorded : (AddressStore.answer r).run t.unrecorded = .ok a.2 t'.unrecorded
  calls : t'.policy.calls.toList = t.policy.calls.toList ++ callsFor t.shape (r, a)

/-- What is seen of a request of `t` that ends in a fault, and leaves `t'`. -/
structure Refused (t : TagArray (Recorded P)) (r : Request) (f : Fault)
    (t' : TagArray (Recorded P)) : Prop where
  answer : (answer r).run t = .error f t'
  unrecorded : (AddressStore.answer r).run t.unrecorded = .error f t'.unrecorded
  /-- It was to insert an address that is not found, and the victim has no slot. The policy was
      asked for the victim, and was not told of any touch. -/
  cause : ∃ a way q, r = .call (.insert a) ∧ (peek a).run t = .ok none t ∧
    (Replacement.victim (t.shape.setIndex a)).run t.policy.policy = .ok way q ∧
    t.shape.slots ≤ t.slot (t.shape.setIndex a) way ∧
    f = .slotOutOfRange (t.slot (t.shape.setIndex a) way) ∧
    t' = t.told (.victim (t.shape.setIndex a)) q

/-- What is seen of a series of requests of `tags` that is noted in `log`, and that leaves `t`. -/
structure Conversed (tags : TagArray (Recorded P)) (log : List (Request × Option Nat × Answer))
    (t : TagArray (Recorded P)) : Prop where
  answers : (Action.each answer (log.map Prod.fst)).run tags =
    .ok (log.map fun e => (e.1, e.2.2)) t
  unrecorded : (Action.each answer (log.map Prod.fst)).run tags.unrecorded =
    .ok (log.map fun e => (e.1, e.2.2)) t.unrecorded
  calls : t.policy.calls.toList = log.flatMap (callsFor tags.shape)
  touches : t.policy.touches = log.filterMap (used tags.shape)

/-- A tag array of the given shape, whose policy has come from `p` to its present state. -/
structure Consults (shape : Shape) (p : P) (t : TagArray (Recorded P)) : Prop where
  shape_eq : t.shape = shape
  served : Served shape.sets shape.ways p t.policy.policy

/-- A request that is answered is noted so. -/
theorem Answered.run_noted {a : Option Nat × Answer} (h : Answered t r a t') :
    (noted r).run t = .ok a t' := by
  have hfound : (AddressStore.peek r.address).run t = .ok a.1 t := h.found
  simp only [noted, EStateM.run_bind, hfound, h.answer, EStateM.run_pure]

/-- A request that ends in a fault does so when it is noted. -/
theorem Refused.run_noted {f : Fault} (h : Refused t r f t') : (noted r).run t = .error f t' := by
  obtain ⟨a, way, q, rfl, hfound, -⟩ := h.cause
  have hpeek : (AddressStore.peek (Request.call (.insert a)).address).run t = .ok none t := hfound
  simp only [noted, EStateM.run_bind, hpeek, h.answer]

/-- The request for a call is noted with the way of its line. -/
theorem answered_call {c : AddressStore.Call} {found found' : Option Nat}
    (hstride : t.shape.stride < UInt64.size)
    (hl : t.wayOfLine (t.shape.line (Request.call c).address) = found)
    (hrun : (AddressStore.perform c).run t = .ok found' t')
    (hrun' : (AddressStore.perform c).run t.unrecorded = .ok found' t'.unrecorded)
    (hcalls : t'.policy.calls.toList =
      t.policy.calls.toList ++ callsFor t.shape (.call c, found, .way found')) :
    Answered t (.call c) (found, .way found') t' where
  found := (run_peek_eq_ok_iff hstride).2 hl
  answer := by
    rw [answer, EStateM.run_map, hrun]
    rfl
  unrecorded := by
    rw [answer, EStateM.run_map, hrun']
    rfl
  calls := hcalls

/-- An insertion that is answered answers the call for it. -/
theorem run_perform_insert {S : Type} [AddressStore S] {s s' : S}
    (h : (AddressStore.insert a).run s = .ok way s') :
    (AddressStore.perform (.insert a)).run s = .ok (some way) s' := by
  rw [AddressStore.perform, EStateM.run_map, h]
  rfl

/-- An insertion that ends in a fault is a fault of the request for it. -/
theorem run_answer_insert_of_error {S : Type} [AddressStore S] {s s' : S} {f : Fault}
    (h : (AddressStore.insert a).run s = .error f s') :
    (answer (.call (.insert a))).run s = .error f s' := by
  rw [answer, EStateM.run_map, AddressStore.perform, EStateM.run_map, h]
  rfl

namespace Consults

variable (hp : NeverFails shape.sets shape.ways p) (ht : Consults shape p t)
include hp ht

/-- A way of a set can be touched. -/
theorem exists_touch (a : Address) (hway : way < t.shape.ways) :
    ∃ q, (Replacement.touch (t.shape.setIndex a) way).run t.policy.policy = .ok () q ∧
      Served shape.sets shape.ways p q := by
  obtain rfl := ht.shape_eq
  obtain ⟨q, hq⟩ := hp.touch _ ht.served _ (t.shape.setIndex_lt a) way hway
  exact ⟨q, hq, ht.served.touch (t.shape.setIndex_lt a) hway hq⟩

/-- A victim is named. -/
theorem exists_victim (a : Address) :
    ∃ way q, (Replacement.victim (t.shape.setIndex a)).run t.policy.policy = .ok way q := by
  obtain rfl := ht.shape_eq
  exact hp.victim _ ht.served _ (t.shape.setIndex_lt a)

/-- A victim with a slot can be touched. -/
theorem exists_fill {q : P}
    (hvictim : (Replacement.victim (t.shape.setIndex a)).run t.policy.policy = .ok way q)
    (hslot : t.slot (t.shape.setIndex a) way < t.shape.slots) :
    ∃ q', (Replacement.touch (t.shape.setIndex a) way).run q = .ok () q' ∧
      Served shape.sets shape.ways p q' := by
  obtain rfl := ht.shape_eq
  have hset := t.shape.setIndex_lt a
  obtain ⟨q', hq'⟩ := hp.fill _ ht.served _ hset way q hvictim hslot
  exact ⟨q', hq', ht.served.fill hset hvictim hslot hq'⟩

variable (hstride : shape.stride < UInt64.size)
include hstride

/-- An insertion fails only where the victim of its address has no slot. -/
theorem slots_le_of_run_insert_error (hfault : ∃ f t', (insert a).run t = .error f t') :
    t.wayOfLine (t.shape.line a) = none ∧ ∃ way q,
      (Replacement.victim (t.shape.setIndex a)).run t.policy.policy = .ok way q ∧
      t.shape.slots ≤ t.slot (t.shape.setIndex a) way := by
  have hstride' : t.shape.stride < UInt64.size := ht.shape_eq ▸ hstride
  obtain ⟨f, t', hfault⟩ := hfault
  cases hl : t.wayOfLine (t.shape.line a) with
  | some way =>
    obtain ⟨q, htouch, -⟩ := ht.exists_touch hp a (lineAt_of_wayOfLine hl).1
    rw [run_insert_of_touch hstride' hl (Recorded.run_touch htouch)] at hfault
    cases hfault
  | none =>
    obtain ⟨way, q, hvictim⟩ := ht.exists_victim hp a
    refine ⟨rfl, way, q, hvictim, not_lt.1 fun hslot => ?_⟩
    obtain ⟨q', htouch, -⟩ := ht.exists_fill hp hvictim hslot
    rw [run_insert_of_victim hstride' hl (Recorded.run_victim hvictim) hslot
      (Recorded.run_touch htouch)] at hfault
    cases hfault

/-- The tag array serves every call. -/
theorem serves : Serves t := by
  have hstride' : t.shape.stride < UInt64.size := ht.shape_eq ▸ hstride
  have hiff : ∀ {a found}, (peek a).run t = .ok found t ↔ t.wayOfLine (t.shape.line a) = found :=
    run_peek_eq_ok_iff hstride'
  refine ⟨fun a => rfl, fun a => ⟨_, run_peek_eq hstride' a⟩, fun a h => ?_, fun a way h => ?_,
    fun a way h => ?_, fun a way q h hvictim hslot => ?_, fun a way q h hvictim hslot => ?_,
    fun a => ⟨fun h => ?_, ?_⟩⟩
  · exact run_lookup_of_none hstride' (hiff.1 h)
  · obtain ⟨q, htouch, -⟩ := ht.exists_touch hp a (lineAt_of_wayOfLine (hiff.1 h)).1
    exact ⟨q, htouch, run_lookup_of_touch hstride' (hiff.1 h) (Recorded.run_touch htouch)⟩
  · obtain ⟨q, htouch, -⟩ := ht.exists_touch hp a (lineAt_of_wayOfLine (hiff.1 h)).1
    exact ⟨_, q, htouch, run_insert_of_touch hstride' (hiff.1 h) (Recorded.run_touch htouch),
      filled_of_wayOfLine (hiff.1 h) _, rfl⟩
  · obtain ⟨q', htouch, -⟩ := ht.exists_fill hp hvictim hslot
    exact ⟨_, q', htouch, run_insert_of_victim hstride' (hiff.1 h) (Recorded.run_victim hvictim)
      hslot (Recorded.run_touch htouch), filled_place hslot _, rfl⟩
  · exact run_insert_of_slots_le hstride' (hiff.1 h) (Recorded.run_victim hvictim) hslot
  · rw [hiff]
    exact ht.slots_le_of_run_insert_error hp hstride h
  · rintro ⟨h, way, q, hvictim, hslot⟩
    exact ⟨_, _, run_insert_of_slots_le hstride' (hiff.1 h) (Recorded.run_victim hvictim) hslot⟩

/-- A lookup is answered, and touches the way of its address. -/
theorem exists_answered_lookup (a : Address) :
    ∃ e t', Answered t (.call (.lookup a)) e t' ∧ Consults shape p t' := by
  have hstride' : t.shape.stride < UInt64.size := ht.shape_eq ▸ hstride
  cases hl : t.wayOfLine (t.shape.line a) with
  | none =>
    exact ⟨_, t, answered_call hstride' hl (run_lookup_of_none hstride' hl)
      (run_lookup_of_none (t := t.unrecorded) hstride' hl) (List.append_nil _).symm, ht⟩
  | some way =>
    obtain ⟨q, htouch, hq⟩ := ht.exists_touch hp a (lineAt_of_wayOfLine hl).1
    exact ⟨_, _, answered_call hstride' hl
      (run_lookup_of_touch hstride' hl (Recorded.run_touch htouch))
      (run_lookup_of_touch (t := t.unrecorded) hstride' hl htouch) Array.toList_push,
      ht.shape_eq, hq⟩

/-- An insertion is answered, and touches the way of its address, or the victim has no slot. -/
theorem answered_or_refused_insert (a : Address) :
    (∃ e t', Answered t (.call (.insert a)) e t' ∧ Consults shape p t') ∨
      ∃ f t', Refused t (.call (.insert a)) f t' := by
  have hstride' : t.shape.stride < UInt64.size := ht.shape_eq ▸ hstride
  cases hl : t.wayOfLine (t.shape.line a) with
  | some way =>
    obtain ⟨q, htouch, hq⟩ := ht.exists_touch hp a (lineAt_of_wayOfLine hl).1
    have hrun := run_insert_of_touch hstride' hl (Recorded.run_touch htouch)
    have hrun' := run_insert_of_touch (t := t.unrecorded) hstride' hl htouch
    exact .inl ⟨_, _, answered_call hstride' hl (run_perform_insert hrun)
      (run_perform_insert hrun') Array.toList_push, ht.shape_eq, hq⟩
  | none =>
    obtain ⟨way, q, hvictim⟩ := ht.exists_victim hp a
    rcases lt_or_ge (t.slot (t.shape.setIndex a) way) t.shape.slots with hslot | hslot
    · obtain ⟨q', htouch, hq'⟩ := ht.exists_fill hp hvictim hslot
      have hrun := run_insert_of_victim hstride' hl (Recorded.run_victim hvictim) hslot
        (Recorded.run_touch htouch)
      have hrun' := run_insert_of_victim (t := t.unrecorded) hstride' hl hvictim hslot htouch
      refine .inl ⟨_, _, answered_call hstride' hl (run_perform_insert hrun)
        (run_perform_insert hrun') ?_, ht.shape_eq, hq'⟩
      change ((t.policy.calls.push _).push _).toList = _
      rw [Array.toList_push, Array.toList_push, List.append_assoc]
      rfl
    · have hrun := run_insert_of_slots_le hstride' hl (Recorded.run_victim hvictim) hslot
      have hrun' := run_insert_of_slots_le (t := t.unrecorded) hstride' hl hvictim hslot
      exact .inr ⟨_, _, run_answer_insert_of_error hrun, run_answer_insert_of_error hrun',
        a, way, q, rfl, (run_peek_eq_ok_iff hstride').2 hl, hvictim, hslot, rfl, rfl⟩

/-- A request is answered, and the policy is told of it, unless it is an insertion whose victim has
    no slot. -/
theorem ensures_noted (r : Request) :
    (noted r).Ensures t (fun a t' => Answered t r a t' ∧ Consults shape p t') (Refused t r) := by
  have hstride' : t.shape.stride < UInt64.size := ht.shape_eq ▸ hstride
  suffices h : (∃ a t', Answered t r a t' ∧ Consults shape p t') ∨ ∃ f t', Refused t r f t' by
    rcases h with ⟨a, t', ha, ht'⟩ | ⟨f, t', hf⟩
    · rw [Action.Ensures, ha.run_noted]
      exact ⟨ha, ht'⟩
    · rw [Action.Ensures, hf.run_noted]
      exact hf
  rcases r with a | a | a | a
  · exact .inl ⟨(_, .set _), t, ⟨run_peek_eq hstride' a, rfl, rfl, (List.append_nil _).symm⟩, ht⟩
  · exact .inl ⟨_, t, answered_call hstride' rfl (run_peek_eq hstride' a)
      (run_peek_eq (t := t.unrecorded) hstride' a) (List.append_nil _).symm, ht⟩
  · exact .inl (ht.exists_answered_lookup hp hstride a)
  · exact ht.answered_or_refused_insert hp hstride a

end Consults

/-! ## Series of requests -/

section

variable {tags : TagArray (Recorded P)} {log : List (Request × Option Nat × Answer)}

omit [Replacement P] in
/-- The touches among the calls are the ways that were used. -/
theorem touches_eq_of_calls {c : Recorded P} (h : c.calls.toList = log.flatMap (callsFor shape)) :
    c.touches = log.filterMap (used shape) := by
  rw [Recorded.touches, h]
  clear h
  induction log with
  | nil => rfl
  | cons e log ih =>
    rw [List.flatMap_cons, List.filterMap_append, ih]
    obtain ⟨(a | a | a | a), (_ | found), (set | (_ | way))⟩ := e <;> rfl

/-- One more request adds its calls to those before. -/
theorem Conversed.concat {a : Option Nat × Answer} (h : Conversed tags log t)
    (hshape : t.shape = tags.shape) (ha : Answered t r a t') :
    Conversed tags (log ++ [(r, a)]) t' := by
  have hcalls : t'.policy.calls.toList = (log ++ [(r, a)]).flatMap (callsFor tags.shape) := by
    rw [ha.calls, h.calls, hshape, List.flatMap_append, List.flatMap_singleton]
  refine ⟨?_, ?_, hcalls, touches_eq_of_calls hcalls⟩
  · rw [List.map_append, List.map_append]
    exact Action.run_each_concat h.answers ha.answer
  · rw [List.map_append, List.map_append]
    exact Action.run_each_concat h.unrecorded ha.unrecorded

end

/-- The policy of a new tag array has heard of all requests, and will hear of every further one. -/
theorem ensures_each_noted (hstride : shape.stride < UInt64.size)
    (hp : NeverFails shape.sets shape.ways p) (rs : List Request) :
    (Action.each noted rs).Ensures (empty shape ⟨p, #[]⟩)
      (fun log t => log.map Prod.fst = rs ∧
        Conversed (empty shape ⟨p, #[]⟩) log t ∧ Consults shape p t)
      fun _ _ => True := by
  refine Action.Ensures.each ?_ ?_ rs
  · exact ⟨⟨rfl, rfl, rfl, rfl⟩, rfl, .refl⟩
  · rintro log t r ⟨hlog, ht⟩
    refine (ht.ensures_noted hp hstride r).mono ?_ fun _ _ _ => trivial
    exact fun a t' h => ⟨hlog.concat ht.shape_eq h.1, h.2⟩

/-- Whatever is asked of a new tag array, its policy hears of every use of a way and of nothing
    else, in the order of the requests, and is asked for a victim once by every insertion of an
    address that is not found. The requests come to an end unless a victim has no slot. -/
theorem policy_hears_every_use {g : Geometry} {tags : TagArray (Recorded P)}
    (hg : ofGeometry g ⟨p, #[]⟩ = .ok tags) (hstride : tags.shape.stride < UInt64.size)
    (hp : NeverFails tags.shape.sets tags.shape.ways p) (rs : List Request) :
    (Action.each noted rs).Ensures tags
      (fun log t => log.map Prod.fst = rs ∧ Conversed tags log t ∧ Serves t)
      (fun f t => ∃ before r after log u, rs = before ++ r :: after ∧
        (Action.each noted before).run tags = .ok log u ∧ Conversed tags log u ∧
        Refused u r f t) := by
  obtain ⟨shape, -, rfl⟩ := exists_shape_of_ofGeometry hg
  have hruns := ensures_each_noted hstride hp
  refine Action.ensures_iff.2 ⟨fun log t hrun => ?_, fun f t hrun => ?_⟩
  · obtain ⟨hlog, hconversed, ht⟩ := (hruns rs).of_ok hrun
    exact ⟨hlog, hconversed, ht.serves hp hstride⟩
  · obtain ⟨before, r, after, log, u, hrs, hbefore, hr⟩ := Action.run_each_eq_error_iff.1 hrun
    obtain ⟨-, hconversed, hu⟩ := (hruns before).of_ok hbefore
    exact ⟨before, r, after, log, u, hrs, hbefore, hconversed,
      (hu.ensures_noted hp hstride r).of_error hr⟩

/-- A victim beyond its set is found in a later one, and a victim beyond the slots is a fault. -/
theorem policy_hears_every_use_scripted :
    let rs : List Request := [.call (.insert 0), .call (.insert 8), .call (.lookup 8),
      .call (.lookup 12), .setIndex 4, .call (.insert 4)]
    ∃ tags, ofGeometry ⟨4, 2, 4, 32⟩ (⟨⟨⟨[1, 3]⟩⟩, #[]⟩ : Recorded ScriptedPolicy) = .ok tags ∧
      tags.shape.stride < UInt64.size ∧
      NeverFails tags.shape.sets tags.shape.ways (⟨⟨[1, 3]⟩⟩ : ScriptedPolicy) ∧
      (Action.each noted rs).Ensures tags
        (fun log t => log.map Prod.fst = rs ∧ Conversed tags log t ∧ Serves t)
        (fun f t => ∃ before r after log u, rs = before ++ r :: after ∧
          (Action.each noted before).run tags = .ok log u ∧ Conversed tags log u ∧
          Refused u r f t) := by
  intro rs
  have hp : NeverFails 2 2 (⟨⟨[1, 3]⟩⟩ : ScriptedPolicy) := ScriptedPolicy.neverFails (by decide)
  exact ⟨_, ofGeometry_twoByTwo _, by decide, hp,
    policy_hears_every_use (ofGeometry_twoByTwo _) (by decide) hp rs⟩

-- The way 3 of the set 0 is the way 1 of the set 1, where another address is found by it.
example : ∃ t, (Action.each noted [.call (.insert 0), .call (.insert 8), .call (.lookup 8),
      .call (.lookup 12), .setIndex 4, .call (.insert 4)]).run
        (empty .twoByTwo (⟨⟨⟨[1, 3]⟩⟩, #[]⟩ : Recorded ScriptedPolicy)) =
      .error (.slotOutOfRange 5) t ∧ t.policy.touches = [(0, 1), (0, 3), (1, 1)] :=
  ⟨_, rfl, rfl⟩

end TagArray

end BranchPrediction
