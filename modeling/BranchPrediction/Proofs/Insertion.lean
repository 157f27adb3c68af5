import BranchPrediction.Proofs.Lines
import BranchPrediction.Proofs.Lru

/-!
# Insertion

What the calls of a tag array do to its lines, while its policy stays in range.

* To peek changes nothing, and a lookup changes nothing but the policy
  (`run_peek_eq`, `ensures_lookup`).
* To insert an address puts its line into the way it has, or else into the way
  that the policy gives up (`Inserted`, `ensures_insert`).

Each line is thus held once at most, after any calls, and every way that is
answered is one of a set (`ensures_perform`). Nothing is reached that is not there
(`InBounds`). An insertion is exact: the address is found afterwards in the way that
was answered, the line that held this way is found no longer, and every other line
is found where it was (`lines_stay_in_place`).
-/

namespace BranchPrediction

namespace AddressStore

variable {S : Type} [AddressStore S]

/-- Calls a store. The answer is the way of the address, if it has one. -/
def perform : Call → Action S (Option Nat)
  | .peek a => peek a
  | .lookup a => lookup a
  | .insert a => some <$> insert a

end AddressStore

namespace TagArray

variable {P : Type} {t t' : TagArray P} {a : Address} {set way l : Nat}

/-- The line `l` was put into `way`, which it had or which was given up for it;
    apart from that only the policy has moved on. -/
structure Inserted (t : TagArray P) (l way : Nat) (t' : TagArray P) : Prop where
  way_lt : way < t.shape.ways
  way_eq : ∀ way', t.wayOfLine l = some way' → way' = way
  eq_place : t' = (t.place l way).withPolicy t'.policy

namespace Inserted

variable (h : Inserted t l way t')
include h

theorem shape_eq : t'.shape = t.shape := by
  rw [h.eq_place]
  rfl

/-- A line that is inserted is still held once. -/
theorem distinct (ht : t.Distinct) : t'.Distinct := by
  rw [h.eq_place]
  exact ht.place h.way_lt h.way_eq

/-- The line that is inserted has the way, the line that had it has none, and all
    other lines have the ways they had. -/
theorem wayOfLine_eq (ht : t.Distinct) (m : Nat) :
    t'.wayOfLine m =
      if m = l then some way
      else if m % t.shape.sets = l % t.shape.sets ∧ t.wayOfLine m = some way then none
      else t.wayOfLine m := by
  rw [h.eq_place, wayOfLine_withPolicy, wayOfLine_place ht h.way_lt h.way_eq]

/-- A way of a set holds what it held, unless the line is put there. -/
theorem lineAt_eq {way' : Nat} (hway' : way' < t.shape.ways) :
    t'.lineAt set way' =
      if set = l % t.shape.sets ∧ way' = way then some l else t.lineAt set way' := by
  rw [h.eq_place, lineAt_withPolicy, lineAt_place h.way_lt hway']

/-- Only the slot of the way is written. -/
theorem getElem?_slots {i : Nat} (hi : i ≠ t.slot (l % t.shape.sets) way) :
    t'.slots[i]? = t.slots[i]? := by
  rw [h.eq_place]
  change (t.slots.setIfInBounds _ _)[i]? = _
  rw [Vector.getElem?_setIfInBounds, if_neg hi.symm]

/-- A line that is held already is not moved. -/
theorem eq_withPolicy (hl : t.wayOfLine l = some way) : t' = t.withPolicy t'.policy := by
  have heq := h.eq_place
  rw [place_of_wayOfLine hl] at heq
  exact heq

end Inserted

/-! ## Calls -/

/-- To peek is to search for the line of the address. -/
theorem run_peek_eq (h : t.shape.stride < UInt64.size) (a : Address) :
    (peek a).run t = .ok (t.wayOfLine (t.shape.line a)) t := by
  rw [run_peek, find_eq h]

/-- What is seen of an insertion of `a` that answers `way`, from `t` to `t'`. -/
structure InsertedExactly (t : TagArray P) (a : Address) (way : Nat) (t' : TagArray P) : Prop where
  way_lt : way < t.shape.ways
  shape_eq : t'.shape = t.shape
  /-- The address is found in the way that was answered. -/
  found : (peek a).run t' = .ok (some way) t'
  /-- No slot is written but that of the way. -/
  slots_eq : ∀ i, i ≠ t.slot (t.shape.setIndex a) way → t'.slots[i]? = t.slots[i]?
  /-- An address that has a way keeps it, and no slot is written at all. -/
  of_resident : ∀ way', (peek a).run t = .ok (some way') t →
    way = way' ∧ t' = t.withPolicy t'.policy
  /-- An address of another line is found where it was, unless it was in the way
      that was given up. -/
  peek_other : ∀ b, t.shape.line b ≠ t.shape.line a → ∃ r, (peek b).run t = .ok r t ∧
    (peek b).run t' =
      .ok (if t.shape.setIndex b = t.shape.setIndex a ∧ r = some way then none else r) t'

/-- To put a line into a way has this exact effect. -/
theorem Inserted.exactly (h : Inserted t (t.shape.line a) way t') (ht : t.Distinct)
    (hstride : t.shape.stride < UInt64.size) : InsertedExactly t a way t' where
  way_lt := h.way_lt
  shape_eq := h.shape_eq
  found := by
    rw [run_peek_eq (h.shape_eq.symm ▸ hstride), h.shape_eq, h.wayOfLine_eq ht, if_pos rfl]
  slots_eq _ hi := h.getElem?_slots hi
  of_resident way' hr := by
    rw [run_peek_eq hstride] at hr
    injection hr with hr
    have hway := h.way_eq way' hr
    subst hway
    exact ⟨rfl, h.eq_withPolicy hr⟩
  peek_other b hb := by
    refine ⟨_, run_peek_eq hstride b, ?_⟩
    rw [run_peek_eq (h.shape_eq.symm ▸ hstride), h.shape_eq, h.wayOfLine_eq ht, if_neg hb]
    rfl

/-- The tag array of four tags in two ways has two sets. -/
theorem ofGeometry_twoByTwo (p : P) : ofGeometry ⟨4, 2, 4, 32⟩ p = .ok (empty .twoByTwo p) := rfl

/-- An accepted geometry gives a new tag array of its shape. -/
theorem exists_shape_of_ofGeometry {g : Geometry} {p : P} (h : ofGeometry g p = .ok t) :
    ∃ shape, g.shape = .ok shape ∧ t = empty shape p :=
  Geometry.exists_of_map_shape h

/-- The tag array of a geometry is a new one. -/
theorem eq_empty_of_ofGeometry {g : Geometry} {p : P} (h : ofGeometry g p = .ok t) :
    t = empty t.shape p := by
  obtain ⟨shape, -, rfl⟩ := exists_shape_of_ofGeometry h
  rfl

/-- A line is written into a way if the way has a slot. -/
theorem run_write_line :
    (write (l % t.shape.sets) way (l / t.shape.sets)).run t =
      if t.slot (l % t.shape.sets) way < t.shape.slots then .ok () (t.place l way)
      else .error (.slotOutOfRange (t.slot (l % t.shape.sets) way)) t := by
  split
  next h =>
    have hset : t.slots.set (t.slot (l % t.shape.sets) way) (some (l / t.shape.sets)) h =
        t.slots.setIfInBounds (t.slot (l % t.shape.sets) way) (some (l / t.shape.sets)) := by
      ext i hi : 1
      rw [Vector.getElem_set, Vector.getElem_setIfInBounds]
    rw [place, ← hset]
    exact dif_pos h
  next h => exact dif_neg h

/-- The policy is left as its action leaves it. -/
theorem run_onPolicy_of_ok {α : Type} {x : Action P α} {b : α} {q : P}
    (h : x.run t.policy = .ok b q) : (onPolicy x).run t = .ok b (t.withPolicy q) :=
  Action.within_of_ok h _

/-- What an action of the policy ensures for the tag array. -/
theorem ensures_onPolicy {α : Type} {x : Action P α} {Q : α → TagArray P → Prop}
    {E : Fault → TagArray P → Prop} :
    (onPolicy x).Ensures t Q E ↔
      x.Ensures t.policy (fun a p => Q a (t.withPolicy p)) fun f p => E f (t.withPolicy p) :=
  Action.ensures_within x policy withPolicy

variable [Replacement P]

/-- A lookup of an address without a way changes nothing. -/
theorem run_lookup_of_none (h : t.shape.stride < UInt64.size)
    (hl : t.wayOfLine (t.shape.line a) = none) : (lookup a).run t = .ok none t := by
  simp only [lookup, EStateM.run_bind, EStateM.run_get, run_peek_eq h, hl]
  rfl

/-- A lookup of an address that has a way touches the way. -/
theorem run_lookup_of_some (h : t.shape.stride < UInt64.size)
    (hl : t.wayOfLine (t.shape.line a) = some way) :
    (lookup a).run t =
      (do onPolicy (Replacement.touch (t.shape.setIndex a) way); return some way).run t := by
  simp only [lookup, EStateM.run_bind, EStateM.run_get, run_peek_eq h, hl]

/-- An address that has a way is inserted by touching the way. -/
theorem run_insert_of_some (h : t.shape.stride < UInt64.size)
    (hl : t.wayOfLine (t.shape.line a) = some way) :
    (insert a).run t =
      (do onPolicy (Replacement.touch (t.shape.setIndex a) way); return way).run t := by
  -- The slot of the way holds the tag already, and is written once more.
  have hslot := slot_lt (t.shape.mod_sets_lt (t.shape.line a)) (lineAt_of_wayOfLine hl).1
  have hwrite : (write (t.shape.setIndex a) way (t.shape.line a / t.shape.sets)).run t =
      .ok () t := by
    rw [Shape.setIndex, run_write_line, if_pos hslot, place_of_wayOfLine hl]
  simp only [insert, EStateM.run_bind, EStateM.run_get, run_peek_eq h, hl, EStateM.run_pure,
    t.shape.tag_eq h, Action.run_ofExcept_ok, hwrite]

/-- Any other address is inserted into the way that the policy gives up. -/
theorem run_insert_of_none (h : t.shape.stride < UInt64.size)
    (hl : t.wayOfLine (t.shape.line a) = none) :
    (insert a).run t =
      (do
        let way ← onPolicy (Replacement.victim (t.shape.setIndex a))
        write (t.shape.setIndex a) way (t.shape.line a / t.shape.sets)
        onPolicy (Replacement.touch (t.shape.setIndex a) way)
        return way).run t := by
  simp only [insert, EStateM.run_bind, EStateM.run_get, run_peek_eq h, hl, t.shape.tag_eq h,
    Action.run_ofExcept_ok]

section

variable {q q' : P} (hstride : t.shape.stride < UInt64.size)
include hstride

/-- The way of an address that is looked up is touched. -/
theorem run_lookup_of_touch (hl : t.wayOfLine (t.shape.line a) = some way)
    (h : (Replacement.touch (t.shape.setIndex a) way).run t.policy = .ok () q) :
    (lookup a).run t = .ok (some way) (t.withPolicy q) := by
  rw [run_lookup_of_some hstride hl]
  simp only [EStateM.run_bind, run_onPolicy_of_ok h, EStateM.run_pure]

/-- The way of an address that is inserted again is touched. -/
theorem run_insert_of_touch (hl : t.wayOfLine (t.shape.line a) = some way)
    (h : (Replacement.touch (t.shape.setIndex a) way).run t.policy = .ok () q) :
    (insert a).run t = .ok way (t.withPolicy q) := by
  rw [run_insert_of_some hstride hl]
  simp only [EStateM.run_bind, run_onPolicy_of_ok h, EStateM.run_pure]

variable (hl : t.wayOfLine (t.shape.line a) = none)
  (hvictim : (Replacement.victim (t.shape.setIndex a)).run t.policy = .ok way q)
include hl hvictim

/-- The line of an address that is not found is put into the way of the victim, if it has a slot,
    and only then is the way touched. -/
theorem run_insert_of_victim (hslot : t.slot (t.shape.setIndex a) way < t.shape.slots)
    (htouch : (Replacement.touch (t.shape.setIndex a) way).run q = .ok () q') :
    (insert a).run t = .ok way ((t.place (t.shape.line a) way).withPolicy q') := by
  have hwrite : (write (t.shape.setIndex a) way (t.shape.line a / t.shape.sets)).run
      (t.withPolicy q) = .ok () ((t.withPolicy q).place (t.shape.line a) way) :=
    (run_write_line (t := t.withPolicy q)).trans (if_pos hslot)
  have htold : (onPolicy (Replacement.touch (t.shape.setIndex a) way)).run
      ((t.withPolicy q).place (t.shape.line a) way) =
        .ok () ((t.place (t.shape.line a) way).withPolicy q') :=
    run_onPolicy_of_ok htouch
  rw [run_insert_of_none hstride hl]
  simp only [EStateM.run_bind, run_onPolicy_of_ok hvictim, hwrite, htold, EStateM.run_pure]

/-- A victim without a slot is a fault, and the policy is told nothing of it. -/
theorem run_insert_of_slots_le (hslot : t.shape.slots ≤ t.slot (t.shape.setIndex a) way) :
    (insert a).run t =
      .error (.slotOutOfRange (t.slot (t.shape.setIndex a) way)) (t.withPolicy q) := by
  have hwrite : (write (t.shape.setIndex a) way (t.shape.line a / t.shape.sets)).run
      (t.withPolicy q) =
        .error (.slotOutOfRange (t.slot (t.shape.setIndex a) way)) (t.withPolicy q) :=
    (run_write_line (t := t.withPolicy q)).trans (if_neg hslot.not_gt)
  rw [run_insert_of_none hstride hl]
  simp only [EStateM.run_bind, run_onPolicy_of_ok hvictim, hwrite]

end

/-- A tag array of the given shape that holds each line once, and whose policy
    has come from `p` to its present state. -/
structure InOrder (shape : Shape) (p : P) (t : TagArray P) : Prop where
  shape_eq : t.shape = shape
  distinct : t.Distinct
  reachable : Replacement.Reachable shape.sets shape.ways p t.policy

/-- A new tag array is in order. -/
theorem inOrder_empty (shape : Shape) (p : P) : InOrder shape p (empty shape p) :=
  ⟨rfl, distinct_empty shape p, .refl⟩

/-- A call has done nothing to the lines: only the policy has moved on. -/
theorem InOrder.of_withPolicy {shape : Shape} {p : P} (ht : InOrder shape p t)
    (heq : t' = t.withPolicy t'.policy)
    (hreach : Replacement.Reachable shape.sets shape.ways p t'.policy) : InOrder shape p t' := by
  refine ⟨?_, ?_, hreach⟩
  · rw [heq]
    exact ht.shape_eq
  · rw [heq]
    exact ht.distinct

section

variable {shape : Shape} {p : P} (hstride : shape.stride < UInt64.size) (ht : InOrder shape p t)
include ht

/-- A touch moves the policy, and nothing else. -/
theorem InOrder.ensures_touch (hset : set < shape.sets) (hway : way < shape.ways) :
    (onPolicy (Replacement.touch set way)).Ensures t
      (fun _ t' => t' = t.withPolicy t'.policy ∧ InOrder shape p t')
      (fun f t' => t' = t.withPolicy t'.policy ∧
        Replacement.TouchFault shape.sets shape.ways p f t'.policy) :=
  ensures_onPolicy.2 ((ht.reachable.ensures_touch hset hway).mono
    (fun _ _ hq => ⟨rfl, ht.of_withPolicy rfl hq⟩) fun _ _ hf => ⟨rfl, hf⟩)

include hstride

/-- A lookup answers the way of the line and moves the policy, and nothing else. -/
theorem InOrder.ensures_lookup (a : Address) :
    (lookup a).Ensures t
      (fun r t' => r = t.wayOfLine (shape.line a) ∧ t' = t.withPolicy t'.policy ∧
        InOrder shape p t')
      (fun f t' => t' = t.withPolicy t'.policy ∧
        Replacement.TouchFault shape.sets shape.ways p f t'.policy) := by
  obtain rfl := ht.shape_eq
  rcases hl : t.wayOfLine (t.shape.line a) with _ | way
  · rw [Action.Ensures, run_lookup_of_none hstride hl]
    exact ⟨rfl, rfl, ht⟩
  · refine (Action.ensures_congr (run_lookup_of_some hstride hl)).2 (Action.ensures_bind.2 ?_)
    refine (ht.ensures_touch (t.shape.setIndex_lt a) (lineAt_of_wayOfLine hl).1).mono ?_ ?_
    · exact fun _ t' ht' => Action.ensures_pure.2 ⟨rfl, ht'⟩
    · exact fun _ _ hf => hf

/-- An insertion puts the line of the address into a way, while the policy stays
    in range. -/
theorem InOrder.ensures_insert (hp : Replacement.InRange shape.sets shape.ways p) (a : Address) :
    (insert a).Ensures t (fun way t' => Inserted t (shape.line a) way t' ∧ InOrder shape p t')
      (fun f t' => Replacement.TouchFault shape.sets shape.ways p f t'.policy) := by
  obtain rfl := ht.shape_eq
  cases hl : t.wayOfLine (t.shape.line a) with
  | some way =>
    have hway := (lineAt_of_wayOfLine hl).1
    refine (Action.ensures_congr (run_insert_of_some hstride hl)).2 (Action.ensures_bind.2 ?_)
    refine (ht.ensures_touch (t.shape.setIndex_lt a) hway).mono ?_ fun _ _ hf => hf.2
    rintro _ t' ⟨heq, ht'⟩
    refine Action.ensures_pure.2 ⟨⟨hway, fun way' h => ?_, ?_⟩, ht'⟩
    · exact (Option.some.inj (hl.symm.trans h)).symm
    · rw [place_of_wayOfLine hl]
      exact heq
  | none =>
    refine (Action.ensures_congr (run_insert_of_none hstride hl)).2 (Action.ensures_bind.2 ?_)
    refine ensures_onPolicy.2 ((hp.victim ht.reachable (t.shape.setIndex_lt a)).mono ?_
      fun _ _ hf => False.elim hf)
    rintro way q ⟨hway, hq⟩
    -- The line goes into the way that was given up, which has a slot.
    have hwrite : (write (t.shape.setIndex a) way (t.shape.line a / t.shape.sets)).run
        (t.withPolicy q) = .ok () ((t.withPolicy q).place (t.shape.line a) way) :=
      (run_write_line (t := t.withPolicy q)).trans (if_pos (slot_lt (t.shape.mod_sets_lt _) hway))
    have hvictim : ∀ way', t.wayOfLine (t.shape.line a) = some way' → way' = way := fun way' h => by
      rw [hl] at h
      cases h
    have hplaced : InOrder t.shape p ((t.withPolicy q).place (t.shape.line a) way) :=
      ⟨rfl, Distinct.place (t := t.withPolicy q) ht.distinct hway hvictim, hq⟩
    refine Action.ensures_bind.2 ?_
    rw [Action.Ensures, hwrite]
    refine Action.ensures_bind.2 ?_
    refine (hplaced.ensures_touch (t.shape.setIndex_lt a) hway).mono ?_ fun _ _ hf => hf.2
    rintro _ t' ⟨heq, ht'⟩
    exact Action.ensures_pure.2 ⟨⟨hway, hvictim, heq⟩, ht'⟩

/-- Every call answers a way of a set, if any, and keeps the tag array in order. -/
theorem InOrder.ensures_perform (hp : Replacement.InRange shape.sets shape.ways p)
    (c : AddressStore.Call) :
    (AddressStore.perform c).Ensures t
      (fun r t' => (∀ way ∈ r, way < shape.ways) ∧ InOrder shape p t')
      (fun f t' => Replacement.TouchFault shape.sets shape.ways p f t'.policy) := by
  cases c with
  | peek a =>
    obtain rfl := ht.shape_eq
    change (peek a).Ensures t _ _
    rw [Action.Ensures, run_peek_eq hstride]
    exact ⟨fun way hway => (lineAt_of_wayOfLine hway).1, ht⟩
  | lookup a =>
    refine (ht.ensures_lookup hstride a).mono ?_ fun _ _ hf => hf.2
    obtain rfl := ht.shape_eq
    rintro r t' ⟨rfl, -, ht'⟩
    exact ⟨fun way hway => (lineAt_of_wayOfLine hway).1, ht'⟩
  | insert a =>
    refine Action.ensures_map.2 ((ht.ensures_insert hstride hp a).mono ?_ fun _ _ hf => hf)
    rintro way t' ⟨hinserted, ht'⟩
    obtain rfl := ht.shape_eq
    refine ⟨fun way' hway' => ?_, ht'⟩
    cases hway'
    exact hinserted.way_lt

end

/-- A tag array stays in order whatever calls are made. -/
theorem ensures_each_perform {shape : Shape} {p : P} (hstride : shape.stride < UInt64.size)
    (hp : Replacement.InRange shape.sets shape.ways p) (calls : List AddressStore.Call) :
    (Action.each AddressStore.perform calls).Ensures (empty shape p)
      (fun _ t => InOrder shape p t)
      (fun f t => Replacement.TouchFault shape.sets shape.ways p f t.policy) :=
  (Action.Ensures.each (inOrder_empty shape p)
    (fun _ _ c ht => (ht.ensures_perform hstride hp c).mono (fun _ _ h => h.2) fun _ _ hf => hf)
    calls).mono (fun _ _ h => h.2) fun _ _ hf => hf

/-! ## Bounds -/

/-- A tag array of so many sets and ways, from which nothing can be reached that is not
    there. -/
structure InBounds (sets ways : Nat) (t : TagArray P) : Prop where
  /-- Nothing is divided by zero. -/
  lineSize_pos : 0 < t.shape.lineSize
  sets_pos : 0 < t.shape.sets
  setIndex_lt : ∀ a, AddressStore.setIndex t a < sets
  /-- The ways of all sets are slots. -/
  size_eq : t.slots.toArray.size = sets * ways
  row_le : ∀ set < sets, set * ways + ways ≤ t.slots.toArray.size
  /-- Only ways of a set are given up. -/
  victim_lt : ∀ set < sets, (Replacement.victim set).Ensures t.policy
    (fun way _ => way < ways) fun _ _ => False

/-- A tag array in order keeps within its bounds, while its policy stays in range. -/
theorem InOrder.inBounds {shape : Shape} {p : P} (ht : InOrder shape p t)
    (hp : Replacement.InRange shape.sets shape.ways p) : InBounds shape.sets shape.ways t := by
  obtain rfl := ht.shape_eq
  exact {
    lineSize_pos := t.shape.lineSize_pos
    sets_pos := t.shape.sets_pos
    setIndex_lt := t.shape.setIndex_lt
    size_eq := t.slots.size_toArray
    row_le := fun set hset => (row_le hset).trans_eq t.slots.size_toArray.symm
    victim_lt := hp _ ht.reachable }

/-! ## Exact calls -/

/-- What is seen of the calls of a tag array `t` of the given shape, whose policy
    has come from `p` to its present state. -/
structure CallsExact (shape : Shape) (p : P) (t : TagArray P) : Prop where
  shape_eq : t.shape = shape
  /-- No set holds a tag twice. -/
  tag_inj : ∀ set < shape.sets, ∀ way < shape.ways, ∀ way' < shape.ways, ∀ tag,
    t.tagAt set way = some tag → t.tagAt set way' = some tag → way = way'
  /-- To peek changes nothing. -/
  peek_exact : ∀ a, (peek a).Ensures t (fun _ t' => t' = t) fun _ _ => False
  /-- A lookup answers the same, and changes nothing but the policy. -/
  lookup_exact : ∀ a, (lookup a).Ensures t
    (fun r t' => (peek a).run t = .ok r t ∧ t' = t.withPolicy t'.policy)
    (fun f t' => t' = t.withPolicy t'.policy ∧
      Replacement.TouchFault shape.sets shape.ways p f t'.policy)
  /-- An insertion puts the address into a way. -/
  insert_exact : ∀ a, (insert a).Ensures t (InsertedExactly t a)
    fun f t' => Replacement.TouchFault shape.sets shape.ways p f t'.policy

/-- A tag array in order answers every call exactly, while its policy stays in range. -/
theorem InOrder.callsExact {shape : Shape} {p : P} (ht : InOrder shape p t)
    (hstride : shape.stride < UInt64.size) (hp : Replacement.InRange shape.sets shape.ways p) :
    CallsExact shape p t := by
  obtain rfl := ht.shape_eq
  refine ⟨rfl, ?_, fun a => ?_, fun a => ?_, fun a => ?_⟩
  · exact fun _ _ _ hway _ hway' _ h h' => ht.distinct.tag_inj hway hway' h h'
  · rw [Action.Ensures, run_peek_eq hstride]
  · refine (ht.ensures_lookup hstride a).mono (fun r t' h => ⟨?_, h.2.1⟩) fun _ _ hf => hf
    rw [run_peek_eq hstride, h.1]
  · exact (ht.ensures_insert hstride hp a).mono (fun way t' h => h.1.exactly ht.distinct hstride)
      fun _ _ hf => hf

/-- After any calls of a new tag array whose policy stays in range, no set holds a
    tag twice, and every further call is exact: an insertion puts the address into
    a way and takes the way from the line that had it, and apart from that no line
    changes its way. Only a touch of the policy can fail. -/
theorem lines_stay_in_place {g : Geometry} {p : P} {tags : TagArray P}
    (hg : ofGeometry g p = .ok tags) (hstride : tags.shape.stride < UInt64.size)
    (hp : Replacement.InRange tags.shape.sets tags.shape.ways p) (calls : List AddressStore.Call) :
    (Action.each AddressStore.perform calls).Ensures tags
      (fun _ t => CallsExact tags.shape p t)
      (fun f t => Replacement.TouchFault tags.shape.sets tags.shape.ways p f t.policy) := by
  have hrun := ensures_each_perform hstride hp calls
  rw [← eq_empty_of_ofGeometry hg] at hrun
  exact hrun.mono (fun _ t ht => ht.callsExact hstride hp) fun _ _ hf => hf

/-- Three lines compete for the two ways of a set. -/
theorem lines_stay_in_place_lru :
    ∃ tags, ofGeometry ⟨4, 2, 4, 32⟩ (Lru.new 2 2) = .ok tags ∧
      tags.shape.stride < UInt64.size ∧
      Replacement.InRange tags.shape.sets tags.shape.ways (Lru.new 2 2) ∧
      (Action.each AddressStore.perform [.insert 0, .insert 8, .lookup 0, .insert 16]).Ensures tags
        (fun _ t => CallsExact tags.shape (Lru.new 2 2) t)
        (fun f t => Replacement.TouchFault tags.shape.sets tags.shape.ways (Lru.new 2 2) f
          t.policy) := by
  have hp : Replacement.InRange 2 2 (Lru.new 2 2) := Lru.inRange_new 2 (by decide)
  exact ⟨_, ofGeometry_twoByTwo _, by decide, hp,
    lines_stay_in_place (ofGeometry_twoByTwo _) (by decide) hp _⟩

end TagArray

end BranchPrediction
