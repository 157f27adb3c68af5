import BranchPrediction.Proofs.Lru
import BranchPrediction.Proofs.Recency

/-!
# Usage order

A usage stack is a record of the touches of its set: the ways that were touched are on
top, the later ones above the earlier ones, and the ways that were not lie below them, by
their numbers (`InUsageOrder`). A touch of a way keeps this, since it takes the way out from
among the others and puts it on top (`InUsageOrder.touch`). Touches of other sets, and of ways
that a set does not have, do not count (`InUsageOrder.skip`).

So the way at the bottom is the highest one that was never touched, or else the one whose
last touch is the oldest (`InUsageOrder.givesUp_bottom`).
-/

namespace BranchPrediction.Lru

variable {sets ways : Nat} {touches : List (Fin sets × Nat)} {set : Fin sets}
  {used unused stack : List Nat} {p : Lru}

/-- The ways `used` were touched in the set, and those touched later come first; the ways
    `unused` were not, and lower ones come first. -/
structure UsedFirst (touches : List (Fin sets × Nat)) (set : Fin sets) (used unused : List Nat) :
    Prop where
  touched : ∀ way ∈ used, (set, way) ∈ touches
  later_first : used.Pairwise fun way way' => LaterThan touches (set, way) (set, way')
  untouched : ∀ way ∈ unused, (set, way) ∉ touches
  lower_first : unused.Pairwise (· < ·)

/-- The stack of a set has each way once, in the order of their last touches. -/
structure InUsageOrder (ways : Nat) (touches : List (Fin sets × Nat)) (set : Fin sets)
    (stack : List Nat) : Prop where
  perm : stack.Perm (List.range ways)
  usedFirst : ∃ used unused, stack = used ++ unused ∧ UsedFirst touches set used unused

/-- The way is the one of the set to be given up after the touches. -/
structure GivesUp (ways : Nat) (touches : List (Fin sets × Nat)) (set : Fin sets) (way : Nat) :
    Prop where
  way_lt : way < ways
  /-- It is the highest of the ways that were never touched, if there are any. -/
  of_untouched : ∀ way' < ways, (set, way') ∉ touches → (set, way) ∉ touches ∧ way' ≤ way
  /-- Otherwise every other way was touched after it was. -/
  of_touched : (∀ way' < ways, (set, way') ∈ touches) →
    ∀ way' < ways, way' ≠ way → LaterThan touches (set, way') (set, way)

/-! ## Stacks -/

/-- A touch of a way puts it in front of all others. -/
theorem UsedFirst.touch (h : UsedFirst touches set used unused) (hnodup : (used ++ unused).Nodup)
    (way : Nat) :
    UsedFirst (touches ++ [(set, way)]) set (way :: used.erase way) (unused.erase way) := by
  obtain ⟨hused, hunused, -⟩ := List.nodup_append.1 hnodup
  refine ⟨fun way' hway' => ?_, ?_, fun way' hway' hmem => ?_, ?_⟩
  · rcases List.mem_cons.1 hway' with rfl | hway'
    · exact List.mem_append_right _ (List.mem_singleton_self _)
    · exact List.mem_append_left _ (h.touched way' (List.mem_of_mem_erase hway'))
  · exact pairwise_laterThan_cons_erase way (Prod.mk_right_injective set) hused h.touched
      h.later_first
  · obtain ⟨hne, hway'⟩ := hunused.mem_erase_iff.1 hway'
    rcases List.mem_append.1 hmem with hmem | hmem
    · exact h.untouched way' hway' hmem
    · exact hne (Prod.ext_iff.1 (List.mem_singleton.1 hmem)).2
  · exact h.lower_first.sublist List.erase_sublist

/-- A touch of something else leaves the order as it is. -/
theorem UsedFirst.skip {c : Fin sets × Nat} (h : UsedFirst touches set used unused)
    (hc : ∀ way ∈ used ++ unused, c ≠ (set, way)) :
    UsedFirst (touches ++ [c]) set used unused := by
  refine ⟨fun way hway => List.mem_append_left _ (h.touched way hway), ?_, fun way hway hmem => ?_,
    h.lower_first⟩
  · exact h.later_first.imp_of_mem fun hway hway' hlater =>
      hlater.concat (hc _ (List.mem_append_left _ hway)) (hc _ (List.mem_append_left _ hway'))
  · rcases List.mem_append.1 hmem with hmem | hmem
    · exact h.untouched way hway hmem
    · exact hc way (List.mem_append_right _ hway) (List.mem_singleton.1 hmem).symm

/-- Without any touch, the ways are listed by their numbers. -/
theorem inUsageOrder_range (ways : Nat) (set : Fin sets) :
    InUsageOrder ways [] set (List.range ways) where
  perm := .refl _
  usedFirst := ⟨[], List.range ways, rfl, fun _ h => absurd h List.not_mem_nil, .nil,
    fun _ _ => List.not_mem_nil, List.pairwise_lt_range⟩

section

variable (h : InUsageOrder ways touches set stack)
include h

/-- A touch of a way of the set promotes it. -/
theorem InUsageOrder.touch {way : Nat} (hway : way < ways) :
    InUsageOrder ways (touches ++ [(set, way)]) set (promote way stack) := by
  refine ⟨(perm_promote way stack).trans h.perm, ?_⟩
  obtain ⟨used, unused, rfl, hsplit⟩ := h.usedFirst
  have hnodup : (used ++ unused).Nodup := h.perm.nodup_iff.2 List.nodup_range
  have hmem : way ∈ used ++ unused := h.perm.mem_iff.2 (List.mem_range.2 hway)
  refine ⟨_, _, ?_, hsplit.touch hnodup way⟩
  rw [promote, if_pos hmem, List.cons_append]
  -- The way is taken from one of the two parts, and the other one does not have it.
  obtain ⟨-, -, hdisjoint⟩ := List.nodup_append.1 hnodup
  by_cases hused : way ∈ used
  · have hunused : way ∉ unused := fun hmem => hdisjoint way hused way hmem rfl
    rw [List.erase_append_left _ hused, List.erase_of_not_mem hunused]
  · rw [List.erase_append_right _ hused, List.erase_of_not_mem hused]

/-- A touch of something else leaves the order as it is. -/
theorem InUsageOrder.skip {c : Fin sets × Nat} (hc : ∀ way < ways, c ≠ (set, way)) :
    InUsageOrder ways (touches ++ [c]) set stack := by
  obtain ⟨used, unused, rfl, hsplit⟩ := h.usedFirst
  refine ⟨h.perm, used, unused, rfl, hsplit.skip fun way hway => hc way ?_⟩
  exact List.mem_range.1 (h.perm.mem_iff.1 hway)

end

/-- If all ways were touched, the last one in the stack was before all others. -/
theorem UsedFirst.givesUp_used (hways : 0 < ways) (hperm : used.Perm (List.range ways))
    (h : UsedFirst touches set used []) : GivesUp ways touches set (bottom used) := by
  have hmem : ∀ way < ways, way ∈ used := fun way hway => hperm.mem_iff.2 (List.mem_range.2 hway)
  refine ⟨bottom_lt hways hperm, ?_, ?_⟩
  · intro way hway hnot
    exact absurd (h.touched way (hmem way hway)) hnot
  · intro _ way hway hne
    exact rel_bottom hways hperm h.later_first (hmem way hway) hne

/-- Otherwise, the last one in the stack is the highest of those that were not. -/
theorem UsedFirst.givesUp_unused {lower : List Nat} {highest : Nat}
    (hperm : (used ++ (lower ++ [highest])).Perm (List.range ways))
    (h : UsedFirst touches set used (lower ++ [highest])) : GivesUp ways touches set highest := by
  have hlast : highest ∈ lower ++ [highest] :=
    List.mem_append_right _ (List.mem_singleton_self _)
  have hlt : highest < ways :=
    List.mem_range.1 (hperm.mem_iff.1 (List.mem_append_right _ hlast))
  have hnot : (set, highest) ∉ touches := h.untouched highest hlast
  refine ⟨hlt, fun way hway huntouched => ⟨hnot, ?_⟩, fun hall => absurd (hall _ hlt) hnot⟩
  have hmem : way ∈ used ++ (lower ++ [highest]) := hperm.mem_iff.2 (List.mem_range.2 hway)
  rcases List.mem_append.1 hmem with hused | hunused
  · exact absurd (h.touched way hused) huntouched
  rcases List.mem_append.1 hunused with hlower | hhighest
  · have hle := (List.pairwise_append.1 h.lower_first).2.2 way hlower highest
      (List.mem_singleton_self _)
    exact hle.le
  · exact (List.mem_singleton.1 hhighest).le

/-- The way to be given up is at the bottom. -/
theorem InUsageOrder.givesUp_bottom (h : InUsageOrder ways touches set stack) (hways : 0 < ways) :
    GivesUp ways touches set (bottom stack) := by
  obtain ⟨used, unused, rfl, hsplit⟩ := h.usedFirst
  have hperm := h.perm
  rcases List.eq_nil_or_concat' unused with rfl | ⟨lower, highest, rfl⟩
  · rw [List.append_nil] at hperm ⊢
    exact hsplit.givesUp_used hways hperm
  · rw [← List.append_assoc, bottom_concat]
    exact hsplit.givesUp_unused hperm

/-! ## Runs -/

/-- There is a stack for every set, in the order of the touches so far. -/
structure OrderedByUse (ways : Nat) (touches : List (Fin sets × Nat)) (p : Lru) : Prop where
  size_eq : p.usage.size = sets
  exists_stack : ∀ set : Fin sets, ∃ stack, p.usage[set.val]? = some stack ∧
    InUsageOrder ways touches set stack

/-- The new stacks have had no touch. -/
theorem orderedByUse_new (sets ways : Nat) :
    OrderedByUse ways ([] : List (Fin sets × Nat)) (new sets ways) := by
  refine ⟨Array.size_replicate, fun set => ⟨List.range ways, ?_, inUsageOrder_range ways set⟩⟩
  rw [new, Array.getElem?_replicate, if_pos set.isLt]

section

variable (hp : OrderedByUse ways touches p) (set : Fin sets) (way : Nat)
include hp

/-- A way that a set does not have is not found in its stack. -/
theorem OrderedByUse.modify_of_le (hway : ways ≤ way) :
    p.usage.modify set (promote way) = p.usage := by
  obtain ⟨stack, hstack, h⟩ := hp.exists_stack set
  have hnot : way ∉ stack := fun hmem =>
    Nat.not_lt.2 hway (List.mem_range.1 (h.perm.mem_iff.1 hmem))
  refine Array.ext_getElem? fun i => ?_
  rw [Array.getElem?_modify]
  split
  next hi =>
    rw [← hi, hstack, Option.map_some, promote, if_neg hnot]
  next => rfl

/-- A touch keeps the stacks in order. -/
theorem OrderedByUse.touch :
    OrderedByUse ways (touches ++ [(set, way)]) ⟨p.usage.modify set (promote way)⟩ := by
  refine ⟨Array.size_modify.trans hp.size_eq, fun set' => ?_⟩
  obtain ⟨stack, hstack, h⟩ := hp.exists_stack set'
  rcases Nat.lt_or_ge way ways with hway | hway
  · by_cases heq : set = set'
    · subst heq
      exact ⟨_, by rw [Array.getElem?_modify, if_pos rfl, hstack, Option.map_some], h.touch hway⟩
    · refine ⟨stack, ?_, h.skip fun _ _ hc => heq (Prod.ext_iff.1 hc).1⟩
      rw [Array.getElem?_modify, if_neg fun h => heq (Fin.ext h), hstack]
  · refine ⟨stack, by rw [hp.modify_of_le set way hway, hstack], h.skip fun way' hway' hc => ?_⟩
    have heq : way = way' := (Prod.ext_iff.1 hc).2
    omega

/-- A touch promotes the way in the stack of its set. -/
theorem OrderedByUse.run_touch_eq :
    (Replacement.touch set.val way).run p = .ok () ⟨p.usage.modify set (promote way)⟩ :=
  run_touch (hp.size_eq.symm ▸ set.isLt)

/-- A touch is carried out, and does not show in other sets, nor at all if it is of a way that
    the set does not have. -/
theorem OrderedByUse.exists_run_touch :
    ∃ q, (Replacement.touch set way).run p = .ok () q ∧
      (∀ set', set' ≠ set.val → q.usage[set']? = p.usage[set']?) ∧ (ways ≤ way → q = p) := by
  refine ⟨_, hp.run_touch_eq set way, fun set' hne => ?_, fun hway => ?_⟩
  · rw [Array.getElem?_modify, if_neg hne.symm]
  · rw [hp.modify_of_le set way hway]

/-- The way to be given up is named. -/
theorem OrderedByUse.exists_run_victim (hways : 0 < ways) :
    ∃ way, (Replacement.victim set).run p = .ok way p ∧ GivesUp ways touches set way := by
  obtain ⟨stack, hstack, h⟩ := hp.exists_stack set
  exact ⟨_, run_victim hstack, h.givesUp_bottom hways⟩

end

/-- After any touches of the sets that there are, the usage stack of each of them has every
    way once, those touched in the set first, by decreasing time of their last touch, and then
    those not touched, by increasing number. No touch fails. Touches of other sets, or of ways
    beyond the last, have no effect on a stack. If there is a way, then the one to be given up is
    the highest that was never touched, or else the one whose last touch is the oldest. -/
theorem stacks_list_latest_first (sets ways : Nat) (touches : List (Fin sets × Nat)) :
    (Action.each (fun c : Fin sets × Nat => Replacement.touch c.1 c.2) touches).Ensures
      (new sets ways)
      (fun log p => log.map Prod.fst = touches ∧ OrderedByUse ways touches p ∧
        (∀ (set : Fin sets) way, ∃ q, (Replacement.touch set way).run p = .ok () q ∧
          (∀ set', set' ≠ set.val → q.usage[set']? = p.usage[set']?) ∧ (ways ≤ way → q = p)) ∧
        (0 < ways → ∀ set : Fin sets, ∃ way, (Replacement.victim set).run p = .ok way p ∧
          GivesUp ways touches set way))
      fun _ _ => False := by
  have hrun := Action.Ensures.each
    (x := fun c : Fin sets × Nat => (Replacement.touch c.1 c.2 : Action Lru Unit))
    (I := fun log p => OrderedByUse ways (log.map Prod.fst) p) (E := fun _ _ => False)
    (orderedByUse_new sets ways) ?_ touches
  · refine hrun.mono (fun log p h => ?_) fun _ _ hf => hf
    obtain ⟨rfl, hp⟩ := h
    exact ⟨rfl, hp, hp.exists_run_touch, fun hways set => hp.exists_run_victim set hways⟩
  · rintro log p ⟨set, way⟩ hp
    rw [Action.Ensures, hp.run_touch_eq set way]
    change OrderedByUse ways ((log ++ [((set, way), ())]).map Prod.fst) _
    rw [List.map_append]
    exact hp.touch set way

end BranchPrediction.Lru
