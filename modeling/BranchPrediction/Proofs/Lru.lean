import BranchPrediction.Proofs.Replacement
import BranchPrediction.Replacement.Lru

/-!
# Usage stacks

The usage stack of every set always holds every way of the set once
(`Lru.Stacked`), because a touch only moves a way within its stack. So the policy
is in range (`Lru.inRange_new`), and no touch of a way within the range fails
(`Lru.not_touchFault`).
-/

namespace BranchPrediction.Lru

variable {sets ways : Nat} {p q : Lru} {set way : Nat} {stack : List Nat}

/-- There is a usage stack for every set, with every way in it once. -/
structure Stacked (sets ways : Nat) (p : Lru) : Prop where
  size_eq : p.usage.size = sets
  perm : ∀ (set : Nat) (stack : List Nat), p.usage[set]? = some stack → stack.Perm (List.range ways)

/-- The usage stack of a set. -/
theorem Stacked.exists_stack (hp : Stacked sets ways p) (hset : set < sets) :
    ∃ stack, p.usage[set]? = some stack ∧ stack.Perm (List.range ways) := by
  have hsize : set < p.usage.size := hp.size_eq.symm ▸ hset
  have hstack := Array.getElem?_eq_getElem hsize
  exact ⟨_, hstack, hp.perm set _ hstack⟩

/-- A touch promotes the way in the stack of its set. -/
theorem run_touch (hset : set < p.usage.size) :
    (Replacement.touch set way).run p = .ok () ⟨p.usage.modify set (promote way)⟩ :=
  if_pos hset

/-- The victim is at the bottom of the stack. -/
theorem run_victim (hstack : p.usage[set]? = some stack) :
    (Replacement.victim set).run p = .ok (bottom stack) p := by
  simp only [Replacement.victim, EStateM.run, hstack]

/-- A way that is promoted stays in the stack. -/
theorem perm_promote (way : Nat) (stack : List Nat) : (promote way stack).Perm stack := by
  rw [promote]
  split
  next h => exact (List.perm_cons_erase h).symm
  next => exact .refl _

/-- The last way of a stack is the one at its bottom. -/
theorem bottom_concat (stack : List Nat) (way : Nat) : bottom (stack ++ [way]) = way := by
  rw [bottom, List.getLast?_concat, Option.getD_some]

/-- A stack with every way in it has a bottom, as there is a way. -/
theorem getLast?_eq_bottom (hways : 0 < ways) (hperm : stack.Perm (List.range ways)) :
    stack.getLast? = some (bottom stack) := by
  have hne : stack ≠ [] := by
    rintro rfl
    have := hperm.length_eq
    rw [List.length_range, List.length_nil] at this
    omega
  rw [bottom, List.getLast?_eq_getLast_of_ne_nil hne, Option.getD_some]

/-- A stack with every way in it has one of them at the bottom. -/
theorem bottom_lt (hways : 0 < ways) (hperm : stack.Perm (List.range ways)) :
    bottom stack < ways :=
  List.mem_range.1 (hperm.mem_iff.1 (List.mem_of_getLast? (getLast?_eq_bottom hways hperm)))

/-- Without the way at its bottom, a stack has all others in the same order. -/
theorem erase_bottom (hways : 0 < ways) (hperm : stack.Perm (List.range ways)) :
    stack.erase (bottom stack) = stack.dropLast := by
  have hconcat := List.dropLast_append_getLast? _ (getLast?_eq_bottom hways hperm)
  have hnodup : (stack.dropLast ++ [bottom stack]).Nodup := by
    rw [hconcat]
    exact hperm.nodup_iff.2 List.nodup_range
  have hnot : bottom stack ∉ stack.dropLast := fun h =>
    List.disjoint_of_nodup_append hnodup h (List.mem_singleton_self _)
  calc stack.erase (bottom stack)
      = (stack.dropLast ++ [bottom stack]).erase (bottom stack) := by rw [hconcat]
    _ = stack.dropLast := by
      rw [List.erase_append_right _ hnot, List.erase_cons_head, List.append_nil]

/-- To promote the way at the bottom moves it to the top. -/
theorem promote_bottom (hways : 0 < ways) (hperm : stack.Perm (List.range ways)) :
    promote (bottom stack) stack = bottom stack :: stack.dropLast := by
  have hmem := List.mem_of_getLast? (getLast?_eq_bottom hways hperm)
  rw [promote, if_pos hmem, erase_bottom hways hperm]

/-- If the ways of a stack are in some order, all others are before the one at its bottom. -/
theorem rel_bottom {R : Nat → Nat → Prop} (hways : 0 < ways) (hperm : stack.Perm (List.range ways))
    (h : stack.Pairwise R) (hmem : way ∈ stack) (hne : way ≠ bottom stack) :
    R way (bottom stack) := by
  rw [← List.dropLast_append_getLast? _ (getLast?_eq_bottom hways hperm),
    List.pairwise_append] at h
  refine h.2.2 way ?_ _ (List.mem_singleton_self _)
  rw [← erase_bottom hways hperm]
  exact (List.mem_erase_of_ne hne).2 hmem

theorem stacked_new (sets ways : Nat) : Stacked sets ways (new sets ways) := by
  refine ⟨Array.size_replicate, fun set stack h => ?_⟩
  rw [new, Array.getElem?_replicate] at h
  split at h
  next => cases h; exact .refl _
  next => cases h

/-- A touch keeps the stacks in order. -/
theorem Stacked.modify (hp : Stacked sets ways p) (set way : Nat) :
    Stacked sets ways ⟨p.usage.modify set (promote way)⟩ := by
  refine ⟨Array.size_modify.trans hp.size_eq, fun set' stack h => ?_⟩
  rw [Array.getElem?_modify] at h
  split at h
  next =>
    obtain ⟨stack', h', rfl⟩ := Option.map_eq_some_iff.1 h
    exact (perm_promote way stack').trans (hp.perm _ _ h')
  next => exact hp.perm _ _ h

/-- Whatever it is asked and told, the policy keeps its stacks in order. -/
theorem stacked_of_reachable (h : Replacement.Reachable sets ways (new sets ways) q) :
    Stacked sets ways q := by
  induction h with
  | refl => exact stacked_new sets ways
  | touch _ hset _ hr ih =>
    rw [run_touch (ih.size_eq.symm ▸ hset)] at hr
    cases hr
    exact ih.modify _ _
  | victim _ hset hr ih =>
    obtain ⟨stack, hstack, -⟩ := ih.exists_stack hset
    rw [run_victim hstack] at hr
    -- The stack is looked at, and left as it is.
    cases hr
    exact ih

/-- Every victim is a way. -/
theorem inRange_new (sets : Nat) (hways : 0 < ways) :
    Replacement.InRange sets ways (new sets ways) := by
  intro q hq set hset
  obtain ⟨stack, hstack, hperm⟩ := (stacked_of_reachable hq).exists_stack hset
  rw [Action.Ensures, run_victim hstack]
  exact bottom_lt hways hperm

/-- No touch within the range fails. -/
theorem not_touchFault {f : Fault} : ¬Replacement.TouchFault sets ways (new sets ways) f q := by
  rintro ⟨q', set, way, hq', hset, -, hr⟩
  rw [run_touch ((stacked_of_reachable hq').size_eq.symm ▸ hset)] at hr
  cases hr

end BranchPrediction.Lru
