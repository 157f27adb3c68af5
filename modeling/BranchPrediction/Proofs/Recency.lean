import Mathlib

/-!
# Recency

The elements of a sequence, in the order in which each of them occurred last: the
latest one is first (`recency`). An element is behind as many others as have
occurred since (`recency_append_cons`), so that it is among the first `n` if and
only if fewer than `n` others have (`mem_take_recency_filter_iff`). Told by the times at
which the elements occur last, the latest time is first (`LastAt`, `pairwise_recency`).

Something with `n` places that keeps what was used last holds the first `n` of the
recency, and nothing in the places that were not needed so far (`window`). When an
element is used, it moves to the front: from where it is, if it is held
(`window_use_of_mem`), and otherwise the last place is given up for it
(`window_use_of_not_mem`).
-/

namespace BranchPrediction

variable {α β : Type} [DecidableEq α] {ts rs : List α} {x : α} {n : Nat}

/-- The elements of a sequence, the one that occurs last first. -/
def recency (ts : List α) : List α := ts.foldl (fun rs x => x :: rs.erase x) []

/-- One more element moves to the front. -/
theorem recency_concat (ts : List α) (x : α) :
    recency (ts ++ [x]) = x :: (recency ts).erase x :=
  List.foldl_append

example : recency [1, 2, 1, 3] = [3, 1, 2] := rfl

/-- Every element is listed once. -/
theorem nodup_recency (ts : List α) : (recency ts).Nodup := by
  induction ts using List.reverseRecOn with
  | nil => exact List.nodup_nil
  | append_singleton ts x ih =>
    rw [recency_concat, List.nodup_cons]
    exact ⟨ih.not_mem_erase, ih.erase x⟩

/-- The elements are those of the sequence. -/
theorem mem_recency : x ∈ recency ts ↔ x ∈ ts := by
  induction ts using List.reverseRecOn with
  | nil => exact Iff.rfl
  | append_singleton ts y ih =>
    rw [recency_concat, List.mem_cons, List.mem_append, List.mem_singleton]
    by_cases hxy : x = y
    · exact iff_of_true (.inl hxy) (.inr hxy)
    · rw [List.mem_erase_of_ne hxy, ih]
      exact or_comm

/-- There are as many as the sequence has elements. -/
theorem length_recency (ts : List α) : (recency ts).length = ts.toFinset.card := by
  rw [← List.toFinset_card_of_nodup (nodup_recency ts)]
  refine congrArg Finset.card (Finset.ext fun x => ?_)
  rw [List.mem_toFinset, List.mem_toFinset, mem_recency]

/-- An element is right behind those that occur after it. -/
theorem recency_append_cons (before : List α) {after : List α} (hx : x ∉ after) :
    ∃ rest, recency (before ++ x :: after) = recency after ++ x :: rest := by
  induction after using List.reverseRecOn with
  | nil => exact ⟨_, recency_concat before x⟩
  | append_singleton after y ih =>
    rw [List.mem_append, List.mem_singleton, not_or] at hx
    obtain ⟨rest, hrest⟩ := ih hx.1
    have hconcat : recency (before ++ x :: (after ++ [y])) =
        y :: (recency (before ++ x :: after)).erase y := by
      rw [← List.cons_append, ← List.append_assoc, recency_concat]
    rw [hconcat, hrest, recency_concat]
    -- The new element is taken from the part in front of `x` or from the part behind it.
    by_cases hy : y ∈ recency after
    · exact ⟨rest, by rw [List.erase_append_left _ hy, List.cons_append]⟩
    · refine ⟨rest.erase y, ?_⟩
      rw [List.erase_append_right _ hy, List.erase_of_not_mem hy, List.cons_append,
        List.erase_cons_tail (by simpa using hx.2)]

omit [DecidableEq α] in
/-- An element of a sequence has a last occurrence. -/
theorem exists_last_occurrence (hx : x ∈ ts) :
    ∃ before after, ts = before ++ x :: after ∧ x ∉ after := by
  obtain ⟨after, before, hts, hafter⟩ := List.eq_append_cons_of_mem (List.mem_reverse.2 hx)
  refine ⟨before.reverse, after.reverse, ?_, mt List.mem_reverse.1 hafter⟩
  rw [← List.reverse_reverse ts, hts]
  simp only [List.reverse_append, List.reverse_cons, List.append_assoc, List.singleton_append]

/-- Of the elements of some kind, an element of the kind is one of the latest `n`
    if fewer than `n` others have occurred since. -/
theorem mem_take_recency_filter_iff {kind : α → Bool} (hx : kind x = true) :
    x ∈ (recency (ts.filter kind)).take n ↔
      ∃ before after, ts = before ++ x :: after ∧ x ∉ after ∧
        (after.filter kind).toFinset.card < n := by
  -- From the last occurrence of `x` on, all that matters is how many occur behind it.
  have hsplit : ∀ before after, x ∉ after →
      (x ∈ (recency ((before ++ x :: after).filter kind)).take n ↔
        (after.filter kind).toFinset.card < n) := by
    intro before after hafter
    have hfilter : x ∉ after.filter kind := fun h => hafter (List.mem_of_mem_filter h)
    obtain ⟨rest, hrest⟩ := recency_append_cons (before.filter kind) hfilter
    rw [List.filter_append, List.filter_cons_of_pos hx, hrest, List.take_append, List.mem_append,
      ← length_recency]
    constructor
    · rintro (h | h)
      · exact absurd (mem_recency.1 (List.mem_of_mem_take h)) hfilter
      · by_contra hn
        rw [Nat.sub_eq_zero_of_le (Nat.le_of_not_lt hn)] at h
        cases h
    · intro hn
      rw [List.take_cons (Nat.sub_pos_of_lt hn)]
      exact .inr List.mem_cons_self
  constructor
  · intro h
    have hmem := List.mem_of_mem_filter (mem_recency.1 (List.mem_of_mem_take h))
    obtain ⟨before, after, rfl, hafter⟩ := exists_last_occurrence hmem
    exact ⟨before, after, rfl, hafter, (hsplit before after hafter).1 h⟩
  · rintro ⟨before, after, rfl, hafter, hn⟩
    exact (hsplit before after hafter).2 hn

/-! ## Times -/

/-- The element number `i` of a sequence is `x`, and no later one is. -/
def LastAt (ts : List α) (x : α) (i : Nat) : Prop := ts[i]? = some x ∧ ∀ j, i < j → ts[j]? ≠ some x

/-- Both elements occur in the sequence, and `x` still does after `y` did last. -/
def LaterThan (ts : List α) (x y : α) : Prop := ∃ i j, LastAt ts x i ∧ LastAt ts y j ∧ j < i

omit [DecidableEq α] in
/-- There is a time at which an element occurs. -/
theorem LastAt.lt_length {i : Nat} (h : LastAt ts x i) : i < ts.length :=
  (List.getElem?_eq_some_iff.1 h.1).1

omit [DecidableEq α] in
/-- A new element occurs last at the end. -/
theorem lastAt_concat_self (ts : List α) (x : α) : LastAt (ts ++ [x]) x ts.length := by
  refine ⟨List.getElem?_concat_length, fun j hj => ?_⟩
  rw [List.getElem?_eq_none]
  · exact Option.some_ne_none x |>.symm
  · rw [List.length_append, List.length_singleton]
    exact hj

omit [DecidableEq α] in
/-- Any other element last occurs when it did. -/
theorem LastAt.concat {y : α} {i : Nat} (h : LastAt ts x i) (hne : y ≠ x) :
    LastAt (ts ++ [y]) x i := by
  refine ⟨by rw [List.getElem?_append_left h.lt_length, h.1], fun j hj => ?_⟩
  rcases Nat.lt_trichotomy j ts.length with hlt | rfl | hgt
  · rw [List.getElem?_append_left hlt]
    exact h.2 j hj
  · rw [List.getElem?_concat_length]
    exact fun heq => hne (Option.some.inj heq)
  · rw [List.getElem?_eq_none]
    · exact Option.some_ne_none x |>.symm
    · rw [List.length_append, List.length_singleton]
      exact hgt

/-- An element of a sequence occurs last at some time. -/
theorem exists_lastAt (hx : x ∈ ts) : ∃ i, LastAt ts x i := by
  induction ts using List.reverseRecOn with
  | nil => cases hx
  | append_singleton ts y ih =>
    by_cases hy : y = x
    · subst hy
      exact ⟨_, lastAt_concat_self ts y⟩
    · have hx : x ∈ ts := (List.mem_append.1 hx).resolve_right fun h =>
        hy (List.mem_singleton.1 h).symm
      obtain ⟨i, hi⟩ := ih hx
      exact ⟨i, hi.concat hy⟩

/-- A new element is later than all others. -/
theorem laterThan_concat {y : α} (hy : y ∈ ts) (hne : x ≠ y) : LaterThan (ts ++ [x]) x y := by
  obtain ⟨j, hj⟩ := exists_lastAt hy
  exact ⟨_, j, lastAt_concat_self ts x, hj.concat hne, hj.lt_length⟩

omit [DecidableEq α] in
/-- A new element leaves the others as late as they were. -/
theorem LaterThan.concat {y z : α} (h : LaterThan ts x y) (hx : z ≠ x) (hy : z ≠ y) :
    LaterThan (ts ++ [z]) x y := by
  obtain ⟨i, j, hi, hj, hlt⟩ := h
  exact ⟨i, j, hi.concat hx, hj.concat hy, hlt⟩

/-- A list that has later elements first still has once one more of them moves to the front. -/
theorem pairwise_laterThan_cons_erase [DecidableEq β] {f : β → α} {rs : List β} (y : β)
    (hf : f.Injective) (hnodup : rs.Nodup) (hmem : ∀ z ∈ rs, f z ∈ ts)
    (h : rs.Pairwise fun z z' => LaterThan ts (f z) (f z')) :
    (y :: rs.erase y).Pairwise fun z z' => LaterThan (ts ++ [f y]) (f z) (f z') := by
  have hne : ∀ {z}, z ∈ rs.erase y → f y ≠ f z := fun hz heq =>
    (hnodup.mem_erase_iff.1 hz).1 (hf heq).symm
  rw [List.pairwise_cons]
  refine ⟨fun z hz => laterThan_concat (hmem z (List.mem_of_mem_erase hz)) (hne hz), ?_⟩
  exact (h.sublist List.erase_sublist).imp_of_mem fun hz hz' h => h.concat (hne hz) (hne hz')

/-- The recency lists later elements first. -/
theorem pairwise_recency (ts : List α) : (recency ts).Pairwise (LaterThan ts) := by
  induction ts using List.reverseRecOn with
  | nil => exact List.Pairwise.nil
  | append_singleton ts x ih =>
    rw [recency_concat]
    exact pairwise_laterThan_cons_erase x Function.injective_id (nodup_recency ts)
      (fun _ => mem_recency.1) ih

/-- The recency of the elements of some kind is the part of this kind of the recency. -/
theorem recency_filter (kind : α → Bool) (ts : List α) :
    recency (ts.filter kind) = (recency ts).filter kind := by
  induction ts using List.reverseRecOn with
  | nil => rfl
  | append_singleton ts x ih =>
    have herase : ((recency ts).erase x).filter kind = ((recency ts).filter kind).erase x := by
      rw [(nodup_recency ts).erase_eq_filter, ((nodup_recency ts).filter kind).erase_eq_filter,
        List.filter_comm]
    rw [List.filter_append, recency_concat]
    by_cases hx : kind x = true
    · rw [List.filter_cons_of_pos hx, List.filter_cons_of_pos hx, List.filter_nil, recency_concat,
        ih, herase]
    · have hnot : x ∉ (recency ts).filter kind := fun h => hx (List.mem_filter.1 h).2
      rw [List.filter_cons_of_neg hx, List.filter_cons_of_neg hx, List.filter_nil, List.append_nil,
        ih, herase, List.erase_of_not_mem hnot]

/-! ## Windows -/

/-- The first `n` of a list, with `none` for those that the list does not have. -/
def window (n : Nat) (rs : List α) : List (Option α) :=
  (rs.map some ++ List.replicate n none).take n

omit [DecidableEq α] in
/-- The window has `n` places. -/
theorem length_window (n : Nat) (rs : List α) : (window n rs).length = n := by
  simp [window]

omit [DecidableEq α] in
/-- What is seen through the window is in the list. -/
theorem some_mem_window_iff : some x ∈ window n rs ↔ x ∈ rs.take n := by
  rw [window, List.take_append, List.mem_append, ← List.map_take,
    List.mem_map_of_injective (Option.some_injective α)]
  refine or_iff_left fun h => ?_
  cases List.eq_of_mem_replicate (List.mem_of_mem_take h)

omit [DecidableEq α] in
/-- What is seen is in the order of the list. -/
theorem pairwise_window {R : α → α → Prop} (h : rs.Pairwise R) (n : Nat) :
    (window n rs).Pairwise fun a b => ∀ x y, a = some x → b = some y → R x y := by
  refine List.Pairwise.sublist (List.take_sublist _ _) (List.pairwise_append.2 ⟨?_, ?_, ?_⟩)
  · refine List.pairwise_map.2 (h.imp fun hxy x y hx hy => ?_)
    cases hx
    cases hy
    exact hxy
  · refine List.pairwise_replicate.2 (.inr fun x _ hx => ?_)
    cases hx
  · intro a _ b hb x y _ hy
    rw [List.eq_of_mem_replicate hb] at hy
    cases hy

/-- An element moves to the front of the list, and so of the window. -/
theorem window_use (hn : 0 < n) :
    window n (x :: rs.erase x) =
      some x :: ((rs.map some ++ List.replicate n none).erase (some x)).take (n - 1) := by
  have herase : (rs.map some ++ List.replicate n none).erase (some x) =
      (rs.erase x).map some ++ List.replicate n none := by
    have hnone : some x ∉ List.replicate n none := fun h => by
      cases List.eq_of_mem_replicate h
    rw [List.erase_append, List.erase_of_not_mem hnone, List.map_erase (Option.some_injective α)]
    split
    next => rfl
    next h => rw [List.erase_of_not_mem h]
  rw [herase, window, List.map_cons, List.cons_append, List.take_cons hn]

/-- An element that is seen moves to the front from where it is seen. -/
theorem window_use_of_mem (hn : 0 < n) (hx : some x ∈ window n rs) :
    window n (x :: rs.erase x) = some x :: (window n rs).erase (some x) := by
  rw [window_use hn, ← List.take_append_drop n (rs.map some ++ List.replicate n none)]
  change some x :: ((window n rs ++ _).erase (some x)).take (n - 1) = _
  rw [List.erase_append_left _ hx, List.take_left']
  rw [List.length_erase_of_mem hx, length_window]

/-- For an element that is not seen, the last one moves out of sight. -/
theorem window_use_of_not_mem (hn : 0 < n) (hx : some x ∉ window n rs) :
    window n (x :: rs.erase x) = some x :: (window n rs).dropLast := by
  rw [window_use hn, ← List.take_append_drop n (rs.map some ++ List.replicate n none)]
  change some x :: ((window n rs ++ _).erase (some x)).take (n - 1) = _
  rw [List.erase_append_right _ hx, List.dropLast_eq_take, length_window,
    List.take_append_of_le_length]
  rw [length_window]
  exact Nat.sub_le n 1

/-- To take an element out of a list takes its value out of the values, if no other
    element has the same value. -/
theorem map_erase_of_unique [BEq β] [LawfulBEq β] {f : α → β} (h : ∀ y ∈ ts, f y = f x → y = x) :
    (ts.erase x).map f = (ts.map f).erase (f x) := by
  induction ts with
  | nil => rfl
  | cons y ts ih =>
    by_cases hy : y = x
    · subst hy
      rw [List.erase_cons_head, List.map_cons, List.erase_cons_head]
    · have hf : f y ≠ f x := fun hf => hy (h y List.mem_cons_self hf)
      rw [List.erase_cons_tail (by simpa using hy), List.map_cons, List.map_cons,
        List.erase_cons_tail (by simpa using hf),
        ih fun z hz => h z (List.mem_cons_of_mem y hz)]

end BranchPrediction
