import BranchPrediction.Proofs.Coupling

/-!
# Aliases

Addresses of one line are *aliases* of each other. The set and the tag of an address
together are as good as its line (`Shape.setIndex_tag_eq_iff`), and nothing else of an
address is ever looked at. So a tag array cannot tell aliases apart
(`TagArray.run_insert_alias`), nor can a table, whose outcomes may be reported for any
alias of the branch (`run_update_alias`). Other lines are told apart: no call for an
address lets an address of another line be found that was not found before
(`TagArray.InOrder.knowsLines`).
-/

namespace BranchPrediction

namespace Shape

variable (s : Shape) {a b : Address}

/-- The line of an address, from the bits that count. -/
theorem line_eq (a : Address) : s.line a = a.toNat % 2 ^ s.addressBits / s.lineSize := by
  rw [line, masked, Nat.one_shiftLeft]

/-- If all bits count, the whole address does. -/
theorem line_eq_of_addressBits (h : s.addressBits = 64) (a : Address) :
    s.line a = a.toNat / s.lineSize := by
  rw [line_eq, h, Nat.mod_eq_of_lt a.toNat_lt]

/-- Aliases belong to the same set. -/
theorem setIndex_alias (h : s.line a = s.line b) : s.setIndex a = s.setIndex b := by
  rw [setIndex, setIndex, h]

/-- Aliases have the same tag. -/
theorem tag_alias (h : s.line a = s.line b) : s.tag a = s.tag b := by
  rw [tag, tag, s.masked_div_stride, s.masked_div_stride, h]

/-- Addresses with the same set and the same tag are aliases, and conversely. -/
theorem setIndex_tag_eq_iff (h : s.stride < UInt64.size) :
    s.setIndex a = s.setIndex b ∧ s.tag a = s.tag b ↔ s.line a = s.line b := by
  refine ⟨?_, fun hl => ⟨s.setIndex_alias hl, s.tag_alias hl⟩⟩
  rintro ⟨hset, htag⟩
  rw [s.tag_eq h, s.tag_eq h] at htag
  injection htag with htag
  calc s.line a = s.sets * (s.line a / s.sets) + s.setIndex a := (Nat.div_add_mod ..).symm
    _ = s.sets * (s.line b / s.sets) + s.setIndex b := by rw [htag, hset]
    _ = s.line b := Nat.div_add_mod ..

end Shape

namespace TagArray

variable {P : Type} {t : TagArray P} {a b : Address}

/-- Aliases are found in the same way. -/
theorem find_alias (h : t.shape.line a = t.shape.line b) : t.find a = t.find b := by
  rw [find, find, t.shape.tag_alias h, t.shape.setIndex_alias h]

theorem run_peek_alias (h : t.shape.line a = t.shape.line b) : (peek a).run t = (peek b).run t := by
  rw [run_peek, run_peek, find_alias h]

variable [Replacement P]

theorem run_lookup_alias (h : t.shape.line a = t.shape.line b) :
    (lookup a).run t = (lookup b).run t := by
  simp only [lookup, EStateM.run_bind, EStateM.run_get, run_peek_alias h, t.shape.setIndex_alias h]

theorem run_insert_alias (h : t.shape.line a = t.shape.line b) :
    (insert a).run t = (insert b).run t := by
  simp only [insert, EStateM.run_bind, EStateM.run_get, run_peek_alias h, t.shape.setIndex_alias h,
    t.shape.tag_alias h]

/-- What is seen of the lines of addresses in the calls of a tag array of the given
    shape, whose policy has come from `p`. -/
structure KnowsLines (shape : Shape) (p : P) (t : TagArray P) : Prop where
  /-- Aliases belong to the same set, are answered the same, and leave the same behind. -/
  alias_eq : ∀ a b, shape.line a = shape.line b →
    t.shape.setIndex a = t.shape.setIndex b ∧ (peek a).run t = (peek b).run t ∧
      (lookup a).run t = (lookup b).run t ∧ (insert a).run t = (insert b).run t
  /-- A lookup of another line lets no address be found. -/
  lookup_other : ∀ a b, shape.line a ≠ shape.line b → (peek b).run t = .ok none t →
    (lookup a).Ensures t (fun _ t' => (peek b).run t' = .ok none t')
      fun f t' => Replacement.TouchFault shape.sets shape.ways p f t'.policy
  /-- Nor does an insertion of another line. -/
  insert_other : ∀ a b, shape.line a ≠ shape.line b → (peek b).run t = .ok none t →
    (insert a).Ensures t (fun _ t' => (peek b).run t' = .ok none t')
      fun f t' => Replacement.TouchFault shape.sets shape.ways p f t'.policy

/-- A tag array in order knows the lines of addresses. -/
theorem InOrder.knowsLines {shape : Shape} {p : P} (ht : InOrder shape p t)
    (hstride : shape.stride < UInt64.size) (hp : Replacement.InRange shape.sets shape.ways p) :
    KnowsLines shape p t := by
  obtain rfl := ht.shape_eq
  have hmiss : ∀ {u : TagArray P} {b}, u.shape = t.shape →
      ((peek b).run u = .ok none u ↔ u.wayOfLine (t.shape.line b) = none) := by
    intro u b hu
    rw [run_peek_eq (hu.symm ▸ hstride), hu, EStateM.Result.ok.injEq, and_iff_left rfl]
  refine ⟨fun a b h => ?_, fun a b hne hb => ?_, fun a b hne hb => ?_⟩
  · exact ⟨t.shape.setIndex_alias h, run_peek_alias h, run_lookup_alias h, run_insert_alias h⟩
  · refine (ht.ensures_lookup hstride a).mono ?_ fun _ _ hf => hf.2
    rintro _ t' ⟨-, heq, ht'⟩
    rw [hmiss ht'.shape_eq, heq, wayOfLine_withPolicy]
    exact (hmiss rfl).1 hb
  · refine (ht.ensures_insert hstride hp a).mono ?_ fun _ _ hf => hf
    rintro way t' ⟨hins, ht'⟩
    -- The line of `b` is not the one that is put somewhere.
    rw [hmiss ht'.shape_eq, hins.wayOfLine_eq ht.distinct, if_neg hne.symm, (hmiss rfl).1 hb,
      ite_self]

end TagArray

/-- The allocation as it is answered for another address. -/
def Allocation.withPc (al : Allocation) (pc : Address) : Allocation := { al with pc }

namespace Table

variable {D P : Type} [Scheme D] [Replacement P] {shape : Shape} {p : P} {log : Log}
  {t : Table D (TagArray P)} {o o' : Outcome}

/-- The same is reported of aliases. -/
structure Aliased (shape : Shape) (o o' : Outcome) : Prop where
  line_eq : shape.line o.pc = shape.line o'.pc
  taken_eq : o.taken = o'.taken
  target_eq : o.target = o'.target

/-- A table learns the same of every alias. Only the answer names the address. -/
theorem run_update_alias (hstride : t.store.shape.stride < UInt64.size)
    (h : Aliased t.store.shape o o') :
    (update o').run t = (Option.map (Allocation.withPc · o'.pc) <$> update o).run t := by
  obtain ⟨hline, htaken, htarget⟩ := h
  have hinsert := TagArray.run_insert_alias hline
  have hset := t.store.shape.setIndex_alias hline
  have hentry : (Entry.ofOutcomes [o] : Entry D) = Entry.ofOutcomes [o'] := by
    rw [← Entry.train_seed_reset .cold, ← Entry.train_seed_reset .cold, htaken, htarget]
  -- The answer is renamed at the end, and up to there the actions are the same.
  rcases hl : t.store.wayOfLine (t.store.shape.line o.pc) with _ | way
  · rw [EStateM.run_map, run_update_of_none hstride hl, run_update_of_none hstride (hline ▸ hl),
      ← EStateM.run_map]
    simp only [map_bind, map_pure, Option.map_some, Allocation.withPc, hset, hentry,
      EStateM.run_bind, run_onStore, Action.within, hinsert]
  · rw [EStateM.run_map, run_update_of_some hstride hl, run_update_of_some hstride (hline ▸ hl),
      ← EStateM.run_map]
    simp only [map_bind, map_pure, Option.map_none, hset, htaken, htarget, EStateM.run_bind,
      run_onStore, Action.within, hinsert]

/-- From a coupled table, runs that report the same of aliases end in equal tables. -/
theorem Coupled.ensures_each_alias (ht : Coupled shape p log t)
    (hstride : shape.stride < UInt64.size) (hp : Replacement.InRange shape.sets shape.ways p)
    {os os' : List Outcome} (h : List.Forall₂ (Aliased shape) os os') :
    (Action.each update os).Ensures t
      (fun log t' => log.map Prod.fst = os ∧ ∃ log', (Action.each update os').run t = .ok log' t')
      (fun f t' => Replacement.TouchFault shape.sets shape.ways p f t'.store.policy) := by
  refine Action.Ensures.each_forall₂ (I := fun t => ∃ log, Coupled shape p log t) ?_ h t ⟨log, ht⟩
  rintro t o o' ⟨log, ht⟩ ho
  refine (ht.ensures_update hstride hp o).with_run.mono ?_ fun _ _ hf => hf
  rintro a t' ⟨hr, -, ht'⟩
  obtain rfl := ht.inOrder.shape_eq
  refine ⟨⟨_, ht'⟩, a.map (Allocation.withPc · o'.pc), ?_⟩
  rw [run_update_alias hstride ho, EStateM.run_map, hr]
  rfl

/-- The line of an address consists of the bits that count, and it is exactly what the
    set and the tag identify. After any calls, a tag array whose policy stays in range
    tells lines apart, and nothing but lines. So does a table: after any outcomes, two
    runs that report the same of aliases end in equal tables. Only a touch of the
    policy can fail. -/
theorem identified_by_line (D : Type) [Scheme D] {g : Geometry} {tags : TagArray P}
    (hg : TagArray.ofGeometry g p = .ok tags) (hstride : tags.shape.stride < UInt64.size)
    (hp : Replacement.InRange tags.shape.sets tags.shape.ways p) :
    (∀ a, tags.shape.line a = a.toNat % 2 ^ g.addressBits / g.lineSize ∧
      (g.addressBits = 64 → tags.shape.line a = a.toNat / g.lineSize)) ∧
    (∀ a b, tags.shape.setIndex a = tags.shape.setIndex b ∧ tags.shape.tag a = tags.shape.tag b ↔
      tags.shape.line a = tags.shape.line b) ∧
    (∀ calls, (Action.each AddressStore.perform calls).Ensures tags
      (fun _ t => TagArray.KnowsLines tags.shape p t)
      (fun f t => Replacement.TouchFault tags.shape.sets tags.shape.ways p f t.policy)) ∧
    ∀ before, (Action.each update before).Ensures
      (ofStore tags tags.shape.ways tags.shape.sets : Table D (TagArray P))
      (fun log t => log.map Prod.fst = before ∧
        ∀ os os', List.Forall₂ (Aliased tags.shape) os os' →
          (Action.each update os).Ensures t
            (fun log t' => log.map Prod.fst = os ∧
              ∃ log', (Action.each update os').run t = .ok log' t')
            (fun f t' => Replacement.TouchFault tags.shape.sets tags.shape.ways p f
              t'.store.policy))
      (fun f t => Replacement.TouchFault tags.shape.sets tags.shape.ways p f t.store.policy) := by
  obtain ⟨shape, hshape, rfl⟩ := TagArray.exists_shape_of_ofGeometry hg
  obtain ⟨-, -, hlineSize, hbits⟩ := Geometry.measures_of_shape hshape
  refine ⟨fun a => ?_, fun a b => shape.setIndex_tag_eq_iff hstride, fun calls => ?_,
    fun before => ?_⟩
  · rw [← hlineSize, ← hbits]
    exact ⟨shape.line_eq a, fun h => shape.line_eq_of_addressBits h a⟩
  · exact (TagArray.ensures_each_perform hstride hp calls).mono
      (fun _ t ht => ht.knowsLines hstride hp) fun _ _ hf => hf
  · refine (ensures_each_update (D := D) (J := fun _ _ => True) hstride hp trivial
      (fun _ _ _ _ _ _ _ _ => trivial) before).mono ?_ fun _ _ hf => hf
    rintro log t ⟨hlog, ht, -⟩
    exact ⟨hlog, fun os os' h => ht.ensures_each_alias hstride hp h⟩

/-- If 32 bits count, the addresses `1` and `2 ^ 32 + 2` are aliases. -/
theorem identified_by_line_twoBit :
    ∃ tags, TagArray.ofGeometry ⟨4, 2, 4, 32⟩ (Lru.new 2 2) = .ok tags ∧
      tags.shape.stride < UInt64.size ∧
      Replacement.InRange tags.shape.sets tags.shape.ways (Lru.new 2 2) ∧
      (tags.shape.setIndex 1 = tags.shape.setIndex 0x100000002 ∧
        tags.shape.tag 1 = tags.shape.tag 0x100000002) ∧
      (Action.each AddressStore.perform [.insert 1, .insert 8, .lookup 0]).Ensures tags
        (fun _ t => TagArray.KnowsLines tags.shape (Lru.new 2 2) t)
        (fun f t => Replacement.TouchFault tags.shape.sets tags.shape.ways (Lru.new 2 2) f
          t.policy) ∧
      (Action.each update [⟨8, true, 64⟩]).Ensures
        (ofStore tags tags.shape.ways tags.shape.sets : Table TwoBit (TagArray Lru))
        (fun log t => log.map Prod.fst = [⟨8, true, 64⟩] ∧
          (Action.each update [⟨1, true, 64⟩]).Ensures t
            (fun log t' => log.map Prod.fst = [⟨1, true, 64⟩] ∧
              ∃ log', (Action.each update [⟨0x100000002, true, 64⟩]).run t = .ok log' t')
            (fun f t' => Replacement.TouchFault tags.shape.sets tags.shape.ways (Lru.new 2 2) f
              t'.store.policy))
        (fun f t => Replacement.TouchFault tags.shape.sets tags.shape.ways (Lru.new 2 2) f
          t.store.policy) := by
  have hp : Replacement.InRange 2 2 (Lru.new 2 2) := Lru.inRange_new 2 (by decide)
  obtain ⟨-, hiff, hcalls, hruns⟩ :=
    identified_by_line TwoBit (TagArray.ofGeometry_twoByTwo _) (by decide) hp
  have halias : Aliased .twoByTwo ⟨1, true, 64⟩ ⟨0x100000002, true, 64⟩ :=
    ⟨by decide, rfl, rfl⟩
  refine ⟨_, TagArray.ofGeometry_twoByTwo _, by decide, hp, (hiff _ _).2 halias.line_eq,
    hcalls _, (hruns [⟨8, true, 64⟩]).mono ?_ fun _ _ hf => hf⟩
  exact fun _ t ht => ⟨ht.1, ht.2 _ _ (.cons halias .nil)⟩

end Table

end BranchPrediction
