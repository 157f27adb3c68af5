import BranchPrediction.Proofs.PolicyCalls
import BranchPrediction.Proofs.Validation

/-!
# Strides beyond a word

The tag of an address is a quotient by the stride, the bytes that one way covers, and the stride
has to be a word of 64 bits. No rule for geometries says so: every line of more than one byte
has an accepted geometry with a longer stride (`Geometry.exists_sets_and_le_stride`).

* If the stride is a word, every request is answered, in any order and for any addresses, with
  sets and ways that there are (`ensures_each_answer`).
* Otherwise only sets are answered (`run_each_setIndex`). The first call fails, whatever it is and
  whatever it is for, and changes nothing (`run_perform_of_le_stride`).

So the stride alone decides whether a tag array can fail: `fails_iff_stride_overflows`.
-/

namespace BranchPrediction

/-- Without a word for the stride, no address has a tag. -/
theorem Shape.tag_eq_error {s : Shape} (h : UInt64.size ≤ s.stride) (a : Address) :
    s.tag a = .error .strideOverflow := if_neg h.not_gt

/-- Every line of more than one byte has an accepted geometry with a longer stride than a word. -/
theorem Geometry.exists_sets_and_le_stride {l : Nat} (hl : l.isPowerOfTwo) (hone : 1 < l)
    (hlt : l < UInt64.size) :
    ∃ size n, size < UInt64.size ∧ sets ⟨size, 1, l, 64⟩ = .ok n ∧ UInt64.size ≤ l * n := by
  have hsize : UInt64.size = 2 ^ 64 := rfl
  have hword : UInt64.size.isPowerOfTwo := ⟨64, hsize⟩
  have hcancel := Nat.mul_div_cancel' (isPowerOfTwo_dvd hword hl hlt.le)
  have hn := isPowerOfTwo_div hword hl hlt.le
  refine ⟨UInt64.size / l, UInt64.size / l, Nat.div_lt_self (by decide) hone, ?_, hcancel.ge⟩
  refine sets_eq_ok_iff.2 ⟨?_, Nat.mul_one _⟩
  exact ⟨hn, Nat.isPowerOfTwo_one, hl, Nat.one_le_ofNat, le_rfl, Nat.pos_of_isPowerOfTwo hn⟩

namespace AddressStore

/-- The set that is answered is one of so many, and so is the way. -/
def Answer.Within (sets ways : Nat) : Answer → Prop
  | .set s => s < sets
  | .way found => ∀ way ∈ found, way < ways

end AddressStore

namespace TagArray

open AddressStore (Request Answer Call answer)

variable {P : Type} [Replacement P]

/-! ## Strides within a word -/

section

variable {shape : Shape} {p : P} (hstride : shape.stride < UInt64.size)
  (hp : Replacement.InRange shape.sets shape.ways p)
include hstride hp

/-- A request is answered with a set or a way that there is, unless a touch fails. -/
theorem InOrder.ensures_answer {t : TagArray P} (ht : InOrder shape p t) (r : Request) :
    (answer r).Ensures t (fun a t' => a.Within shape.sets shape.ways ∧ InOrder shape p t')
      (fun f t' => Replacement.TouchFault shape.sets shape.ways p f t'.policy) := by
  cases r with
  | setIndex a =>
    obtain rfl := ht.shape_eq
    exact ⟨t.shape.setIndex_lt a, ht⟩
  | call c => exact Action.ensures_map.2 (ht.ensures_perform hstride hp c)

/-- Any requests of a new tag array are answered with sets and ways that there are. -/
theorem ensures_each_answer (rs : List Request) :
    (Action.each answer rs).Ensures (empty shape p)
      (fun log t => log.map Prod.fst = rs ∧ (∀ e ∈ log, e.2.Within shape.sets shape.ways) ∧
        InOrder shape p t)
      (fun f t => Replacement.TouchFault shape.sets shape.ways p f t.policy) := by
  refine Action.Ensures.each ?_ ?_ rs
  · exact ⟨fun _ he => absurd he List.not_mem_nil, inOrder_empty shape p⟩
  · rintro log t r ⟨hlog, ht⟩
    refine (ht.ensures_answer hstride hp r).mono ?_ fun _ _ hf => hf
    rintro a t' ⟨ha, ht'⟩
    refine ⟨List.forall_mem_append.2 ⟨hlog, ?_⟩, ht'⟩
    exact List.forall_mem_singleton.2 ha

end

/-! ## Strides beyond a word -/

/-- Sets are answered, and nothing changes. -/
theorem run_each_setIndex (as : List Address) (t : TagArray P) :
    (Action.each answer (as.map Request.setIndex)).run t =
      .ok (as.map fun a => (.setIndex a, .set (AddressStore.setIndex t a))) t := by
  induction as with
  | nil => rfl
  | cons a as ih => exact Action.run_each_cons_eq_ok_iff.2 ⟨_, t, rfl, _, ih, rfl⟩

variable {t : TagArray P}

omit [Replacement P] in
/-- Without a tag, an address cannot be searched for. -/
theorem run_peek_of_le_stride (h : UInt64.size ≤ t.shape.stride) (a : Address) :
    (peek a).run t = .error .strideOverflow t := by
  rw [run_peek, find, t.shape.tag_eq_error h]
  rfl

/-- Every call begins with a search, and the policy is not asked before. -/
theorem run_perform_of_le_stride (h : UInt64.size ≤ t.shape.stride) (c : Call) :
    (AddressStore.perform c).run t = .error .strideOverflow t := by
  have hpeek := run_peek_of_le_stride h
  cases c with
  | peek a => exact hpeek a
  | lookup a =>
    change (lookup a).run t = _
    simp only [lookup, EStateM.run_bind, EStateM.run_get, hpeek a]
  | insert a =>
    change (some <$> insert a).run t = _
    simp only [insert, EStateM.run_map, EStateM.run_bind, EStateM.run_get, hpeek a]
    rfl

/-- The first call fails, and nothing is done after it. -/
theorem run_each_answer_of_le_stride (h : UInt64.size ≤ t.shape.stride) (as : List Address)
    (c : Call) (rest : List Request) :
    (Action.each answer (as.map Request.setIndex ++ .call c :: rest)).run t =
      .error .strideOverflow t := by
  have hcall : (answer (.call c)).run t = .error .strideOverflow t := by
    rw [answer, EStateM.run_map, run_perform_of_le_stride h c]
    rfl
  exact Action.run_each_eq_error_iff.2
    ⟨as.map Request.setIndex, .call c, rest, _, t, rfl, run_each_setIndex as t, hcall⟩

/-! ## Accepted geometries -/

/-- What the requests of `tags` come to, the new tag array of a geometry that was accepted with
    `n` sets. -/
structure FailsByStride (g : Geometry) (n : Nat) (tags : TagArray Lru) : Prop where
  inBounds : InBounds n g.ways tags
  /-- Sets are always answered, and no search comes before. -/
  run_setIndex : ∀ as : List Address, (Action.each answer (as.map Request.setIndex)).run tags =
    .ok (as.map fun a => (.setIndex a, .set (AddressStore.setIndex tags a))) tags
  /-- If the stride is a word, no request fails. -/
  answers : g.lineSize * n < UInt64.size → ∀ rs, (Action.each answer rs).Ensures tags
    (fun log t => log.map Prod.fst = rs ∧ (∀ e ∈ log, e.2.Within n g.ways) ∧
      InBounds n g.ways t)
    fun _ _ => False
  /-- Otherwise the first call does, and leaves everything as it is. -/
  fails : UInt64.size ≤ g.lineSize * n → ∀ (as : List Address) (c : Call) (rest : List Request),
    (Action.each answer (as.map Request.setIndex ++ .call c :: rest)).run tags =
      .error .strideOverflow tags
  fails_iff : (∃ rs f t, (Action.each answer rs).run tags = .error f t) ↔
    UInt64.size ≤ g.lineSize * n

/-- Touches of ways that there are do not fail, so nothing does. -/
theorem ensures_each_answer_lru {shape : Shape} (hstride : shape.stride < UInt64.size)
    (rs : List Request) :
    (Action.each answer rs).Ensures (lru shape)
      (fun log t => log.map Prod.fst = rs ∧ (∀ e ∈ log, e.2.Within shape.sets shape.ways) ∧
        InBounds shape.sets shape.ways t)
      fun _ _ => False := by
  have hp := Lru.inRange_new shape.sets shape.ways_pos
  refine (ensures_each_answer hstride hp rs).mono ?_ fun _ _ hf => Lru.not_touchFault hf
  rintro log t ⟨hlog, hwithin, ht⟩
  exact ⟨hlog, hwithin, ht.inBounds hp⟩

/-- The tag array of an accepted geometry fails so. -/
theorem exists_failsByStride {g : Geometry} {n : Nat} (hg : g.sets = .ok n) :
    ∃ tags, lruOfGeometry g = .ok tags ∧ FailsByStride g n tags := by
  obtain ⟨shape, hshape, rfl⟩ := Geometry.exists_shape_of_sets hg
  obtain ⟨-, hways, hline, -⟩ := Geometry.measures_of_shape hshape
  have hstride : g.lineSize * shape.sets = shape.stride := by rw [Shape.stride, hline]
  have hfails (h : UInt64.size ≤ shape.stride) := run_each_answer_of_le_stride (t := lru shape) h
  refine ⟨lru shape, by rw [lruOfGeometry_eq, hshape]; rfl, ?_⟩
  refine ⟨?_, fun as => run_each_setIndex as _, ?_, ?_, ?_, ?_⟩
  · rw [← hways]
    exact (inOrder_empty shape _).inBounds (Lru.inRange_new shape.sets shape.ways_pos)
  · rw [hstride, ← hways]
    exact ensures_each_answer_lru
  · rw [hstride]
    exact hfails
  · rw [hstride]
    rintro ⟨rs, f, t, hrun⟩
    exact not_lt.1 fun h => (ensures_each_answer_lru h rs).of_error hrun
  · rw [hstride]
    exact fun h => ⟨_, _, _, hfails h [] (.peek 0) []⟩

/-- Every accepted geometry gives a tag array that fails if and only if the stride is more than a
    word, and there are such geometries for every line of more than one byte. -/
theorem fails_iff_stride_overflows :
    (∀ (g : Geometry) (n : Nat), g.sets = .ok n →
      ∃ tags, lruOfGeometry g = .ok tags ∧ FailsByStride g n tags) ∧
    ∀ l : Nat, l.isPowerOfTwo → 1 < l → l < UInt64.size →
      ∃ size n, size < UInt64.size ∧ Geometry.sets ⟨size, 1, l, 64⟩ = .ok n ∧
        UInt64.size ≤ l * n :=
  ⟨fun _ _ hg => exists_failsByStride hg,
    fun _ hl hone hlt => Geometry.exists_sets_and_le_stride hl hone hlt⟩

/-- Two sets of lines of an instruction are within a word, and two sets of the longest lines are
    not. -/
theorem fails_iff_stride_overflows_two_sets :
    (Geometry.sets ⟨4, 2, 4, 32⟩ = .ok 2 ∧
      ∃ tags, lruOfGeometry ⟨4, 2, 4, 32⟩ = .ok tags ∧ FailsByStride ⟨4, 2, 4, 32⟩ 2 tags) ∧
    (Geometry.sets ⟨4, 2, 2 ^ 63, 64⟩ = .ok 2 ∧ UInt64.size ≤ 2 ^ 63 * 2 ∧
      ∃ tags, lruOfGeometry ⟨4, 2, 2 ^ 63, 64⟩ = .ok tags ∧
        FailsByStride ⟨4, 2, 2 ^ 63, 64⟩ 2 tags) ∧
    ((2 ^ 63 : Nat).isPowerOfTwo ∧ 1 < 2 ^ 63 ∧ 2 ^ 63 < UInt64.size ∧
      ∃ size n, size < UInt64.size ∧ Geometry.sets ⟨size, 1, 2 ^ 63, 64⟩ = .ok n ∧
        UInt64.size ≤ 2 ^ 63 * n) := by
  have hshort : Geometry.sets ⟨4, 2, 4, 32⟩ = .ok 2 := rfl
  have hvalid : Geometry.Valid ⟨4, 2, 2 ^ 63, 64⟩ :=
    ⟨⟨2, rfl⟩, ⟨1, rfl⟩, ⟨63, rfl⟩, by decide, by decide, by decide⟩
  have hlong : Geometry.sets ⟨4, 2, 2 ^ 63, 64⟩ = .ok 2 :=
    Geometry.sets_eq_ok_iff.2 ⟨hvalid, rfl⟩
  have hone : 1 < 2 ^ 63 := by decide
  have hlt : 2 ^ 63 < UInt64.size := by decide
  exact ⟨⟨hshort, fails_iff_stride_overflows.1 _ _ hshort⟩,
    ⟨hlong, by decide, fails_iff_stride_overflows.1 _ _ hlong⟩,
    hvalid.lineSize, hone, hlt, fails_iff_stride_overflows.2 _ hvalid.lineSize hone hlt⟩

end TagArray

end BranchPrediction
