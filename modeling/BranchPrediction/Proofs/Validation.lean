import BranchPrediction.Table
import Mathlib

/-!
# Validation of geometries

A geometry has seven rules to keep, which are checked one after the other (`Geometry.rules`). The
first one that is broken is told (`FirstBroken`), whatever else is wrong.

* One that breaks no rule is accepted. The rules then come to this: its measures are powers of
  two, the ways are no more than the entries, and addresses have between 1 and 64 bits
  (`Geometry.Valid`).
* The number of sets of an accepted geometry is exact: it leaves no entry over, and is a power of
  two as well (`Geometry.sets_eq_ok_iff`).
* Whatever is built from a geometry fails as its validation does
  (`Geometry.map_shape_eq_error_iff`).

Together, this is `Geometry.validation_is_exact`.
-/

namespace BranchPrediction

/-! ## Rules -/

section

variable {α β ε : Type} {rule : Prop} {rules : List (Prop × α)} {x y : α}

/-- Of rules in their order, each with what is told of it, the first broken one tells `x`. -/
def FirstBroken (rules : List (Prop × α)) (x : α) : Prop :=
  ∃ before rule after, rules = before ++ (rule, x) :: after ∧ (∀ r ∈ before, r.1) ∧ ¬rule

/-- Without rules, nothing is broken. -/
theorem not_firstBroken_nil (x : α) : ¬FirstBroken [] x := by
  rintro ⟨before, rule, after, h, -⟩
  exact List.append_ne_nil_of_right_ne_nil before (List.cons_ne_nil _ after) h.symm

/-- A rule that is broken is told before all others. -/
theorem firstBroken_cons_of_not (h : ¬rule) : FirstBroken ((rule, y) :: rules) x ↔ y = x := by
  constructor
  · rintro ⟨before, rule', after, heq, hbefore, -⟩
    cases before with
    | nil => exact congrArg Prod.snd (List.head_eq_of_cons_eq heq)
    | cons r before =>
      obtain rfl := List.head_eq_of_cons_eq heq
      exact absurd (hbefore _ List.mem_cons_self) h
  · rintro rfl
    exact ⟨[], rule, rules, rfl, fun _ hr => absurd hr List.not_mem_nil, h⟩

/-- A rule that is kept leaves it to the others. -/
theorem firstBroken_cons_of (h : rule) :
    FirstBroken ((rule, y) :: rules) x ↔ FirstBroken rules x := by
  constructor
  · rintro ⟨before, rule', after, heq, hbefore, hnot⟩
    cases before with
    | nil =>
      cases List.head_eq_of_cons_eq heq
      exact absurd h hnot
    | cons r before =>
      exact ⟨before, rule', after, List.tail_eq_of_cons_eq heq,
        fun r' hr' => hbefore r' (List.mem_cons_of_mem r hr'), hnot⟩
  · rintro ⟨before, rule', after, rfl, hbefore, hnot⟩
    exact ⟨(rule, y) :: before, rule', after, rfl, List.forall_mem_cons.2 ⟨h, hbefore⟩, hnot⟩

/-- Something is told unless all rules are kept. -/
theorem exists_firstBroken_iff : (∃ x, FirstBroken rules x) ↔ ¬∀ r ∈ rules, r.1 := by
  induction rules with
  | nil =>
    refine iff_of_false ?_ (not_not.2 fun _ hr => absurd hr List.not_mem_nil)
    rintro ⟨x, hx⟩
    exact not_firstBroken_nil x hx
  | cons r rules ih =>
    obtain ⟨rule, y⟩ := r
    rw [List.forall_mem_cons]
    by_cases h : rule
    · rw [and_iff_right h, ← ih]
      exact exists_congr fun x => firstBroken_cons_of h
    · exact iff_of_true ⟨y, (firstBroken_cons_of_not h).2 rfl⟩ fun hall => h hall.1

/-- A check that comes first tells of its rule, or leaves it to the other checks. -/
theorem mapError_dite_eq_error_iff {c : Prop} [Decidable c] {d : ε} {rest : ¬c → Except ε β}
    {f : ε → α} (hrule : rule ↔ ¬c)
    (hrest : ∀ h, (rest h).mapError f = .error x ↔ FirstBroken rules x) :
    (if h : c then .error d else rest h).mapError f = .error x ↔
      FirstBroken ((rule, f d) :: rules) x := by
  by_cases h : c
  · rw [dif_pos h, firstBroken_cons_of_not fun hr => hrule.1 hr h]
    change Except.error (f d) = Except.error x ↔ f d = x
    rw [Except.error.injEq]
  · rw [dif_neg h, firstBroken_cons_of (hrule.2 h)]
    exact hrest h

end

namespace Geometry

variable {g : Geometry}

/-- The rules for a geometry in the order in which they are checked, with the reasons that are
    told of them. -/
def rules (g : Geometry) : List (Prop × String) := [
  (g.ways ≠ 0, "number of ways must be non-zero"),
  (g.sizeInEntries ≠ 0, "size in entries must be non-zero"),
  (g.lineSize.isPowerOfTwo, s!"line size {g.lineSize} is not a power of two"),
  (1 ≤ g.addressBits ∧ g.addressBits ≤ 64,
    s!"address width {g.addressBits} is outside 1..=64 bits"),
  (g.sizeInEntries.isPowerOfTwo, s!"size of {g.sizeInEntries} entries is not a power of two"),
  (g.ways.isPowerOfTwo, s!"{g.ways} ways is not a power of two"),
  (g.ways ≤ g.sizeInEntries,
    s!"{g.ways} ways exceed the capacity of {g.sizeInEntries} entries")]

/-- A geometry that breaks no rule. -/
structure Valid (g : Geometry) : Prop where
  sizeInEntries : g.sizeInEntries.isPowerOfTwo
  ways : g.ways.isPowerOfTwo
  lineSize : g.lineSize.isPowerOfTwo
  addressBits_pos : 1 ≤ g.addressBits
  addressBits_le : g.addressBits ≤ 64
  ways_le : g.ways ≤ g.sizeInEntries

/-- A power of two is not zero, so the rules come to fewer. -/
theorem valid_iff : g.Valid ↔ ∀ r ∈ g.rules, r.1 := by
  simp only [rules, List.forall_mem_cons, List.not_mem_nil, IsEmpty.forall_iff, implies_true,
    and_true]
  constructor
  · rintro ⟨hsize, hways, hline, hpos, hle, hfit⟩
    exact ⟨(Nat.pos_of_isPowerOfTwo hways).ne', (Nat.pos_of_isPowerOfTwo hsize).ne', hline,
      ⟨hpos, hle⟩, hsize, hways, hfit⟩
  · rintro ⟨-, -, hline, ⟨hpos, hle⟩, hsize, hways, hfit⟩
    exact ⟨hsize, hways, hline, hpos, hle, hfit⟩

/-- What is built from the shape of a geometry fails as its validation does. -/
theorem map_shape_eq_error_iff {α : Type} {f : Shape → α} {d : Defect} :
    g.shape.map f = .error d ↔ g.sets = .error d := by
  rw [sets]
  cases g.shape <;> simp [Except.map]

/-- The reason that is told is that of the first rule that is broken. -/
theorem mapError_sets_eq_error_iff {reason : String} :
    g.sets.mapError Defect.reason = .error reason ↔ FirstBroken g.rules reason := by
  have hshape : g.shape.mapError Defect.reason = .error reason ↔ FirstBroken g.rules reason := by
    rw [shape]
    simp only [← dite_eq_ite]
    -- One check for each rule, in their order.
    refine mapError_dite_eq_error_iff Iff.rfl fun _ => ?_
    refine mapError_dite_eq_error_iff Iff.rfl fun _ => ?_
    refine mapError_dite_eq_error_iff not_not.symm fun _ => ?_
    refine mapError_dite_eq_error_iff (by omega) fun _ => ?_
    refine mapError_dite_eq_error_iff not_not.symm fun _ => ?_
    refine mapError_dite_eq_error_iff not_not.symm fun _ => ?_
    refine mapError_dite_eq_error_iff not_lt.symm fun _ => ?_
    exact iff_of_false (fun h => by cases h) (not_firstBroken_nil reason)
  rw [← hshape, sets]
  cases g.shape <;> simp [Except.map, Except.mapError]

/-- A geometry is accepted if it is valid. -/
theorem exists_sets_eq_ok_iff : (∃ n, g.sets = .ok n) ↔ g.Valid := by
  rw [valid_iff, ← not_iff_not, ← exists_firstBroken_iff]
  simp only [← mapError_sets_eq_error_iff]
  cases g.sets <;> simp [Except.mapError]

/-- The sets of a valid geometry take up all entries. -/
theorem Valid.div_mul_cancel (h : g.Valid) :
    g.sizeInEntries / g.ways * g.ways = g.sizeInEntries :=
  Nat.div_mul_cancel (isPowerOfTwo_dvd h.sizeInEntries h.ways h.ways_le)

/-- The number of sets is that of an accepted shape. -/
theorem exists_shape_of_sets {n : Nat} (h : g.sets = .ok n) :
    ∃ s, g.shape = .ok s ∧ s.sets = n := by
  obtain ⟨s, hs, hn⟩ := exists_of_map_shape h
  exact ⟨s, hs, hn.symm⟩

/-- The number of sets is the one that leaves no entry over. -/
theorem sets_eq_ok_iff {n : Nat} :
    g.sets = .ok n ↔ g.Valid ∧ n * g.ways = g.sizeInEntries := by
  constructor
  · intro hn
    have hvalid := exists_sets_eq_ok_iff.1 ⟨n, hn⟩
    obtain ⟨s, hs, rfl⟩ := exists_shape_of_sets hn
    rw [(measures_of_shape hs).1]
    exact ⟨hvalid, hvalid.div_mul_cancel⟩
  · rintro ⟨hvalid, hn⟩
    obtain ⟨m, hm⟩ := exists_sets_eq_ok_iff.2 hvalid
    obtain ⟨s, hs, rfl⟩ := exists_shape_of_sets hm
    have hways := Nat.pos_of_isPowerOfTwo hvalid.ways
    rw [hm, (measures_of_shape hs).1, ← hn, Nat.mul_div_cancel n hways]

/-- What is exact about the validation of a geometry. -/
structure ValidatedExactly (g : Geometry) : Prop where
  ok_iff : (∃ n, g.sets = .ok n) ↔ g.Valid
  /-- No entry is left over. -/
  exact : ∀ n, g.sets = .ok n → n * g.ways = g.sizeInEntries ∧ n.isPowerOfTwo ∧ 1 ≤ n
  /-- Of several rules that are broken, the first one is told. -/
  error_iff : ∀ reason, g.sets.mapError Defect.reason = .error reason ↔ FirstBroken g.rules reason
  /-- A tag array fails with the same defect, whatever its policy. -/
  lruOfGeometry_iff : ∀ d, TagArray.lruOfGeometry g = .error d ↔ g.sets = .error d
  ofGeometry_iff : ∀ (P : Type) (p : P) d,
    TagArray.ofGeometry g p = .error d ↔ g.sets = .error d

/-- Every geometry is validated so, and every table is built if the geometry of its tag array is
    accepted, or else fails with the same defect. -/
theorem validation_is_exact :
    (∀ g, ValidatedExactly g) ∧
      ∀ (D : Type) (sizeInEntries ways addressBits : Nat) (d : Defect),
        (Table.new sizeInEntries ways addressBits : Except Defect (Table D (TagArray Lru))) =
            .error d ↔
          sets { sizeInEntries, ways, lineSize := 4, addressBits } = .error d := by
  refine ⟨fun g => ?_, fun D size ways bits d => map_shape_eq_error_iff⟩
  refine {
    ok_iff := exists_sets_eq_ok_iff
    exact := fun n hn => ?_
    error_iff := fun reason => mapError_sets_eq_error_iff
    lruOfGeometry_iff := fun d => ?_
    ofGeometry_iff := fun P p d => map_shape_eq_error_iff }
  · obtain ⟨s, -, rfl⟩ := exists_shape_of_sets hn
    exact ⟨(sets_eq_ok_iff.1 hn).2, s.isPowerOfTwo_sets, s.sets_pos⟩
  · rw [TagArray.lruOfGeometry_eq]
    exact map_shape_eq_error_iff

-- Nothing is right here, but the ways come first, and then the line.
example : (sets ⟨0, 0, 3, 0⟩).mapError Defect.reason =
    .error "number of ways must be non-zero" := rfl

end Geometry

end BranchPrediction
