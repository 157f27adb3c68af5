import BranchPrediction.Store.TagArray
import Mathlib

/-!
# The lines of a tag array

The set and the tag of an address are the remainder and the quotient of its line
by the number of sets, so that a tag in a slot is as good as the line itself. Seen
this way, a tag array holds a line or nothing in each way of a set (`lineAt`),
and an address has the way that holds its line (`wayOfLine`).

* `find_eq`: to search for an address is to search for its line;
* `Distinct`: no two ways of a set hold the same line, so that it does not
  matter which one is found first (`wayOfLine_eq_some_iff`);
* `wayOfLine_place`: to put a line into a way gives this way to the line and takes
  it from the line that held it. Nothing changes for any other line.
-/

namespace BranchPrediction

namespace Shape

/-- Two sets of two ways, for lines of an instruction. -/
def twoByTwo : Shape := ⟨2, 2, 4, 32, by decide, by decide, by decide, by decide, by decide⟩

variable (s : Shape)

/-- The set of a line is one of the shape. -/
theorem mod_sets_lt (l : Nat) : l % s.sets < s.sets := Nat.mod_lt _ s.sets_pos

/-- The tag of an address is that of its line, as long as the stride is a word. -/
theorem tag_eq (h : s.stride < UInt64.size) (a : Address) : s.tag a = .ok (s.line a / s.sets) := by
  rw [tag, if_pos h, s.masked_div_stride]

end Shape

namespace TagArray

variable {P : Type}

/-- The line whose tag is in a way of a set, if there is one. -/
def lineAt (t : TagArray P) (set way : Nat) : Option Nat :=
  (t.tagAt set way).map fun tag => t.shape.sets * tag + set

/-- The way that holds a line, if there is one. -/
def wayOfLine (t : TagArray P) (l : Nat) : Option Nat :=
  t.wayOf (l % t.shape.sets) (l / t.shape.sets)

/-- No two ways of a set hold the same line. -/
def Distinct (t : TagArray P) : Prop :=
  ∀ ⦃set way way' l : Nat⦄, way < t.shape.ways → way' < t.shape.ways →
    t.lineAt set way = some l → t.lineAt set way' = some l → way = way'

/-- Puts a line into a way of its set. -/
def place (t : TagArray P) (l way : Nat) : TagArray P :=
  { t with
    slots := t.slots.setIfInBounds (t.slot (l % t.shape.sets) way) (some (l / t.shape.sets)) }

/-- Puts the policy into another state. -/
def withPolicy (t : TagArray P) (p : P) : TagArray P := { t with policy := p }

variable {t : TagArray P} {set way l m : Nat}

@[simp] theorem shape_place : (t.place l way).shape = t.shape := rfl

@[simp] theorem lineAt_withPolicy (p : P) :
    (t.withPolicy p).lineAt set way = t.lineAt set way := rfl

@[simp] theorem wayOfLine_withPolicy (p : P) : (t.withPolicy p).wayOfLine l = t.wayOfLine l := rfl

/-- To search for an address is to search for its line. -/
theorem find_eq (h : t.shape.stride < UInt64.size) (a : Address) :
    t.find a = .ok (t.wayOfLine (t.shape.line a)) := by
  rw [find, t.shape.tag_eq h]
  rfl

/-! ## Slots -/

/-- Every set has slots for all of its ways. -/
theorem row_le (hset : set < t.shape.sets) :
    set * t.shape.ways + t.shape.ways ≤ t.shape.slots := by
  calc set * t.shape.ways + t.shape.ways = (set + 1) * t.shape.ways := (Nat.succ_mul ..).symm
    _ ≤ t.shape.sets * t.shape.ways := Nat.mul_le_mul_right _ hset

/-- Every way of every set has a slot. -/
theorem slot_lt (hset : set < t.shape.sets) (hway : way < t.shape.ways) :
    t.slot set way < t.shape.slots :=
  (Nat.add_lt_add_left hway _).trans_le (row_le hset)

/-- No two ways share a slot. -/
theorem slot_inj {set' way' : Nat} (hway : way < t.shape.ways) (hway' : way' < t.shape.ways) :
    t.slot set way = t.slot set' way' ↔ set = set' ∧ way = way' := by
  refine ⟨fun h => ?_, fun h => by rw [h.1, h.2]⟩
  have hmod : ∀ {s w : Nat}, w < t.shape.ways → t.slot s w % t.shape.ways = w := fun hw => by
    rw [slot, Nat.mul_comm, Nat.mul_add_mod, Nat.mod_eq_of_lt hw]
  have hw : way = way' := by rw [← hmod hway, h, hmod hway']
  subst hw
  exact ⟨Nat.eq_of_mul_eq_mul_right t.shape.ways_pos (Nat.add_right_cancel h), rfl⟩

/-- A way of a line's set holds the line if it holds its tag. -/
theorem tagAt_eq_some_iff :
    t.tagAt (l % t.shape.sets) way = some (l / t.shape.sets) ↔
      t.lineAt (l % t.shape.sets) way = some l := by
  rw [lineAt, Option.map_eq_some_iff]
  constructor
  · intro h
    exact ⟨_, h, Nat.div_add_mod ..⟩
  · rintro ⟨tag, htag, hl⟩
    have : l / t.shape.sets = tag := by
      rw [← hl, Nat.mul_add_div t.shape.sets_pos, Nat.div_eq_of_lt (t.shape.mod_sets_lt l),
        Nat.add_zero]
    rw [this, htag]

/-- Where no line is held twice, no tag is. -/
theorem Distinct.tag_inj {way' tag : Nat} (ht : t.Distinct) (hway : way < t.shape.ways)
    (hway' : way' < t.shape.ways) (h : t.tagAt set way = some tag)
    (h' : t.tagAt set way' = some tag) : way = way' := by
  have hl : t.lineAt set way = some (t.shape.sets * tag + set) := by
    rw [lineAt, h]
    rfl
  have hl' : t.lineAt set way' = some (t.shape.sets * tag + set) := by
    rw [lineAt, h']
    rfl
  exact ht hway hway' hl hl'

/-- A way without a tag holds no line. -/
theorem lineAt_eq_none_iff : t.lineAt set way = none ↔ t.tagAt set way = none :=
  Option.map_eq_none_iff

/-- A line is only held in its own set. -/
theorem mod_of_lineAt (hset : set < t.shape.sets) (h : t.lineAt set way = some l) :
    l % t.shape.sets = set := by
  obtain ⟨tag, -, rfl⟩ := Option.map_eq_some_iff.1 h
  rw [Nat.mul_add_mod, Nat.mod_eq_of_lt hset]

/-- After a line is put into a way, the way holds it, and all others hold what
    they held. -/
theorem lineAt_place {way' : Nat} (hway : way < t.shape.ways) (hway' : way' < t.shape.ways) :
    (t.place l way).lineAt set way' =
      if set = l % t.shape.sets ∧ way' = way then some l else t.lineAt set way' := by
  have hslot : ((t.place l way).slots[(t.place l way).slot set way']?).join =
      if t.slot (l % t.shape.sets) way = t.slot set way' then some (l / t.shape.sets)
      else t.tagAt set way' := by
    change ((t.slots.setIfInBounds _ _)[t.slot set way']?).join = _
    rw [Vector.getElem?_setIfInBounds, if_pos (slot_lt (t.shape.mod_sets_lt l) hway)]
    split
    · rfl
    · rfl
  rw [lineAt, tagAt, hslot]
  by_cases h : set = l % t.shape.sets ∧ way' = way
  · rw [if_pos h, if_pos ((slot_inj hway hway').2 ⟨h.1.symm, h.2.symm⟩), h.1]
    exact congrArg some (Nat.div_add_mod ..)
  · have hne : t.slot (l % t.shape.sets) way ≠ t.slot set way' := by
      intro h'
      obtain ⟨hs, hw⟩ := (slot_inj hway hway').1 h'
      exact h ⟨hs.symm, hw.symm⟩
    rw [if_neg h, if_neg hne]
    rfl

/-- A new tag array holds nothing. -/
@[simp] theorem lineAt_empty (shape : Shape) (p : P) (set way : Nat) :
    (empty shape p).lineAt set way = none := by
  have hnone (i : Nat) : ((Vector.replicate shape.slots (none : Option Nat))[i]?).join = none := by
    rw [Vector.getElem?_replicate]
    split <;> rfl
  have htag : (empty shape p).tagAt set way = none := hnone _
  rw [lineAt, htag]
  rfl

/-! ## Ways of lines -/

/-- A line is found only where it is held. -/
theorem lineAt_of_wayOfLine (h : t.wayOfLine l = some way) :
    way < t.shape.ways ∧ t.lineAt (l % t.shape.sets) way = some l := by
  have hfound := List.find?_some h
  have hmem := List.mem_of_find?_eq_some h
  exact ⟨List.mem_range.1 hmem, tagAt_eq_some_iff.1 (of_decide_eq_true hfound)⟩

/-- A line is not found if it is held nowhere. -/
theorem wayOfLine_eq_none_iff :
    t.wayOfLine l = none ↔ ∀ way < t.shape.ways, t.lineAt (l % t.shape.sets) way ≠ some l := by
  rw [wayOfLine, wayOf, List.find?_eq_none]
  refine forall_congr' fun way => ?_
  rw [List.mem_range, decide_eq_true_iff, tagAt_eq_some_iff]

/-- Where a line is held at most once, it is found where it is held. -/
theorem wayOfLine_eq_some_iff (ht : t.Distinct) :
    t.wayOfLine l = some way ↔ way < t.shape.ways ∧ t.lineAt (l % t.shape.sets) way = some l := by
  refine ⟨lineAt_of_wayOfLine, ?_⟩
  rintro ⟨hway, hl⟩
  rcases h : t.wayOfLine l with _ | way'
  · exact absurd hl (wayOfLine_eq_none_iff.1 h way hway)
  · obtain ⟨hway', hl'⟩ := lineAt_of_wayOfLine h
    rw [ht hway hway' hl hl']

/-- What is held in a way of a set is a line of this set that has this way. -/
theorem wayOfLine_of_lineAt (ht : t.Distinct) (hset : set < t.shape.sets)
    (hway : way < t.shape.ways) (h : t.lineAt set way = some l) :
    l % t.shape.sets = set ∧ t.wayOfLine l = some way := by
  have hl := mod_of_lineAt hset h
  subst hl
  exact ⟨rfl, (wayOfLine_eq_some_iff ht).2 ⟨hway, h⟩⟩

/-- A new tag array has a way for no line. -/
@[simp] theorem wayOfLine_empty (shape : Shape) (p : P) (l : Nat) :
    (empty shape p).wayOfLine l = none := by
  rw [wayOfLine_eq_none_iff]
  intro way _
  rw [lineAt_empty]
  exact Option.some_ne_none l |>.symm

/-- In a new tag array no line is held twice. -/
theorem distinct_empty (shape : Shape) (p : P) : (empty shape p).Distinct := by
  intro set way way' l _ _ h
  rw [lineAt_empty] at h
  cases h

/-- To put a line where it is changes nothing. -/
theorem place_of_wayOfLine (h : t.wayOfLine l = some way) : t.place l way = t := by
  obtain ⟨hway, hl⟩ := lineAt_of_wayOfLine h
  have hslot := slot_lt (t.shape.mod_sets_lt l) hway
  have htag : t.slots[t.slot (l % t.shape.sets) way] = some (l / t.shape.sets) := by
    have := tagAt_eq_some_iff.2 hl
    rw [tagAt, Vector.getElem?_eq_getElem hslot] at this
    exact this
  have hslots : t.slots.setIfInBounds (t.slot (l % t.shape.sets) way) (some (l / t.shape.sets)) =
      t.slots := by
    ext i hi : 1
    rw [Vector.getElem_setIfInBounds]
    split
    next hi' => subst hi'; exact htag.symm
    next => rfl
  rw [place, hslots]

section Place

variable (ht : t.Distinct) (hway : way < t.shape.ways)
  (hl : ∀ way', t.wayOfLine l = some way' → way' = way)
include ht hway hl

/-- A line that is put into the way it has, or that has none, is held once. -/
theorem Distinct.place : (t.place l way).Distinct := by
  -- A way that holds `l` beforehand is the one `l` is put into.
  have hold : ∀ {way'}, way' < t.shape.ways → t.lineAt (l % t.shape.sets) way' = some l →
      way' = way := fun hway' h => hl _ ((wayOfLine_eq_some_iff ht).2 ⟨hway', h⟩)
  intro set way₁ way₂ m hway₁ hway₂ h₁ h₂
  rw [lineAt_place hway hway₁] at h₁
  rw [lineAt_place hway hway₂] at h₂
  split at h₁
  next hs₁ =>
    obtain ⟨rfl, rfl⟩ := hs₁
    cases h₁
    split at h₂
    next hs₂ => exact hs₂.2.symm
    next => exact (hold hway₂ h₂).symm
  next =>
    split at h₂
    next hs₂ =>
      obtain ⟨rfl, rfl⟩ := hs₂
      cases h₂
      exact hold hway₁ h₁
    next => exact ht hway₁ hway₂ h₁ h₂

/-- The line that is put into a way gets this way, the line that held it loses
    it, and all other lines have the ways they had. -/
theorem wayOfLine_place :
    (t.place l way).wayOfLine m =
      if m = l then some way
      else if m % t.shape.sets = l % t.shape.sets ∧ t.wayOfLine m = some way then none
      else t.wayOfLine m := by
  have hplace := ht.place hway hl
  split
  next h =>
    subst h
    rw [wayOfLine_eq_some_iff hplace]
    exact ⟨hway, by rw [lineAt_place hway hway, if_pos ⟨rfl, rfl⟩]⟩
  next hne =>
    split
    next hm =>
      -- The way of `m` now holds `l`.
      rw [wayOfLine_eq_none_iff]
      intro way' hway'
      rw [shape_place, lineAt_place hway hway', hm.1]
      split
      next => exact fun h => hne (Option.some.inj h).symm
      next hway'' =>
        intro h
        rw [← hm.1] at h
        have hm' := (lineAt_of_wayOfLine hm.2).2
        exact hway'' ⟨rfl, ht hway' hway h hm'⟩
    next hm =>
      refine Option.ext fun way' => ?_
      rw [wayOfLine_eq_some_iff hplace, wayOfLine_eq_some_iff ht]
      refine and_congr_right fun hway' => ?_
      rw [shape_place, lineAt_place hway hway']
      split
      next hs =>
        obtain ⟨hs, rfl⟩ := hs
        refine ⟨fun h => absurd (Option.some.inj h).symm hne, fun h => ?_⟩
        exact absurd ⟨hs, (wayOfLine_eq_some_iff ht).2 ⟨hway', h⟩⟩ hm
      next => rfl

end Place

end TagArray

end BranchPrediction
