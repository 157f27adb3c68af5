import BranchPrediction.Action
import BranchPrediction.Branch

/-!
# Geometry of a tag array

A tag array keeps `size` tags in *sets* of so many *ways*. An address keeps
its low bits only, `addressBits` of them, and all addresses of a *line* of
`lineSize` bytes share a tag. Consecutive lines fall into consecutive sets,
starting over behind the last one; the tag tells apart the lines of one set.

A `Geometry` is what was asked for. It is accepted if its size, ways and line
size are powers of two, no way is without an entry, and addresses have
between 1 and 64 bits; it then has a `Shape`. Otherwise the first `Defect`
in a fixed order of the rules is reported.
-/

namespace BranchPrediction

/-- The measures asked for. -/
structure Geometry where
  /-- The number of tags in all ways together. -/
  sizeInEntries : Nat
  /-- The number of ways of a set. -/
  ways : Nat
  /-- The bytes that one tag covers. -/
  lineSize : Nat
  /-- The number of low address bits that count. -/
  addressBits : Nat
  deriving DecidableEq

/-- The measures of a tag array that can be built. -/
structure Shape where
  /-- The number of sets. -/
  sets : Nat
  /-- The number of ways of a set. -/
  ways : Nat
  /-- The bytes that one tag covers. -/
  lineSize : Nat
  /-- The number of low address bits that count. -/
  addressBits : Nat
  isPowerOfTwo_sets : sets.isPowerOfTwo
  isPowerOfTwo_ways : ways.isPowerOfTwo
  isPowerOfTwo_lineSize : lineSize.isPowerOfTwo
  addressBits_pos : 1 ≤ addressBits
  addressBits_le : addressBits ≤ 64
  deriving DecidableEq

namespace Geometry

/-- The rule that a geometry breaks. -/
inductive Defect
  | noWays
  | noEntries
  | lineSize (bytes : Nat)
  | addressBits (bits : Nat)
  | entries (count : Nat)
  | ways (count : Nat)
  | moreWaysThanEntries (count capacity : Nat)
  deriving DecidableEq

/-- The defect as reported to whoever asked. -/
def Defect.reason : Defect → String
  | noWays => "number of ways must be non-zero"
  | noEntries => "size in entries must be non-zero"
  | lineSize bytes => s!"line size {bytes} is not a power of two"
  | addressBits bits => s!"address width {bits} is outside 1..=64 bits"
  | entries count => s!"size of {count} entries is not a power of two"
  | ways count => s!"{count} ways is not a power of two"
  | moreWaysThanEntries count capacity =>
    s!"{count} ways exceed the capacity of {capacity} entries"

/-- The quotient of a power of two by a smaller one is a power of two. -/
theorem isPowerOfTwo_div {m n : Nat} (hm : m.isPowerOfTwo) (hn : n.isPowerOfTwo) (h : n ≤ m) :
    (m / n).isPowerOfTwo := by
  obtain ⟨a, rfl⟩ := hm
  obtain ⟨b, rfl⟩ := hn
  have hb : b ≤ a := (Nat.pow_le_pow_iff_right (by decide)).1 h
  exact ⟨a - b, Nat.pow_div hb (by decide)⟩

/-- A power of two is divided by every smaller one. -/
theorem isPowerOfTwo_dvd {m n : Nat} (hm : m.isPowerOfTwo) (hn : n.isPowerOfTwo) (h : n ≤ m) :
    n ∣ m := by
  obtain ⟨a, rfl⟩ := hm
  obtain ⟨b, rfl⟩ := hn
  exact Nat.pow_dvd_pow 2 ((Nat.pow_le_pow_iff_right (by decide)).1 h)

/-- The shape of an accepted geometry, or the first rule that it breaks. -/
def shape (g : Geometry) : Except Defect Shape :=
  if g.ways = 0 then .error .noWays
  else if g.sizeInEntries = 0 then .error .noEntries
  else if hl : ¬g.lineSize.isPowerOfTwo then .error (.lineSize g.lineSize)
  else if hb : g.addressBits = 0 ∨ 64 < g.addressBits then .error (.addressBits g.addressBits)
  else if hs : ¬g.sizeInEntries.isPowerOfTwo then .error (.entries g.sizeInEntries)
  else if hw : ¬g.ways.isPowerOfTwo then .error (.ways g.ways)
  else if h : g.sizeInEntries < g.ways then
    .error (.moreWaysThanEntries g.ways g.sizeInEntries)
  else .ok {
    sets := g.sizeInEntries / g.ways
    ways := g.ways
    lineSize := g.lineSize
    addressBits := g.addressBits
    isPowerOfTwo_sets :=
      isPowerOfTwo_div (Decidable.not_not.1 hs) (Decidable.not_not.1 hw) (by omega)
    isPowerOfTwo_ways := Decidable.not_not.1 hw
    isPowerOfTwo_lineSize := Decidable.not_not.1 hl
    addressBits_pos := by omega
    addressBits_le := by omega }

/-- The number of sets of an accepted geometry, or the first rule that it breaks. -/
def sets (g : Geometry) : Except Defect Nat := g.shape.map Shape.sets

/-- An accepted geometry has the measures that were asked for. -/
theorem measures_of_shape {g : Geometry} {s : Shape} (h : g.shape = .ok s) :
    s.sets = g.sizeInEntries / g.ways ∧ s.ways = g.ways ∧ s.lineSize = g.lineSize ∧
      s.addressBits = g.addressBits := by
  unfold shape at h
  iterate 7
    split at h
    · cases h
  cases h
  exact ⟨rfl, rfl, rfl, rfl⟩

/-- What is built from the shape of a geometry is built from one if the geometry is
    accepted. -/
theorem exists_of_map_shape {α : Type} {g : Geometry} {f : Shape → α} {a : α}
    (h : g.shape.map f = .ok a) : ∃ s, g.shape = .ok s ∧ a = f s := by
  rcases hs : g.shape with d | s
  · rw [hs] at h
    cases h
  · rw [hs] at h
    cases h
    exact ⟨s, rfl, rfl⟩

end Geometry

namespace Shape

variable (s : Shape)

/-- The number of tags in all ways together. -/
def slots : Nat := s.sets * s.ways

/-- The part of an address that counts. -/
def masked (a : Address) : Nat := a.toNat % (1 <<< s.addressBits)

/-- The line that an address lies in. -/
def line (a : Address) : Nat := s.masked a / s.lineSize

/-- The set that an address belongs to. -/
def setIndex (a : Address) : Nat := s.line a % s.sets

/-- The bytes that one way covers: addresses this far apart are neighbours in
    a set. -/
def stride : Nat := s.lineSize * s.sets

/-- The tag of an address. It takes the stride to be a word of 64 bits, which
    not every shape grants. -/
def tag (a : Address) : Except Fault Nat :=
  if s.stride < UInt64.size then .ok (s.masked a / s.stride) else .error .strideOverflow

/-- There is a set. -/
theorem sets_pos : 0 < s.sets := Nat.pos_of_isPowerOfTwo s.isPowerOfTwo_sets

/-- A set has a way. -/
theorem ways_pos : 0 < s.ways := Nat.pos_of_isPowerOfTwo s.isPowerOfTwo_ways

/-- A line has a byte. -/
theorem lineSize_pos : 0 < s.lineSize := Nat.pos_of_isPowerOfTwo s.isPowerOfTwo_lineSize

/-- The set of an address is one of the shape. -/
theorem setIndex_lt (a : Address) : s.setIndex a < s.sets := Nat.mod_lt _ s.sets_pos

/-- In other words, the set and the tag are the remainder and the quotient of
    the line. -/
theorem masked_div_stride (a : Address) : s.masked a / s.stride = s.line a / s.sets := by
  simp [stride, line, Nat.div_div_eq_div_mul]

end Shape

end BranchPrediction
