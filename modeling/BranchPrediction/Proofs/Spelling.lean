import BranchPrediction.Json.Token
import Mathlib.Data.List.Forall2

/-!
# Spelling strings and integers

The characters of a JSON string can be *spelt* in more than one way (`Text.Spells`): most stand
for themselves, some have an escape of one letter, and each has an escape by its number, or by
the numbers of a surrogate pair if it is too large for one. Whatever way is chosen for each
character, the string is read back (`Text.read?_of_spells`).

An integer is spelt by its decimal digits. It is read back if what follows is not taken for
more of the numeral (`Numeral.Ends`), and comes out whole below `UInt64.size`
(`Numeral.read?_toDigits`, `Numeral.number?_toDigits`).
-/

namespace BranchPrediction.Json

namespace Text

/-! ## Characters -/

/-- The value of a digit to the base sixteen, which may be a small or a capital letter. -/
def IsHexDigit (n : Nat) (c : Char) : Prop := n < 16 ∧ (c = n.digitChar ∨ c = n.digitChar.toUpper)

/-- The value of four digits to the base sixteen. -/
def Hex (n : Nat) (ds : List Char) : Prop :=
  List.Forall₂ IsHexDigit [n / 0x1000, n / 0x100 % 0x10, n / 0x10 % 0x10, n % 0x10] ds

/-- The characters that have an escape of one letter, each with this letter. -/
def letters : List (Char × Char) :=
  [('"', '"'), ('\\', '\\'), ('/', '/'), ('\x08', 'b'), ('\x0c', 'f'), ('\n', 'n'), ('\r', 'r'),
    ('\t', 't')]

/-- The first half of the surrogate pair of a large character. -/
def highHalf (c : Char) : Nat := 0xD800 + (c.toNat - 0x10000) / 0x400

/-- The second half of the surrogate pair of a large character. -/
def lowHalf (c : Char) : Nat := 0xDC00 + (c.toNat - 0x10000) % 0x400

/-- The ways to spell a character in a string. -/
inductive Spells : Char → List Char → Prop
  | plain {c : Char} : ' ' ≤ c → c ≠ '"' → c ≠ '\\' → Spells c [c]
  | letter {c l : Char} : (c, l) ∈ letters → Spells c ['\\', l]
  | unit {c : Char} {ds : List Char} : Hex c.toNat ds → Spells c ('\\' :: 'u' :: ds)
  | pair {c : Char} {ds es : List Char} : 0x10000 ≤ c.toNat → Hex (highHalf c) ds →
      Hex (lowHalf c) es → Spells c ('\\' :: 'u' :: ds ++ '\\' :: 'u' :: es)

/-- There are four digits for every unit. -/
theorem exists_hex {n : Nat} (h : n < 0x10000) : ∃ ds, Hex n ds := by
  have hex (m : Nat) (hm : m < 0x10) : IsHexDigit m m.digitChar := ⟨hm, .inl rfl⟩
  exact ⟨_, .cons (hex _ (by omega)) (.cons (hex _ (by omega)) (.cons (hex _ (by omega))
    (.cons (hex _ (by omega)) .nil)))⟩

/-- Every character can be spelt. -/
theorem exists_spells (c : Char) : ∃ text, Spells c text := by
  by_cases hmust : c = '"' ∨ c = '\\'
  · rcases hmust with rfl | rfl
    · exact ⟨_, .letter (l := '"') (by decide)⟩
    · exact ⟨_, .letter (l := '\\') (by decide)⟩
  · by_cases hc : ' ' ≤ c
    · exact ⟨_, .plain hc (fun h => hmust (.inl h)) fun h => hmust (.inr h)⟩
    · have hlt : c.toNat < 0x20 := Nat.lt_of_not_le hc
      obtain ⟨ds, hds⟩ := exists_hex (n := c.toNat) (by omega)
      exact ⟨_, .unit hds⟩

/-- A digit is read back. -/
theorem hexDigit?_of_isHexDigit {n : Nat} {c : Char} (h : IsHexDigit n c) :
    hexDigit? c = some n := by
  have hall : ∀ n < 16, hexDigit? n.digitChar = some n ∧
      hexDigit? n.digitChar.toUpper = some n := by decide
  obtain ⟨hn, rfl | rfl⟩ := h
  · exact (hall n hn).1
  · exact (hall n hn).2

/-- Four digits are read back. -/
theorem exists_unit_of_hex {n : Nat} {ds : List Char} (h : Hex n ds) :
    n < 0x10000 ∧ ∃ a b c d, ds = [a, b, c, d] ∧ unit? a b c d = some n := by
  simp only [Hex, List.forall₂_cons_left_iff, List.forall₂_nil_left_iff] at h
  obtain ⟨a, _, ha, ⟨b, _, hb, ⟨c, _, hc, ⟨d, _, hd, rfl, rfl⟩, rfl⟩, rfl⟩, rfl⟩ := h
  have hlt := ha.1
  refine ⟨by omega, a, b, c, d, rfl, ?_⟩
  simp only [unit?, hexDigit?_of_isHexDigit ha, hexDigit?_of_isHexDigit hb,
    hexDigit?_of_isHexDigit hc, hexDigit?_of_isHexDigit hd]
  refine congrArg some ?_
  omega

/-- A character that stands for itself is a piece. -/
theorem pieces?_plain {c : Char} (hc : ' ' ≤ c) (hquote : c ≠ '"') (hslash : c ≠ '\\')
    (rest : List Char) :
    pieces? (c :: rest) = (pieces? rest).map fun p => (.char c :: p.1, p.2) := by
  rw [pieces?.eq_5 c rest hquote (fun _ _ _ _ _ h _ => hslash h) (fun _ _ h _ => hslash h),
    if_pos hc]
  cases pieces? rest <;> rfl

/-- An escape of one letter is a piece. -/
theorem pieces?_letter {c l : Char} (h : (c, l) ∈ letters) (rest : List Char) :
    pieces? ('\\' :: l :: rest) = (pieces? rest).map fun p => (.char c :: p.1, p.2) := by
  have hletters : ∀ m ∈ letters, m.2 ≠ 'u' ∧ escaped? m.2 = some m.1 := by decide
  obtain ⟨hu, hescaped⟩ := hletters (c, l) h
  rw [pieces?.eq_4 l rest fun _ _ _ _ _ h _ => hu h, hescaped]
  cases pieces? rest <;> rfl

/-- An escape by number is a piece. -/
theorem pieces?_unit {n : Nat} {ds : List Char} (h : Hex n ds) (rest : List Char) :
    pieces? ('\\' :: 'u' :: ds ++ rest) =
      (pieces? rest).map fun p => (.unit n :: p.1, p.2) := by
  obtain ⟨-, a, b, c, d, rfl, hunit⟩ := exists_unit_of_hex h
  simp only [List.cons_append, List.nil_append, pieces?, hunit]
  cases pieces? rest <;> rfl

/-- A unit that is no half of a pair is a character. -/
theorem join?_unit {n : Nat} (hlow : ¬IsLowSurrogate n) (hhigh : ¬IsHighSurrogate n)
    (ps : List Piece) : join? (.unit n :: ps) = (join? ps).map (.ofNat n :: ·) := by
  rw [join?.eq_def]
  simp only [if_neg hlow, if_neg hhigh]

/-- Both halves of a pair are a character. -/
theorem join?_pair {n m : Nat} (hn : IsHighSurrogate n) (hm : IsLowSurrogate m)
    (ps : List Piece) :
    join? (.unit n :: .unit m :: ps) = (join? ps).map (pairChar n m :: ·) := by
  have hnot : ¬IsLowSurrogate n := fun h => Nat.not_le_of_lt hn.2 h.1
  rw [join?.eq_3, if_neg hnot, if_pos hn, if_pos hm]

/-- A character is no surrogate. -/
theorem not_surrogate (c : Char) : ¬IsLowSurrogate c.toNat ∧ ¬IsHighSurrogate c.toNat := by
  have hvalid := c.valid
  simp only [UInt32.isValidChar, Nat.isValidChar] at hvalid
  simp only [IsLowSurrogate, IsHighSurrogate, Char.toNat]
  omega

/-- The halves of the pair of a character are surrogates. -/
theorem surrogates (c : Char) : IsHighSurrogate (highHalf c) ∧ IsLowSurrogate (lowHalf c) := by
  have hvalid := c.valid
  simp only [UInt32.isValidChar, Nat.isValidChar] at hvalid
  simp only [IsLowSurrogate, IsHighSurrogate, highHalf, lowHalf, Char.toNat]
  omega

/-- A large character is that of its surrogate pair. -/
theorem pairChar_eq {c : Char} (h : 0x10000 ≤ c.toNat) : pairChar (highHalf c) (lowHalf c) = c := by
  have heq : 0x10000 + (highHalf c - 0xD800) * 0x400 + (lowHalf c - 0xDC00) = c.toNat := by
    simp only [highHalf, lowHalf]
    omega
  rw [pairChar, heq, Char.ofNat_toNat]

/-- However a character is spelt, its pieces make this character, and leave the rest of the
    text to itself. -/
theorem exists_pieces_of_spells {c : Char} {text : List Char} (h : Spells c text) :
    ∃ ps : List Piece,
      (∀ rest, pieces? (text ++ rest) = (pieces? rest).map fun p => (ps ++ p.1, p.2)) ∧
      ∀ qs, join? (ps ++ qs) = (join? qs).map (c :: ·) := by
  cases h with
  | plain hc hquote hslash => exact ⟨[.char c], pieces?_plain hc hquote hslash, fun _ => rfl⟩
  | letter hl => exact ⟨[.char c], pieces?_letter hl, fun _ => rfl⟩
  | unit hds =>
    refine ⟨[.unit c.toNat], pieces?_unit hds, fun qs => ?_⟩
    obtain ⟨hlow, hhigh⟩ := not_surrogate c
    rw [List.singleton_append, join?_unit hlow hhigh, Char.ofNat_toNat]
  | pair hc hds hes =>
    refine ⟨[.unit (highHalf c), .unit (lowHalf c)], fun rest => ?_, fun qs => ?_⟩
    · rw [List.append_assoc, pieces?_unit hds, pieces?_unit hes, Option.map_map]
      rfl
    · obtain ⟨hhigh, hlow⟩ := surrogates c
      simp only [List.cons_append, List.nil_append, join?_pair hhigh hlow, pairChar_eq hc]

/-! ## Strings -/

/-- However characters are spelt, their pieces up to the closing quote make these
    characters. -/
theorem exists_pieces_of_forall₂ {cs : List Char} {parts : List (List Char)}
    (h : List.Forall₂ Spells cs parts) (rest : List Char) :
    ∃ ps, pieces? (parts.flatten ++ '"' :: rest) = some (ps, rest) ∧ join? ps = some cs := by
  induction h with
  | nil => exact ⟨[], by simp only [List.flatten_nil, List.nil_append, pieces?], rfl⟩
  | cons hc _ ih =>
    obtain ⟨ps, hps, hjoin⟩ := ih
    obtain ⟨qs, hread, hchar⟩ := exists_pieces_of_spells hc
    refine ⟨qs ++ ps, ?_, ?_⟩
    · rw [List.flatten_cons, List.append_assoc, hread, hps, Option.map_some]
    · rw [hchar, hjoin, Option.map_some]

/-- However the characters of a string are spelt, the string is read up to the closing
    quote. -/
theorem read?_of_spells {s : String} {parts : List (List Char)}
    (h : List.Forall₂ Spells s.toList parts) (rest : List Char) :
    read? (parts.flatten ++ '"' :: rest) = some (s, rest) := by
  obtain ⟨ps, hps, hjoin⟩ := exists_pieces_of_forall₂ h rest
  rw [read?, hps]
  simp only [Option.bind_eq_bind, Option.bind_some, hjoin, String.ofList_toList, Option.pure_def]

/-- Every string can be spelt. -/
theorem exists_spells_all (cs : List Char) : ∃ parts, List.Forall₂ Spells cs parts := by
  induction cs with
  | nil => exact ⟨[], .nil⟩
  | cons c cs ih =>
    obtain ⟨parts, hparts⟩ := ih
    obtain ⟨text, htext⟩ := exists_spells c
    exact ⟨text :: parts, .cons htext hparts⟩

end Text

namespace Numeral

/-! ## Integers -/

/-- A character that is not taken for more of a numeral. -/
def Stops (c : Char) : Prop := c.isDigit = false ∧ c ≠ '.' ∧ c ≠ 'e' ∧ c ≠ 'E'

instance (c : Char) : Decidable (Stops c) := instDecidableAnd

/-- A numeral ends before this text. -/
def Ends (text : List Char) : Prop := ∀ c ∈ text.head?, Stops c

variable {n : Nat} {rest : List Char}

/-- An integer is spelt by digits, of which there is a first one. -/
theorem exists_toDigits_eq_cons (n : Nat) :
    ∃ d ds, Nat.toDigits 10 n = d :: ds ∧ d.isDigit = true := by
  obtain ⟨d, ds, hds⟩ := List.exists_cons_of_ne_nil (Nat.toDigits_ne_nil (n := n) (b := 10))
  have hd : d ∈ Nat.toDigits 10 n := hds ▸ List.mem_cons_self
  exact ⟨d, ds, hds, Nat.isDigit_of_mem_toDigits (by decide) (by decide) hd⟩

/-- The value of a digit is the number that it spells. -/
theorem digitValue_digitChar {d : Nat} (h : d < 10) : digitValue d.digitChar = d :=
  Nat.toNat_digitChar_sub_48_of_lt_ten h

/-- Only zero is spelt with a zero in front. -/
theorem eq_zero_of_head?_toDigits (h : (Nat.toDigits 10 n).head? = some '0') : n = 0 := by
  induction n using Nat.strongRecOn with
  | ind n ih =>
    rcases Nat.lt_or_ge n 10 with hn | hn
    · rw [Nat.toDigits_of_lt_base hn, List.head?_cons, Option.some.injEq] at h
      exact Nat.digitChar_eq_zero.1 h
    · rw [Nat.toDigits_of_base_le (by decide) hn, List.head?_append_of_ne_nil _ Nat.toDigits_ne_nil]
        at h
      have := ih (n / 10) (by omega) h
      omega

/-- The digits of an integer are taken off the text up to where the numeral ends. -/
theorem digits_toDigits (h : Ends rest) :
    digits (Nat.toDigits 10 n ++ rest) = (Nat.toDigits 10 n, rest) := by
  have hall (c : Char) (hc : c ∈ Nat.toDigits 10 n) : c.isDigit :=
    Nat.isDigit_of_mem_toDigits (by decide) (by decide) hc
  rw [digits, List.takeWhile_append_of_pos hall, List.dropWhile_append_of_pos hall]
  cases rest with
  | nil => rw [List.takeWhile_nil, List.append_nil, List.dropWhile_nil]
  | cons c rest =>
    have hc := (h c rfl).1
    rw [List.takeWhile_cons_of_neg (by simp [hc]), List.append_nil,
      List.dropWhile_cons_of_neg (by simp [hc])]

/-- An integer is read up to where the numeral ends. -/
theorem read?_toDigits (h : Ends rest) : read? (Nat.toDigits 10 n ++ rest) =
    some (⟨false, Nat.toDigits 10 n, [], none⟩, rest) := by
  have hminus : readMinus (Nat.toDigits 10 n ++ rest) = (false, Nat.toDigits 10 n ++ rest) := by
    obtain ⟨d, ds, hds, hd⟩ := exists_toDigits_eq_cons n
    rw [hds, List.cons_append, readMinus]
    intro _ heq
    rw [(List.cons.inj heq).1] at hd
    exact absurd hd (by decide)
  have hwhole : readWhole? (Nat.toDigits 10 n ++ rest) = some (Nat.toDigits 10 n, rest) := by
    have hzero : ¬((Nat.toDigits 10 n).head? = some '0' ∧ 1 < (Nat.toDigits 10 n).length) := by
      rintro ⟨hhead, hlen⟩
      rw [eq_zero_of_head?_toDigits hhead] at hlen
      exact absurd hlen (by decide)
    simp only [readWhole?, readDigits?, digits_toDigits h, if_neg Nat.toDigits_ne_nil,
      Option.bind_eq_bind, Option.bind_some, if_neg hzero]
  have hfraction : readFraction? rest = some ([], rest) := by
    rw [readFraction?]
    rintro cs rfl
    exact (h '.' rfl).2.1 rfl
  have hexponent : readExponent? rest = some (none, rest) := by
    cases rest with
    | nil => rfl
    | cons c cs =>
      obtain ⟨-, -, he, hE⟩ := h c rfl
      rw [readExponent?, if_neg (not_or.2 ⟨he, hE⟩)]
  simp only [read?, hminus, hwhole, hfraction, hexponent, Option.bind_eq_bind, Option.bind_some,
    Option.pure_def]

/-- The digits of an integer of 64 bits all fit. -/
theorem foldl_addWhole_toDigits (h : n < UInt64.size) :
    (Nat.toDigits 10 n).foldl (fun s c => s.addWhole (digitValue c)) ({} : Significand) =
      { value := n } := by
  induction n using Nat.strongRecOn with
  | ind n ih =>
    -- A digit that is added behind a number that fits makes one that fits, up to `n` itself.
    have hfits {v d : Nat} (hv : 10 * v + d = n) :
        ({ value := v } : Significand).addWhole d = { value := n } := by
      have hlt : 10 * v + d < UInt64.size := hv ▸ h
      rw [Significand.addWhole, if_pos ⟨rfl, hlt⟩, hv]
    rcases Nat.lt_or_ge n 10 with hn | hn
    · rw [Nat.toDigits_of_lt_base hn, List.foldl_cons, List.foldl_nil, digitValue_digitChar hn]
      exact hfits (Nat.zero_add n)
    · have hlast : n % 10 < 10 := Nat.mod_lt n (by decide)
      rw [Nat.toDigits_of_base_le (by decide) hn, List.foldl_append,
        ih (n / 10) (by omega) (by omega), List.foldl_cons, List.foldl_nil,
        digitValue_digitChar hlast]
      exact hfits (Nat.div_add_mod n 10)

/-- An integer of 64 bits is read whole. -/
theorem number?_toDigits (h : n < UInt64.size) :
    number? ⟨false, Nat.toDigits 10 n, [], none⟩ = some (.integer n) := by
  simp only [number?, foldl_addWhole_toDigits h]
  rfl

end Numeral

end BranchPrediction.Json
