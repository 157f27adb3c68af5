import Mathlib

/-!
# Byte order

Texts are ordered by their characters, and characters by their numbers. In UTF-8 this is the
order of the bytes: the first byte of a character says how many there are, more bytes
stand for greater numbers, and each byte holds the next digits of the number
(`utf8EncodeChar_lt`). Hence the order of texts is that of their bytes (`utf8_lt`), and it
makes no difference which of both a list of keys is sorted by.
-/

namespace BranchPrediction.Text

/-- The bytes of a text in UTF-8. -/
def utf8 (s : String) : List UInt8 := s.toByteArray.data.toList

/-- The bytes of a text are those of its characters. -/
theorem utf8_eq_flatMap (s : String) : utf8 s = s.toList.flatMap String.utf8EncodeChar := by
  rw [utf8, ← String.ofList_toList (s := s), String.toByteArray_ofList, List.utf8Encode,
    List.data_toByteArray, String.toList_ofList]

/-- A text is known from its bytes. -/
theorem utf8_inj {s t : String} : utf8 s = utf8 t ↔ s = t := by
  rw [utf8, utf8, Array.toList_inj, ← ByteArray.ext_iff, String.toByteArray_inj]

/-- Of two numbers, the smaller one has the smaller quotient, or else the same quotient and the
    smaller remainder. -/
theorem div_lt_or_mod_lt {m n : Nat} (h : m < n) (b : Nat) :
    m / b < n / b ∨ m / b = n / b ∧ m % b < n % b := by
  have hm := Nat.div_add_mod m b
  have hn := Nat.div_add_mod n b
  rcases (Nat.div_le_div_right (c := b) h.le).lt_or_eq with hlt | heq
  · exact .inl hlt
  · rw [heq] at hm
    exact .inr ⟨heq, by omega⟩

/-- The bytes of a smaller character come before those of a greater one, whatever follows. -/
theorem utf8EncodeChar_lt {c d : Char} (h : c < d) (xs ys : List UInt8) :
    String.utf8EncodeChar c ++ xs < String.utf8EncodeChar d ++ ys := by
  have hlt : c.val.toNat < d.val.toNat := h
  have hd : d.val.toNat < 0x110000 := by
    rcases d.valid with hd | ⟨-, hd⟩
    · exact hd.trans (by decide)
    · exact hd
  simp only [String.utf8EncodeChar]
  generalize c.val.toNat = m at *
  generalize d.val.toNat = n at *
  have hm : m < 0x110000 := hlt.trans hd
  -- What is put into a byte fits there.
  have hfirst (k : Nat) (hk : k < 0x110000) :
      (k / 262144 % 8 + 240) % 256 = k / 262144 + 240 := by omega
  have hrest (k : Nat) : (k % 64 + 128) % 256 = k % 64 + 128 := by omega
  -- The quotients of the numbers are compared from the last byte to the first.
  have hdigits (k : Nat) : k / 64 / 64 = k / 4096 ∧ k / 4096 / 64 = k / 262144 := by
    rw [Nat.div_div_eq_div_mul, Nat.div_div_eq_div_mul]
    exact ⟨rfl, rfl⟩
  have hlast := div_lt_or_mod_lt hlt 64
  have hthird (h : m / 64 < n / 64) := div_lt_or_mod_lt h 64
  have hsecond (h : m / 4096 < n / 4096) := div_lt_or_mod_lt h 64
  rw [(hdigits m).1, (hdigits n).1] at hthird
  rw [(hdigits m).2, (hdigits n).2] at hsecond
  split <;> split <;> (try split) <;> (try split) <;> (try split) <;> (try split) <;>
    simp only [List.cons_append, List.nil_append, List.cons_lt_cons_iff, UInt8.lt_iff_toNat_lt,
      ← UInt8.toNat_inj, UInt8.toNat_ofNat', hrest, hfirst m hm, hfirst n hd] <;>
    omega

/-- The order of texts is that of their bytes. -/
theorem utf8_lt {s t : String} (h : s < t) : utf8 s < utf8 t := by
  have hflat {cs ds : List Char} (h : List.Lex (· < ·) cs ds) :
      cs.flatMap String.utf8EncodeChar < ds.flatMap String.utf8EncodeChar := by
    induction h with
    | @nil d ds =>
      obtain ⟨b, bs, hd⟩ := List.exists_cons_of_ne_nil (String.utf8EncodeChar_ne_nil (c := d))
      rw [List.flatMap_cons, hd]
      exact List.nil_lt_cons b _
    | rel h => exact utf8EncodeChar_lt h _ _
    | cons _ ih => exact List.append_left_lt ih
  rw [utf8_eq_flatMap, utf8_eq_flatMap]
  exact hflat h

end BranchPrediction.Text
