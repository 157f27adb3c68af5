import BranchPrediction.Proofs.Spelling

/-!
# Laying out tokens

A text is *laid out* from tokens by spelling them one after the other, with any blanks before,
between and behind them (`Token.Laid`). The tokens are those that objects of strings and
integers are made of.

Whatever the blanks and the spellings, the tokens are read back (`Token.series?_of_laid`), if
they are such that no two numbers meet, which would be one numeral without a blank.
-/

namespace BranchPrediction.Json.Token

/-- The blanks that may stand between tokens. -/
def blanks : List Char := [' ', '\t', '\n', '\r']

/-- The ways to spell a token. -/
inductive Spells : Token → List Char → Prop
  | leftBrace : Spells .leftBrace ['{']
  | rightBrace : Spells .rightBrace ['}']
  | colon : Spells .colon [':']
  | comma : Spells .comma [',']
  | number {n : Nat} : n < UInt64.size → Spells (.number (.integer n)) (Nat.toDigits 10 n)
  | string {s : String} {parts : List (List Char)} : List.Forall₂ Text.Spells s.toList parts →
      Spells (.string s) ('"' :: parts.flatten ++ ['"'])

/-- The texts that tokens can be laid out in. -/
inductive Laid : List Token → List Char → Prop
  | nil {bs : List Char} : bs ⊆ blanks → Laid [] bs
  | cons {bs word text : List Char} {t : Token} {ts : List Token} : bs ⊆ blanks →
      Spells t word → Laid ts text → Laid (t :: ts) (bs ++ word ++ text)

/-- A token is a number. -/
def IsNumber (t : Token) : Prop := ∃ n, t = .number n

/-- Two tokens that may meet. -/
def Apart (t t' : Token) : Prop := t.IsNumber → ¬t'.IsNumber

/-- Whatever meets a token that is no number may do so. -/
theorem isChain_cons {t : Token} {ts : List Token} (ht : ¬t.IsNumber) (hts : ts.IsChain Apart) :
    (t :: ts).IsChain Apart := by
  cases ts with
  | nil => exact .singleton t
  | cons t' ts => exact .cons_cons (fun h => absurd h ht) hts

/-- A blank is known as one, and ends a numeral. -/
theorem isBlank_of_mem_blanks {b : Char} (h : b ∈ blanks) : isBlank b ∧ Numeral.Stops b := by
  simp only [blanks, List.mem_cons, List.not_mem_nil, or_false] at h
  rcases h with rfl | rfl | rfl | rfl <;> decide

/-- Blanks are passed over. -/
theorem series?_blanks {bs : List Char} (h : bs ⊆ blanks) (text : List Char) :
    series? (bs ++ text) = series? text := by
  induction bs with
  | nil => rfl
  | cons b bs ih =>
    obtain ⟨hb, hbs⟩ := List.cons_subset.1 h
    rw [List.cons_append, series?, if_pos (isBlank_of_mem_blanks hb).1, ih hbs]

/-- A token that is read is the first one, and the rest of the text makes up the others. -/
theorem series?_of_read? {c : Char} {cs rest : List Char} {t : Token} (hc : isBlank c = false)
    (h : read? c cs = some (t, rest)) : series? (c :: cs) = (series? rest).map (t :: ·) := by
  rw [series?, if_neg (by simp [hc])]
  split
  · next hnone => rw [h] at hnone; cases hnone
  · next t' rest' hsome =>
    rw [h] at hsome
    obtain ⟨rfl, rfl⟩ := Prod.mk.inj (Option.some.inj hsome)
    rfl

/-- A number is known by its first digit. -/
theorem read?_number {n : Nat} (hn : n < UInt64.size) {c : Char} {cs : List Char}
    (h : Nat.toDigits 10 n = c :: cs) (hc : c.isDigit = true) :
    isBlank c = false ∧ ∀ rest, Numeral.Ends rest →
      read? c (cs ++ rest) = some (.number (.integer n), rest) := by
  have hne (d : Char) (hd : d.isDigit = false) : c ≠ d := by
    rintro rfl
    rw [hd] at hc
    cases hc
  refine ⟨?_, fun rest hrest => ?_⟩
  · simp only [isBlank, hne ' ' rfl, hne '\t' rfl, hne '\n' rfl, hne '\r' rfl]
    rfl
  · rw [read?, if_neg (hne '"' rfl), if_pos (.inr hc), ← List.cons_append, ← h,
      Numeral.read?_toDigits hrest]
    simp only [Option.bind_eq_bind, Option.bind_some, Numeral.number?_toDigits hn,
      Option.pure_def]

/-- A spelling is read up to its end, and unless it is that of a number, a numeral ends before
    it. -/
theorem exists_read_of_spells {t : Token} {word : List Char} (h : Spells t word) :
    ∃ c cs, word = c :: cs ∧ isBlank c = false ∧ (¬t.IsNumber → Numeral.Stops c) ∧
      ∀ rest, (t.IsNumber → Numeral.Ends rest) → read? c (cs ++ rest) = some (t, rest) := by
  cases h with
  | leftBrace => exact ⟨'{', [], rfl, by decide, fun _ => by decide, fun _ _ => rfl⟩
  | rightBrace => exact ⟨'}', [], rfl, by decide, fun _ => by decide, fun _ _ => rfl⟩
  | colon => exact ⟨':', [], rfl, by decide, fun _ => by decide, fun _ _ => rfl⟩
  | comma => exact ⟨',', [], rfl, by decide, fun _ => by decide, fun _ _ => rfl⟩
  | @number n hn =>
    obtain ⟨c, cs, hcs, hdigit⟩ := Numeral.exists_toDigits_eq_cons n
    obtain ⟨hc, hread⟩ := read?_number hn hcs hdigit
    have hnumber : IsNumber (.number (.integer n)) := ⟨_, rfl⟩
    exact ⟨c, cs, hcs, hc, fun h => absurd hnumber h, fun rest h => hread rest (h hnumber)⟩
  | @string s parts hparts =>
    refine ⟨'"', parts.flatten ++ ['"'], rfl, by decide, fun _ => by decide, fun rest _ => ?_⟩
    rw [read?, if_pos rfl, List.append_assoc, List.singleton_append, Text.read?_of_spells hparts]
    rfl

/-- A numeral ends before tokens of which the first is not a number. -/
theorem ends_of_laid {ts : List Token} {text : List Char} (h : Laid ts text)
    (hts : ∀ t ∈ ts.head?, ¬t.IsNumber) : Numeral.Ends text := by
  cases h with
  | nil hbs => exact fun c hc => (isBlank_of_mem_blanks (hbs (List.mem_of_mem_head? hc))).2
  | @cons bs word text t ts hbs hword htext =>
    obtain ⟨c, cs, rfl, -, hstops, -⟩ := exists_read_of_spells hword
    cases bs with
    | nil =>
      intro d hd
      obtain rfl : c = d := Option.some.inj hd
      exact hstops (hts t rfl)
    | cons b bs =>
      intro d hd
      obtain rfl : b = d := Option.some.inj hd
      exact (isBlank_of_mem_blanks (hbs List.mem_cons_self)).2

/-- Tokens are read back from whatever text they are laid out in. -/
theorem series?_of_laid {ts : List Token} {text : List Char} (h : Laid ts text)
    (hts : ts.IsChain Apart) : series? text = some ts := by
  induction h with
  | @nil bs hbs => rw [← List.append_nil bs, series?_blanks hbs, series?]
  | @cons bs word text t ts hbs hword htext ih =>
    obtain ⟨c, cs, rfl, hc, -, hread⟩ := exists_read_of_spells hword
    -- Behind a number is a blank, the end, or a token that is no number.
    have hends (ht : t.IsNumber) : Numeral.Ends text := by
      refine ends_of_laid htext fun t' ht' => ?_
      cases ts with
      | nil => cases ht'
      | cons t'' ts =>
        obtain rfl : t'' = t' := Option.some.inj ht'
        exact (List.isChain_cons_cons.1 hts).1 ht
    rw [List.append_assoc, series?_blanks hbs, List.cons_append,
      series?_of_read? hc (hread text hends), ih hts.of_cons]
    rfl

/-- Tokens that can be spelt can be laid out. -/
theorem exists_laid {ts : List Token} (h : ∀ t ∈ ts, ∃ word, Spells t word) :
    ∃ text, Laid ts text := by
  induction ts with
  | nil => exact ⟨[], .nil (List.nil_subset _)⟩
  | cons t ts ih =>
    obtain ⟨word, hword⟩ := h t List.mem_cons_self
    obtain ⟨text, htext⟩ := ih fun t ht => h t (List.mem_cons_of_mem _ ht)
    exact ⟨_, .cons (List.nil_subset _) hword htext⟩

end BranchPrediction.Json.Token
