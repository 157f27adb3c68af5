import BranchPrediction.Config.Document
import BranchPrediction.Proofs.ByteOrder

/-!
# The schema of configurations

Every key of an object has a *last value* (`Json.lastValue?`), and nothing else of the object
counts. It *conforms* if the key is that of a field and the value one that the field takes
(`Config.Conforms`); otherwise it *causes* a defect (`Config.Causes`).

* If all keys conform, the object is a configuration: every field has the last value of its
  key, or its default if the key is missing (`Config.ofMembers_of_conforms`).
* Otherwise the defect is that of the first key that does not conform, in the order of the
  bytes (`Config.ofMembers_of_firstFault`).

Both are about the members sorted by key, which are taken in one by one: a member that
conforms sets its own field and no other (`Config.member_of_takes`), and the first one that
does not is where this ends (`Config.member_of_causes`).
-/

namespace BranchPrediction

open Json (Number Value)

namespace Json

/-- The value of the last member with a key. -/
def lastValue? (members : List (String × Value)) (key : String) : Option Value :=
  members.findSomeRev? fun m => if m.1 = key then some m.2 else none

/-- The last value of a key is that of a member. -/
theorem mem_of_lastValue? {members : List (String × Value)} {key : String} {v : Value}
    (h : lastValue? members key = some v) : (key, v) ∈ members := by
  rw [lastValue?, List.findSomeRev?_eq_findSome?_reverse] at h
  obtain ⟨m, hm, hv⟩ := List.exists_of_findSome?_eq_some h
  split at hv
  · next hkey =>
    obtain rfl := Option.some.inj hv
    exact hkey ▸ List.mem_reverse.1 hm
  · cases hv

/-- Only a key that no member has is without a last value. -/
theorem lastValue?_eq_none_iff {members : List (String × Value)} {key : String} :
    lastValue? members key = none ↔ ∀ v, (key, v) ∉ members := by
  rw [lastValue?, List.findSomeRev?_eq_findSome?_reverse, List.findSome?_eq_none_iff]
  refine ⟨fun h v hv => ?_, fun h m hm => ?_⟩
  · have := h _ (List.mem_reverse.2 hv)
    rw [if_pos rfl] at this
    cases this
  · rw [if_neg]
    rintro rfl
    exact h m.2 (List.mem_reverse.1 hm)

/-- Two values say the same: where they are objects, each key has last values that say the
    same, or none in both. -/
inductive Value.Alike : Value → Value → Prop
  | null : Alike .null .null
  | boolean (b : Bool) : Alike (.boolean b) (.boolean b)
  | number (n : Number) : Alike (.number n) (.number n)
  | string (s : String) : Alike (.string s) (.string s)
  | array {items items' : List Value} : items.length = items'.length →
      (∀ (i : Nat) (v w : Value), items[i]? = some v → items'[i]? = some w → Alike v w) →
      Alike (.array items) (.array items')
  | object {members members' : List (String × Value)} :
      (∀ key, (lastValue? members key).isSome = (lastValue? members' key).isSome) →
      (∀ key v w, lastValue? members key = some v → lastValue? members' key = some w →
        Alike v w) →
      Alike (.object members) (.object members')

/-- To say the same goes both ways. -/
theorem Value.Alike.symm {v w : Value} (h : v.Alike w) : w.Alike v := by
  induction h with
  | null => exact .null
  | boolean b => exact .boolean b
  | number n => exact .number n
  | string s => exact .string s
  | array hlength _ ih => exact .array hlength.symm fun i v w hv hw => ih i w v hw hv
  | object hsome _ ih =>
    exact .object (fun key => (hsome key).symm) fun key v w hv hw => ih key w v hw hv

/-- In objects that say the same, the last values of a key do. -/
theorem exists_lastValue_of_alike {members members' : List (String × Value)} {key : String}
    {v : Value} (h : (Value.object members).Alike (.object members'))
    (hv : lastValue? members key = some v) :
    ∃ w, lastValue? members' key = some w ∧ v.Alike w := by
  cases h with
  | object hsome halike =>
    have hw := hsome key
    rw [hv, Option.isSome_some] at hw
    obtain ⟨w, hw⟩ := Option.isSome_iff_exists.1 hw.symm
    exact ⟨w, hw, halike key v w hv hw⟩

end Json

open Json (lastValue? exists_lastValue_of_alike)

namespace Config

/-! ## Fields -/

/-- The values that a field takes. -/
def Field.Takes : Field → Value → Prop
  | .mode, v => ∃ s, v = .string s
  | .sizeInEntries, v | .ways, v => ∃ n : Nat, n < 2 ^ 64 ∧ v = .number (.integer n)
  | .addressBits, v => ∃ n : Nat, n < 2 ^ 32 ∧ v = .number (.integer n)

/-- The value of a field of a configuration. -/
def value (c : Config) : Field → Value
  | .mode => .string c.mode
  | .sizeInEntries => .number (.integer c.sizeInEntries.toNat)
  | .ways => .number (.integer c.ways.toNat)
  | .addressBits => .number (.integer c.addressBits.toNat)

/-- A configuration is known from the values of its fields. -/
theorem eq_of_value_eq {c c' : Config} (h : ∀ f, c.value f = c'.value f) : c = c' := by
  have hmode := h .mode
  have hsize := h .sizeInEntries
  have hways := h .ways
  have hbits := h .addressBits
  simp only [value, Value.string.injEq, Value.number.injEq, Number.integer.injEq, Nat.cast_inj,
    UInt64.toNat_inj, UInt32.toNat_inj] at hmode hsize hways hbits
  obtain ⟨mode, size, ways, bits⟩ := c
  obtain ⟨mode', size', ways', bits'⟩ := c'
  simp only at hmode hsize hways hbits
  rw [hmode, hsize, hways, hbits]

/-- A key and a value are as the schema has them. -/
def Conforms (key : String) (v : Value) : Prop := ∃ f : Field, f.key = key ∧ f.Takes v

/-- What is wrong with a key and a value. -/
inductive Causes : String → Value → Defect → Prop
  | unknownField {key : String} {v : Value} : (∀ f : Field, f.key ≠ key) →
      Causes key v (.unknownField key)
  | invalidType {f : Field} {v : Value} : ¬f.Takes v →
      (f = .mode ∨ ∀ n, v ≠ .number (.integer n)) → Causes f.key v (.invalidType f v)
  | invalidValue {f : Field} {n : Int} : ¬f.Takes (.number (.integer n)) → f ≠ .mode →
      Causes f.key (.number (.integer n)) (.invalidValue f n)

/-- Fields have different keys. -/
theorem Field.key_inj {f f' : Field} (h : f.key = f'.key) : f = f' :=
  Option.some.inj (by rw [← ofKey?_key, h, ofKey?_key])

/-- A key that is that of no field is not found. -/
theorem Field.ofKey?_eq_none {key : String} (h : ∀ f : Field, f.key ≠ key) :
    ofKey? key = none := by
  rw [ofKey?, List.find?_eq_none]
  intro f _
  rw [decide_eq_true_eq]
  exact h f

/-- What does not conform causes a defect. -/
theorem exists_causes {key : String} {v : Value} (h : ¬Conforms key v) : ∃ d, Causes key v d := by
  by_cases hkey : ∃ f : Field, f.key = key
  · obtain ⟨f, rfl⟩ := hkey
    have hnot : ¬f.Takes v := fun ht => h ⟨f, rfl, ht⟩
    by_cases hint : f ≠ .mode ∧ ∃ n, v = .number (.integer n)
    · obtain ⟨hf, n, rfl⟩ := hint
      exact ⟨_, .invalidValue hnot hf⟩
    · refine ⟨_, .invalidType hnot ?_⟩
      rcases Decidable.em (f = .mode) with hf | hf
      · exact .inl hf
      · exact .inr fun n hn => hint ⟨hf, n, hn⟩
  · exact ⟨_, .unknownField fun f hf => hkey ⟨f, hf⟩⟩

/-! ## Members -/

/-- An integer that a field can hold is read. -/
theorem integer?_of_lt (f : Field) {limit n : Nat} (h : n < limit) :
    integer? f limit (.number (.integer n)) = .ok n := by
  rw [integer?, if_pos ⟨Int.natCast_nonneg n, Int.ofNat_lt.2 h⟩, Int.toNat_natCast]

/-- An integer that a field cannot hold is a defect. -/
theorem integer?_of_not_lt (f : Field) {limit : Nat} {n : Int}
    (h : ¬∃ m : Nat, m < limit ∧ Value.number (.integer n) = .number (.integer m)) :
    integer? f limit (.number (.integer n)) = .error (.invalidValue f n) := by
  rw [integer?, if_neg]
  rintro ⟨hn, hlt⟩
  obtain ⟨m, rfl⟩ := Int.eq_ofNat_of_zero_le hn
  exact h ⟨m, Int.ofNat_lt.1 hlt, rfl⟩

/-- What is no integer is a defect of a field that takes integers. -/
theorem integer?_of_ne (f : Field) (limit : Nat) {v : Value}
    (h : ∀ n, v ≠ .number (.integer n)) : integer? f limit v = .error (.invalidType f v) := by
  rw [integer?]
  exact h

/-- A field is set to a value that it takes, and no other field is changed. -/
theorem member_of_takes {f : Field} {v : Value} (h : f.Takes v) (c : Config) :
    ∃ c', member c (f.key, v) = .ok c' ∧ c'.value f = v ∧
      ∀ f', f' ≠ f → c'.value f' = c.value f' := by
  rw [member, Field.ofKey?_key]
  cases f with
  | mode =>
    obtain ⟨s, rfl⟩ := h
    refine ⟨{ c with mode := s }, rfl, rfl, ?_⟩
    rintro (_ | _ | _ | _) hf <;> first | rfl | exact absurd rfl hf
  | sizeInEntries =>
    obtain ⟨n, hn, rfl⟩ := h
    refine ⟨{ c with sizeInEntries := .ofNat n }, ?_, ?_, ?_⟩
    · simp only [assign, integer?_of_lt .sizeInEntries (show n < UInt64.size from hn)]
      rfl
    · simp only [value, UInt64.toNat_ofNat_of_lt' hn]
    · rintro (_ | _ | _ | _) hf <;> first | rfl | exact absurd rfl hf
  | ways =>
    obtain ⟨n, hn, rfl⟩ := h
    refine ⟨{ c with ways := .ofNat n }, ?_, ?_, ?_⟩
    · simp only [assign, integer?_of_lt .ways (show n < UInt64.size from hn)]
      rfl
    · simp only [value, UInt64.toNat_ofNat_of_lt' hn]
    · rintro (_ | _ | _ | _) hf <;> first | rfl | exact absurd rfl hf
  | addressBits =>
    obtain ⟨n, hn, rfl⟩ := h
    refine ⟨{ c with addressBits := .ofNat n }, ?_, ?_, ?_⟩
    · simp only [assign, integer?_of_lt .addressBits (show n < UInt32.size from hn)]
      rfl
    · simp only [value, UInt32.toNat_ofNat_of_lt' hn]
    · rintro (_ | _ | _ | _) hf <;> first | rfl | exact absurd rfl hf

/-- A defect is what a member that causes it ends in. -/
theorem member_of_causes {key : String} {v : Value} {d : Defect} (h : Causes key v d)
    (c : Config) : member c (key, v) = .error d := by
  cases h with
  | unknownField hkey => rw [member, Field.ofKey?_eq_none hkey]
  | @invalidType f _ hnot hkind =>
    rw [member, Field.ofKey?_key]
    cases f with
    | mode =>
      cases v with
      | string s => exact absurd ⟨s, rfl⟩ hnot
      | _ => rfl
    | _ =>
      have hint := hkind.resolve_left nofun
      simp only [assign, integer?_of_ne _ _ hint]
      rfl
  | @invalidValue f n hnot hf =>
    rw [member, Field.ofKey?_key]
    cases f with
    | mode => exact absurd rfl hf
    | sizeInEntries | ways =>
      have hnot : ¬∃ m : Nat, m < UInt64.size ∧ _ := hnot
      simp only [assign, integer?_of_not_lt _ hnot]
      rfl
    | addressBits =>
      have hnot : ¬∃ m : Nat, m < UInt32.size ∧ _ := hnot
      simp only [assign, integer?_of_not_lt _ hnot]
      rfl

/-! ## Objects -/

/-- The members by key are those with the last values. -/
theorem mem_lastValues_iff {members : List (String × Value)} {key : String} {v : Value} :
    (key, v) ∈ (lastValues members).toList ↔ lastValue? members key = some v := by
  rw [Std.TreeMap.mem_toList_iff_getElem?_eq_some, lastValues,
    Std.TreeMap.ofList_eq_insertMany_empty, Std.TreeMap.getElem?_insertMany_list]
  simp [lastValue?]

/-- The members by key are in the order of their keys. -/
theorem pairwise_lastValues (members : List (String × Value)) :
    (lastValues members).toList.Pairwise fun a b => a.1 < b.1 :=
  Std.TreeMap.ordered_keys_toList.imp fun h => compare_lt_iff_lt.1 h

/-- Members that conform are all taken in: the field of each of them has its value, and the
    other fields keep theirs. -/
theorem foldlM_member_of_conforms {ms : List (String × Value)}
    (h : ∀ m ∈ ms, Conforms m.1 m.2) (hms : ms.Pairwise fun a b => a.1 < b.1) (c : Config) :
    ∃ c', ms.foldlM member c = .ok c' ∧ ∀ f : Field,
      (∀ v, (f.key, v) ∈ ms → c'.value f = v) ∧
        ((∀ v, (f.key, v) ∉ ms) → c'.value f = c.value f) := by
  induction ms generalizing c with
  | nil => exact ⟨c, rfl, fun f => ⟨fun v hv => absurd hv List.not_mem_nil, fun _ => rfl⟩⟩
  | cons m ms ih =>
    obtain ⟨key, v⟩ := m
    rw [List.pairwise_cons] at hms
    obtain ⟨g, rfl, htakes⟩ := h _ List.mem_cons_self
    obtain ⟨c₁, hc₁, hself, hother⟩ := member_of_takes htakes c
    obtain ⟨c₂, hc₂, hvalues⟩ := ih (fun m hm => h m (List.mem_cons_of_mem _ hm)) hms.2 c₁
    -- The key does not come again, as the keys go up.
    have hfresh (w : Value) : (g.key, w) ∉ ms := fun hw =>
      lt_irrefl g.key (hms.1 (g.key, w) hw)
    refine ⟨c₂, ?_, fun f => ⟨fun w hw => ?_, fun hw => ?_⟩⟩
    · rw [List.foldlM_cons, hc₁]
      exact hc₂
    · rcases List.mem_cons.1 hw with heq | hw
      · obtain ⟨hkey, rfl⟩ := Prod.mk.inj heq
        obtain rfl := Field.key_inj hkey
        rw [(hvalues f).2 hfresh, hself]
      · exact (hvalues f).1 w hw
    · rw [(hvalues f).2 fun w hmem => hw w (List.mem_cons_of_mem _ hmem)]
      refine hother f ?_
      rintro rfl
      exact hw v List.mem_cons_self

/-- The first member that does not conform is where the members end. -/
theorem foldlM_member_of_causes {before after : List (String × Value)} {key : String} {v : Value}
    {d : Defect} (h : ∀ m ∈ before, Conforms m.1 m.2)
    (hms : before.Pairwise fun a b => a.1 < b.1) (hd : Causes key v d) (c : Config) :
    (before ++ (key, v) :: after).foldlM member c = .error d := by
  obtain ⟨c', hc', -⟩ := foldlM_member_of_conforms h hms c
  rw [List.foldlM_append, hc']
  change (member c' (key, v) >>= fun c => after.foldlM member c) = _
  rw [member_of_causes hd]
  rfl

/-- Of the keys that do not conform, this is the one whose bytes come first, and `d` is the
    defect that it causes. -/
structure FirstFault (members : List (String × Value)) (key : String) (v : Value) (d : Defect) :
    Prop where
  last : lastValue? members key = some v
  causes : Causes key v d
  first : ∀ key' v', lastValue? members key' = some v' → ¬Conforms key' v' →
    key' = key ∨ Text.utf8 key < Text.utf8 key'

variable {members : List (String × Value)}

/-- An object whose keys all conform is a configuration with the last values, and defaults for
    the rest. -/
theorem ofMembers_of_conforms
    (h : ∀ key v, lastValue? members key = some v → Conforms key v) :
    ∃ c, ofMembers members = .ok c ∧
      ∀ f : Field, c.value f = (lastValue? members f.key).getD (({} : Config).value f) := by
  have hmem (m : String × Value) (hm : m ∈ (lastValues members).toList) : Conforms m.1 m.2 :=
    h _ _ (mem_lastValues_iff.1 hm)
  obtain ⟨c, hc, hvalues⟩ := foldlM_member_of_conforms hmem (pairwise_lastValues members) {}
  refine ⟨c, hc, fun f => ?_⟩
  rcases hlast : lastValue? members f.key with _ | v
  · refine (hvalues f).2 fun v hv => ?_
    rw [mem_lastValues_iff, hlast] at hv
    cases hv
  · exact (hvalues f).1 v (mem_lastValues_iff.2 hlast)

/-- Any other object ends in the defect of the first key that does not conform. -/
theorem ofMembers_of_firstFault {key : String} {v : Value} {d : Defect}
    (h : FirstFault members key v d) : ofMembers members = .error d := by
  have hpair := pairwise_lastValues members
  obtain ⟨before, after, hsplit⟩ := List.append_of_mem (mem_lastValues_iff.2 h.last)
  rw [hsplit, List.pairwise_append] at hpair
  rw [ofMembers, hsplit]
  refine foldlM_member_of_causes (fun m hm => ?_) hpair.1 h.causes {}
  have hlt := hpair.2.2 m hm _ List.mem_cons_self
  have hlast : lastValue? members m.1 = some m.2 :=
    mem_lastValues_iff.1 (hsplit ▸ List.mem_append_left _ hm)
  by_contra hnot
  rcases h.first m.1 m.2 hlast hnot with heq | hbytes
  · exact lt_irrefl _ (heq ▸ hlt)
  · exact List.lt_asymm hbytes (Text.utf8_lt hlt)

/-- If not all keys conform, one of them is the first. -/
theorem exists_firstFault (h : ¬∀ key v, lastValue? members key = some v → Conforms key v) :
    ∃ key v d, FirstFault members key v d := by
  classical
  have hpair := pairwise_lastValues members
  rcases hfind : (lastValues members).toList.find? fun m => ¬Conforms m.1 m.2 with _ | ⟨key, v⟩
  · rw [List.find?_eq_none] at hfind
    refine absurd (fun key v hlast => ?_) h
    have := hfind _ (mem_lastValues_iff.2 hlast)
    simpa using this
  · obtain ⟨hnot, before, after, hsplit, hbefore⟩ := List.find?_eq_some_iff_append.1 hfind
    rw [decide_eq_true_eq] at hnot
    obtain ⟨d, hd⟩ := exists_causes hnot
    rw [hsplit, List.pairwise_append, List.pairwise_cons] at hpair
    refine ⟨key, v, d, mem_lastValues_iff.1 (List.mem_of_find?_eq_some hfind), hd, ?_⟩
    intro key' v' hlast hnot'
    have hmem := mem_lastValues_iff.2 hlast
    rw [hsplit, List.mem_append, List.mem_cons] at hmem
    rcases hmem with hmem | heq | hmem
    · exact absurd hnot' (by simpa using hbefore _ hmem)
    · exact .inl (Prod.mk.inj heq).1
    · exact .inr (Text.utf8_lt (hpair.2.1.1 _ hmem))

/-- An object that is read is a configuration iff all keys conform. -/
theorem exists_ofMembers_eq_ok_iff :
    (∃ c, ofMembers members = .ok c) ↔
      ∀ key v, lastValue? members key = some v → Conforms key v := by
  refine ⟨fun ⟨c, hc⟩ => ?_, fun h => ?_⟩
  · by_contra h
    obtain ⟨key, v, d, hfault⟩ := exists_firstFault h
    rw [ofMembers_of_firstFault hfault] at hc
    cases hc
  · obtain ⟨c, hc, -⟩ := ofMembers_of_conforms h
    exact ⟨c, hc⟩

/-- An object that is read ends in the defect of the first key that does not conform. -/
theorem ofMembers_eq_error_iff {d : Defect} :
    ofMembers members = .error d ↔ ∃ key v, FirstFault members key v d := by
  refine ⟨fun hd => ?_, fun ⟨_, _, h⟩ => ofMembers_of_firstFault h⟩
  have hnot : ¬∀ key v, lastValue? members key = some v → Conforms key v := by
    intro h
    obtain ⟨c, hc, -⟩ := ofMembers_of_conforms h
    rw [hc] at hd
    cases hd
  obtain ⟨key, v, d', hfault⟩ := exists_firstFault hnot
  rw [ofMembers_of_firstFault hfault] at hd
  cases hd
  exact ⟨key, v, hfault⟩

/-! ## Objects that say the same -/

section

variable {members' : List (String × Value)} {key : String} {v w : Value} {d : Defect}

/-- A value that a field takes is alike to itself only. -/
theorem Field.Takes.eq_of_alike {f : Field} (h : f.Takes v) (hvw : v.Alike w) : w = v := by
  cases f with
  | mode =>
    obtain ⟨s, rfl⟩ := h
    cases hvw
    rfl
  | _ =>
    obtain ⟨n, -, rfl⟩ := h
    cases hvw
    rfl

/-- Alike values conform alike. -/
theorem Conforms.of_alike (h : Conforms key v) (hvw : v.Alike w) : Conforms key w := by
  obtain ⟨f, hf, htakes⟩ := h
  exact ⟨f, hf, htakes.eq_of_alike hvw ▸ htakes⟩

/-- Alike values cause defects that are told in the same words. -/
theorem Causes.exists_of_alike (h : Causes key v d) (hvw : v.Alike w) :
    ∃ d', Causes key w d' ∧ d'.text = d.text := by
  cases h with
  | unknownField hkey => exact ⟨_, .unknownField hkey, rfl⟩
  | @invalidType f _ hnot hkind =>
    have hnot' : ¬f.Takes w := fun h => hnot (h.eq_of_alike hvw.symm ▸ h)
    have hkind' : f = .mode ∨ ∀ n, w ≠ .number (.integer n) := by
      refine hkind.imp_right fun hint n hn => ?_
      subst hn
      cases hvw
      exact hint n rfl
    refine ⟨_, .invalidType hnot' hkind', ?_⟩
    cases hvw <;> rfl
  | invalidValue hnot hf =>
    cases hvw
    exact ⟨_, .invalidValue hnot hf, rfl⟩

/-- The first fault is the same in objects that are alike. -/
theorem FirstFault.exists_of_alike (h : FirstFault members key v d)
    (hms : (Value.object members).Alike (.object members')) :
    ∃ w d', FirstFault members' key w d' ∧ d'.text = d.text := by
  obtain ⟨w, hw, hvw⟩ := exists_lastValue_of_alike hms h.last
  obtain ⟨d', hd', htext⟩ := h.causes.exists_of_alike hvw
  refine ⟨w, d', ⟨hw, hd', fun key' w' hw' hnot => ?_⟩, htext⟩
  obtain ⟨v', hv', hwv⟩ := exists_lastValue_of_alike hms.symm hw'
  exact h.first key' v' hv' fun h' => hnot (h'.of_alike hwv.symm)

/-- Objects with the same last values are read the same. -/
theorem ofMembers_eq_of_lastValue_eq (h : lastValue? members = lastValue? members') :
    ofMembers members = ofMembers members' := by
  by_cases hall : ∀ key v, lastValue? members key = some v → Conforms key v
  · obtain ⟨c, hc, hvalues⟩ := ofMembers_of_conforms hall
    obtain ⟨c', hc', hvalues'⟩ := ofMembers_of_conforms (h ▸ hall)
    have heq : c = c' := eq_of_value_eq fun f => by rw [hvalues, hvalues', h]
    rw [hc, hc', heq]
  · obtain ⟨key, v, d, hfault⟩ := exists_firstFault hall
    have hfault' : FirstFault members' key v d := ⟨h ▸ hfault.last, hfault.causes, h ▸ hfault.first⟩
    rw [ofMembers_of_firstFault hfault, ofMembers_of_firstFault hfault']

/-- Objects that say the same are read to the same effect. -/
theorem mapError_ofMembers_of_alike (h : (Value.object members).Alike (.object members')) :
    (ofMembers members).mapError Defect.text = (ofMembers members').mapError Defect.text := by
  by_cases hall : ∀ key v, lastValue? members key = some v → Conforms key v
  · have hall' : ∀ key w, lastValue? members' key = some w → Conforms key w := by
      intro key w hw
      obtain ⟨v, hv, hwv⟩ := exists_lastValue_of_alike h.symm hw
      exact (hall key v hv).of_alike hwv.symm
    obtain ⟨c, hc, hvalues⟩ := ofMembers_of_conforms hall
    obtain ⟨c', hc', hvalues'⟩ := ofMembers_of_conforms hall'
    have heq : c = c' := by
      refine eq_of_value_eq fun f => ?_
      rw [hvalues, hvalues']
      rcases hw : lastValue? members' f.key with _ | w
      · rcases hv : lastValue? members f.key with _ | v
        · rfl
        · obtain ⟨w, hw', -⟩ := exists_lastValue_of_alike h hv
          rw [hw'] at hw
          cases hw
      · obtain ⟨v, hv, hwv⟩ := exists_lastValue_of_alike h.symm hw
        obtain ⟨f', hf', htakes⟩ := hall' _ _ hw
        rw [hv, htakes.eq_of_alike hwv]
    rw [hc, hc', heq]
  · obtain ⟨key, v, d, hfault⟩ := exists_firstFault hall
    obtain ⟨w, d', hfault', htext⟩ := hfault.exists_of_alike h
    rw [ofMembers_of_firstFault hfault, ofMembers_of_firstFault hfault']
    exact congrArg Except.error htext.symm

end

/-! ## Documents -/

/-- A document that holds an object is read by the last values of its keys. -/
structure ReadsObject (text : String) (members : List (String × Value)) : Prop where
  exists_ok_iff : (∃ c, ofDocument text = .ok c) ↔
    ∀ key v, lastValue? members key = some v → Conforms key v
  value_eq : ∀ c, ofDocument text = .ok c → ∀ f : Field,
    c.value f = (lastValue? members f.key).getD (({} : Config).value f)
  error_iff : ∀ d, ofDocument text = .error d ↔ ∃ key v, FirstFault members key v d
  same : ∀ text' members', Json.Document.read? text' = some (.object members') →
    (∀ key, lastValue? members' key = lastValue? members key) →
    ofDocument text' = ofDocument text
  alike : ∀ text' members', Json.Document.read? text' = some (.object members') →
    (Value.object members').Alike (.object members) →
    (ofDocument text').mapError Defect.text = (ofDocument text).mapError Defect.text

/-- A document is a configuration if it holds an object whose keys all conform to the schema;
    every field then has the last value of its key, or its default. Otherwise the first key
    that does not conform is reported, in the order of the bytes, wherever it stands. So
    documents that hold the same are read to the same effect. -/
theorem documents_are_read_by_key {text : String} {v : Value}
    (h : Json.Document.read? text = some v) :
    (∀ members, v = .object members → ReadsObject text members) ∧
      ((∀ members, v ≠ .object members) → ofDocument text = .error (.notObject v)) := by
  refine ⟨?_, fun hv => ?_⟩
  · rintro members rfl
    have hdoc {text : String} {members : List (String × Value)}
        (h : Json.Document.read? text = some (.object members)) :
        ofDocument text = ofMembers members := by
      simp only [ofDocument, h, ofValue]
    refine ⟨?_, fun c hc => ?_, fun d => ?_, fun text' members' h' hsame => ?_,
      fun text' members' h' halike => ?_⟩
    · rw [hdoc h]
      exact exists_ofMembers_eq_ok_iff
    · rw [hdoc h] at hc
      obtain ⟨c', hc', hvalues⟩ := ofMembers_of_conforms (exists_ofMembers_eq_ok_iff.1 ⟨c, hc⟩)
      rw [hc] at hc'
      cases hc'
      exact hvalues
    · rw [hdoc h]
      exact ofMembers_eq_error_iff
    · rw [hdoc h, hdoc h']
      exact ofMembers_eq_of_lastValue_eq (funext hsame)
    · rw [hdoc h, hdoc h']
      exact mapError_ofMembers_of_alike halike
  · rw [ofDocument, h]
    cases v with
    | object members => exact absurd rfl (hv members)
    | _ => rfl

/-- A document with two faults, a key that is repeated, and keys that are not in order. -/
theorem documents_are_read_by_key_ways :
    let text := "\x7b\"zeta\": 1, \"ways\": 4, \"mode\": \"x\", \"ways\": null\x7d"
    let v := Value.object
      [("zeta", .number (.integer 1)), ("ways", .number (.integer 4)), ("mode", .string "x"),
        ("ways", .null)]
    Json.Document.read? text = some v ∧
      (∀ members, v = .object members → ReadsObject text members) ∧
      ((∀ members, v ≠ .object members) → ofDocument text = .error (.notObject v)) := by
  intro text v
  have h : Json.Document.read? text = some v := by cbv
  exact ⟨h, documents_are_read_by_key h⟩

end Config

end BranchPrediction
