import BranchPrediction.Proofs.Schema
import BranchPrediction.Proofs.Tokens
import Mathlib.Data.List.Chain

/-!
# Writing configurations and reading them back

A configuration is *written* as an object by choosing some of its fields, in any order, and
laying out the tokens of their keys and values in any way (`Config.Writes`). Whatever the
choice, the order, the blanks and the spelling, the document is read as this configuration on
the fields that were chosen, and as the defaults on the others (`Config.written_is_read_back`).
-/

namespace BranchPrediction

open Json (Token Value lastValue?)
open Json.Document (Phase take ofTokens?)

namespace Config

/-! ## Writing -/

/-- The value of a field as a token. -/
def token (c : Config) : Field → Token
  | .mode => .string c.mode
  | .sizeInEntries => .number (.integer c.sizeInEntries.toNat)
  | .ways => .number (.integer c.ways.toNat)
  | .addressBits => .number (.integer c.addressBits.toNat)

/-- A field as the member of an object. -/
def memberTokens (c : Config) (f : Field) : List Token := [.string f.key, .colon, c.token f]

/-- The fields of a configuration as the members of an object, up to its end. -/
def membersTokens (c : Config) : List Field → List Token
  | [] => [.rightBrace]
  | [f] => c.memberTokens f ++ [.rightBrace]
  | f :: fields => c.memberTokens f ++ .comma :: membersTokens c fields

/-- The fields of a configuration as an object. -/
def tokens (c : Config) (fields : List Field) : List Token := .leftBrace :: c.membersTokens fields

/-- The members of this object. -/
def members (c : Config) (fields : List Field) : List (String × Value) :=
  fields.map fun f => (f.key, c.value f)

/-- A text that writes some fields of a configuration as an object. -/
def Writes (c : Config) (fields : List Field) (text : String) : Prop :=
  Token.Laid (c.tokens fields) text.toList

/-- The configuration on some fields, and the defaults on the others. -/
def only (c : Config) (fields : List Field) : Config where
  mode := if .mode ∈ fields then c.mode else ({} : Config).mode
  sizeInEntries := if .sizeInEntries ∈ fields then c.sizeInEntries else ({} : Config).sizeInEntries
  ways := if .ways ∈ fields then c.ways else ({} : Config).ways
  addressBits := if .addressBits ∈ fields then c.addressBits else ({} : Config).addressBits

variable {c : Config} {fields : List Field}

/-- The value of a field that is chosen is that of the configuration. -/
theorem value_only (c : Config) (fields : List Field) (f : Field) :
    (c.only fields).value f = if f ∈ fields then c.value f else ({} : Config).value f := by
  cases f <;> simp only [only, value] <;> split <;> rfl

/-- Every value of a configuration is one that its field takes. -/
theorem takes_value (c : Config) (f : Field) : f.Takes (c.value f) := by
  cases f with
  | mode => exact ⟨c.mode, rfl⟩
  | sizeInEntries => exact ⟨_, c.sizeInEntries.toNat_lt, rfl⟩
  | ways => exact ⟨_, c.ways.toNat_lt, rfl⟩
  | addressBits => exact ⟨_, c.addressBits.toNat_lt, rfl⟩

/-- The value of a field can be spelt. -/
theorem exists_spells_token (c : Config) (f : Field) : ∃ word, Token.Spells (c.token f) word := by
  cases f with
  | mode =>
    obtain ⟨parts, hparts⟩ := Json.Text.exists_spells_all c.mode.toList
    exact ⟨_, .string hparts⟩
  | sizeInEntries => exact ⟨_, .number c.sizeInEntries.toNat_lt⟩
  | ways => exact ⟨_, .number c.ways.toNat_lt⟩
  | addressBits => exact ⟨_, .number (lt_trans c.addressBits.toNat_lt (by decide))⟩

/-- A member can be spelt. -/
theorem exists_spells_memberTokens (c : Config) (f : Field) :
    ∀ t ∈ c.memberTokens f, ∃ word, Token.Spells t word := by
  intro t ht
  simp only [memberTokens, List.mem_cons, List.not_mem_nil, or_false] at ht
  rcases ht with rfl | rfl | rfl
  · obtain ⟨parts, hparts⟩ := Json.Text.exists_spells_all f.key.toList
    exact ⟨_, .string hparts⟩
  · exact ⟨_, .colon⟩
  · exact exists_spells_token c f

/-- The members of an object can be spelt. -/
theorem exists_spells_membersTokens (c : Config) (fields : List Field) :
    ∀ t ∈ c.membersTokens fields, ∃ word, Token.Spells t word := by
  have hbrace : ∃ word, Token.Spells .rightBrace word := ⟨_, .rightBrace⟩
  have hcomma : ∃ word, Token.Spells .comma word := ⟨_, .comma⟩
  fun_induction membersTokens c fields with
  | case1 => exact List.forall_mem_singleton.2 hbrace
  | case2 f =>
    exact List.forall_mem_append.2
      ⟨exists_spells_memberTokens c f, List.forall_mem_singleton.2 hbrace⟩
  | case3 f fields _ ih =>
    exact List.forall_mem_append.2
      ⟨exists_spells_memberTokens c f, List.forall_mem_cons.2 ⟨hcomma, ih⟩⟩

/-- Every choice of fields can be written. -/
theorem exists_writes (c : Config) (fields : List Field) : ∃ text, Writes c fields text := by
  have hbrace : ∃ word, Token.Spells .leftBrace word := ⟨_, .leftBrace⟩
  have hspells : ∀ t ∈ c.tokens fields, ∃ word, Token.Spells t word :=
    List.forall_mem_cons.2 ⟨hbrace, exists_spells_membersTokens c fields⟩
  obtain ⟨text, htext⟩ := Token.exists_laid hspells
  exact ⟨.ofList text, by rwa [Writes, String.toList_ofList]⟩

/-! ## Reading back -/

/-- A number meets no number behind a member. -/
theorem isChain_memberTokens (c : Config) (f : Field) {t : Token} {ts : List Token}
    (ht : ¬t.IsNumber) (hts : (t :: ts).IsChain Token.Apart) :
    (c.memberTokens f ++ t :: ts).IsChain Token.Apart := by
  have hvalue : (c.token f :: t :: ts).IsChain Token.Apart := .cons_cons (fun _ => ht) hts
  exact Token.isChain_cons nofun (Token.isChain_cons nofun hvalue)

/-- No two numbers meet in an object. -/
theorem isChain_tokens (c : Config) (fields : List Field) :
    (c.tokens fields).IsChain Token.Apart := by
  refine Token.isChain_cons nofun ?_
  fun_induction membersTokens c fields with
  | case1 => exact .singleton _
  | case2 f => exact isChain_memberTokens c f nofun (.singleton _)
  | case3 f fields _ ih => exact isChain_memberTokens c f nofun (Token.isChain_cons nofun ih)

/-- A member is taken in where a key may come. -/
theorem foldlM_take_memberTokens (c : Config) (f : Field) {p : Phase}
    (hp : p = .first ∨ p = .key) (ms : List (String × Value)) :
    (c.memberTokens f).foldlM take ⟨p, [.object ms]⟩ =
      some ⟨.next, [.object ((f.key, c.value f) :: ms)]⟩ := by
  rcases hp with rfl | rfl <;> cases f <;> rfl

/-- The members of an object are taken in up to its end. -/
theorem foldlM_take_membersTokens (c : Config) (fields : List Field) {p : Phase}
    (hp : p = .first ∨ p = .key ∧ fields ≠ []) (ms : List (String × Value)) :
    (c.membersTokens fields).foldlM take ⟨p, [.object ms]⟩ =
      some ⟨.done (.object (ms.reverse ++ c.members fields)), []⟩ := by
  -- A comma is followed by a key, so only a new object may end without a member.
  fun_induction membersTokens c fields generalizing p ms with
  | case1 =>
    obtain rfl : p = .first := hp.resolve_right fun h => h.2 rfl
    rw [members, List.map_nil, List.append_nil]
    rfl
  | case2 f =>
    rw [List.foldlM_append, foldlM_take_memberTokens c f (hp.imp_right And.left)]
    simp only [members, List.map_cons, List.map_nil, ← List.reverse_cons]
    rfl
  | case3 f fields hfields ih =>
    have hkey := ih (p := .key) (.inr ⟨rfl, fun h => hfields h⟩) ((f.key, c.value f) :: ms)
    rw [List.foldlM_append, foldlM_take_memberTokens c f (hp.imp_right And.left), members,
      List.map_cons, List.append_cons, ← List.reverse_cons, ← members, ← hkey]
    rfl

/-- The tokens make up an object with the values of the fields. -/
theorem ofTokens?_tokens (c : Config) (fields : List Field) :
    ofTokens? (c.tokens fields) = some (.object (c.members fields)) := by
  have hmembers := foldlM_take_membersTokens c fields (.inl rfl) []
  have hstart : take .start .leftBrace = some ⟨.first, [.object []]⟩ := rfl
  rw [ofTokens?, tokens, List.foldlM_cons, hstart]
  simp only [Option.bind_eq_bind, Option.bind_some, hmembers]
  rfl

/-- A document that writes fields of a configuration holds their values. -/
theorem read?_of_writes {text : String} (h : Writes c fields text) :
    Json.Document.read? text = some (.object (c.members fields)) := by
  rw [Json.Document.read?, Token.series?_of_laid h (isChain_tokens c fields)]
  exact ofTokens?_tokens c fields

/-- A field has its value last if it is chosen, and none otherwise. -/
theorem lastValue?_members (c : Config) (fields : List Field) (f : Field) :
    lastValue? (c.members fields) f.key = if f ∈ fields then some (c.value f) else none := by
  rcases hlast : lastValue? (c.members fields) f.key with _ | v
  · have hf : f ∉ fields := fun hf =>
      Json.lastValue?_eq_none_iff.1 hlast (c.value f) (List.mem_map.2 ⟨f, hf, rfl⟩)
    rw [if_neg hf]
  · obtain ⟨g, hg, heq⟩ := List.mem_map.1 (Json.mem_of_lastValue? hlast)
    obtain ⟨hkey, rfl⟩ := Prod.mk.inj heq
    obtain rfl := Field.key_inj hkey
    rw [if_pos hg]

/-- However some fields of a configuration are written, they are read back, and the others are
    the defaults. -/
theorem written_is_read_back (c : Config) (fields : List Field) :
    (∃ text, Writes c fields text) ∧
      ∀ text, Writes c fields text → ofDocument text = .ok (c.only fields) := by
  refine ⟨exists_writes c fields, fun text htext => ?_⟩
  have hconforms (key : String) (v : Value) (h : lastValue? (c.members fields) key = some v) :
      Conforms key v := by
    obtain ⟨f, -, hf⟩ := List.mem_map.1 (Json.mem_of_lastValue? h)
    obtain ⟨rfl, rfl⟩ := Prod.mk.inj hf
    exact ⟨f, rfl, takes_value c f⟩
  obtain ⟨c', hc', hvalues⟩ := ofMembers_of_conforms hconforms
  have heq : c' = c.only fields := by
    refine eq_of_value_eq fun f => ?_
    rw [hvalues, lastValue?_members, value_only]
    split <;> rfl
  simp only [ofDocument, read?_of_writes htext, ofValue, hc', heq]

/-- A document with blanks, and a mode that is spelt by a letter and a surrogate pair. -/
theorem written_is_read_back_escapes :
    let c : Config := { mode := "\"😀" }
    let text := " \x7b\"mode\"\t:\r\n\"\\\"\\ud83D\\uDe00\"\x7d"
    Writes c [.mode] text ∧ ofDocument text = .ok (c.only [.mode]) := by
  intro c text
  have hself (d : Char) (h : ' ' ≤ d ∧ d ≠ '"' ∧ d ≠ '\\') : Json.Text.Spells d [d] :=
    .plain h.1 h.2.1 h.2.2
  have hkey : Token.Spells (.string "mode") "\"mode\"".toList :=
    @Token.Spells.string "mode" _ (.cons (hself 'm' (by decide)) <|
      .cons (hself 'o' (by decide)) <| .cons (hself 'd' (by decide)) <|
      .cons (hself 'e' (by decide)) .nil)
  have hhigh : Json.Text.Hex 0xD83D "d83D".toList :=
    .cons ⟨by decide, by decide⟩ <| .cons ⟨by decide, by decide⟩ <|
      .cons ⟨by decide, by decide⟩ <| .cons ⟨by decide, by decide⟩ .nil
  have hlow : Json.Text.Hex 0xDE00 "De00".toList :=
    .cons ⟨by decide, by decide⟩ <| .cons ⟨by decide, by decide⟩ <|
      .cons ⟨by decide, by decide⟩ <| .cons ⟨by decide, by decide⟩ .nil
  have hmode : Token.Spells (.string "\"😀") "\"\\\"\\ud83D\\uDe00\"".toList :=
    @Token.Spells.string "\"😀" _ (.cons (@Json.Text.Spells.letter _ '"' (by decide)) <|
      .cons (.pair (by decide) hhigh hlow) .nil)
  have hlaid : Token.Laid (c.tokens [.mode]) _ :=
    @Token.Laid.cons [' '] _ _ _ _ (by decide) .leftBrace <|
    @Token.Laid.cons [] _ _ _ _ (by decide) hkey <|
    @Token.Laid.cons ['\t'] _ _ _ _ (by decide) .colon <|
    @Token.Laid.cons ['\r', '\n'] _ _ _ _ (by decide) hmode <|
    @Token.Laid.cons [] _ _ _ _ (by decide) .rightBrace <| .nil (List.nil_subset _)
  have htext : Writes c [.mode] text := by
    rw [Writes]
    convert hlaid using 1
    decide
  exact ⟨htext, (written_is_read_back c [.mode]).2 text htext⟩

end Config

end BranchPrediction
