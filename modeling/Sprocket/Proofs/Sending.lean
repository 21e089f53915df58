import Sprocket.Proofs.Conversion
import Sprocket.Proofs.Trials
import Sprocket.Sql.Call

/-!
# Values as they are sent

A value reaches the server as text, and the server casts the text to the type of the parameter. The
text means what was converted: it is converted to the same value again, and an integer lies within
the type that the server casts it to.

* `Sql.CastBounds`: the least and the greatest value of an integer type of the server;
* `Converts.display`: the text of a value is a literal of its type, and of that value;
* `exists_castBounds`: the type an integer token is cast to holds all its values;
* `sent_text_keeps_value`: the same of expressions, and of tokens and literals.
-/

namespace Sprocket

/-- The least and the greatest value of an integer type of the server. -/
inductive Sql.CastBounds : String → Int → Int → Prop
  | smallint : CastBounds "smallint" (-2 ^ 15) (2 ^ 15 - 1)
  | integer : CastBounds "integer" (-2 ^ 31) (2 ^ 31 - 1)
  | bigint : CastBounds "bigint" (-2 ^ 63) (2 ^ 63 - 1)

/-- Only integer types have bounds. -/
theorem HostType.Bounds.kind_eq {host : HostType} {low high : Int} (h : host.Bounds low high) :
    host.kind = .integer := by
  cases h <;> rfl

namespace TrialValue

open Text (trim)

variable {literal : String} {host : HostType} {value : TrialValue}

/-! ### Texts of values -/

/-- A hexadecimal digit is not blank, and its small form is one again. -/
theorem isBlank_eq_false_of_hex {c : Char} (h : c.isDigit = true ∨ c ∈ hexLetters) :
    Text.isBlank c = false := by
  have hletters : ∀ d ∈ hexLetters, 33 ≤ d.toNat ∧ d.toNat ≤ 126 := by simp [hexLetters]
  obtain hdigit | hletter := h
  · exact Text.isBlank_eq_false_of_isDigit hdigit
  · exact Text.isBlank_eq_false_of_le (hletters c hletter).1 (hletters c hletter).2

theorem toLower_hex {c : Char} (h : c.isDigit = true ∨ c ∈ hexLetters) :
    c.toLower.isDigit = true ∨ c.toLower ∈ hexLetters := by
  have hletters : ∀ d ∈ hexLetters, d.toLower ∈ hexLetters := by simp [hexLetters]
  obtain hdigit | hletter := h
  · have hsmall : ¬ c.isUpper = true := by
      obtain ⟨-, hhigh⟩ := Char.isDigit_iff_toNat.1 hdigit
      simp only [Char.isUpper, decide_eq_true_eq, ge_iff_le, UInt32.le_iff_toNat_le, not_and_or]
      exact .inl (Nat.not_le.2 (Nat.lt_of_le_of_lt hhigh (by decide)))
    rw [Char.toLower_eq_of_not_isUpper hsmall]
    exact .inl hdigit
  · exact .inr (hletters c hletter)

/-- A unique identifier holds no blanks. -/
theorem GuidText.trim_eq {s : List Char} (h : GuidText s) : trim s = s := by
  have hguid := isGuid_iff.2 h
  simp only [isGuid, Bool.and_eq_true, List.all_eq_true, isHexDigit_iff] at hguid
  refine Text.trim_of_forall fun c hc => ?_
  by_cases hhyphen : c = '-'
  · rw [hhyphen]
    rfl
  · obtain ⟨g, hg, hmem⟩ := Text.exists_mem_pieces hc hhyphen
    exact isBlank_eq_false_of_hex (hguid.2 g hg c hmem)

theorem map_toLower_intercalate (groups : List (List Char)) :
    (['-'].intercalate groups).map Char.toLower =
      ['-'].intercalate (groups.map (List.map Char.toLower)) := by
  induction groups with
  | nil => rfl
  | cons g rest ih =>
    cases rest with
    | nil => simp
    | cons g' others =>
      have hhyphen : ['-'].map Char.toLower = ['-'] := rfl
      rw [List.intercalate_cons_cons, List.map_append, List.map_append, ih, hhyphen]
      simp [List.intercalate_cons_cons]

/-- A unique identifier is one in small letters too. -/
theorem GuidText.toLower {s : List Char} (h : GuidText s) : GuidText (s.map Char.toLower) := by
  obtain ⟨hlengths, hhex⟩ := h
  rw [map_toLower_intercalate]
  refine .mk (by simpa [Function.comp_def] using hlengths) ?_
  intro g hg c hc
  obtain ⟨g, hgroup, rfl⟩ := List.mem_map.1 hg
  obtain ⟨c, hchar, rfl⟩ := List.mem_map.1 hc
  exact toLower_hex (hhex g hgroup c hchar)

/-- The words for a truth value are sent as they are written. -/
theorem inAnyCase_self (word : String) : InAnyCase word word.toList := by
  rw [InAnyCase, List.forall₂_same]
  exact fun _ _ => .inl rfl

/-- The text of a value is a literal of its type, and is converted to that value. -/
theorem Converts.display (h : Converts literal host value) : Converts value.display host value := by
  cases h with
  | @integer _ low high n hbounds hnumeral hlow hhigh =>
    have hwritten : Number.Numeral (low < 0) (Number.displayInt n).toList n :=
      Number.numeral_displayInt fun hnegative => Int.lt_of_le_of_lt hlow hnegative
    exact .integer hbounds (by rwa [TrialValue.display, hwritten.trim_eq]) hlow hhigh
  | decimal htext =>
    have hstrip : Text.strip (Text.strip literal) = Text.strip literal :=
      (Text.strip_eq_self_iff _).2 (by simp [Text.strip])
    have hsent : Converts (Text.strip literal) .decimal
        (.decimal (Text.strip (Text.strip literal))) := .decimal (by simpa [Text.strip] using htext)
    rwa [hstrip] at hsent
  | @boolean b word hword hspelled =>
    cases b with
    | true => exact .boolean (by decide) (inAnyCase_self "true")
    | false => exact .boolean (by decide) (inAnyCase_self "false")
  | guid htext =>
    have hlower := htext.toLower
    have hsmall : ((trim literal.toList).map Char.toLower).map Char.toLower =
        (trim literal.toList).map Char.toLower := by simp [Function.comp_def]
    generalize (trim literal.toList).map Char.toLower = small at hlower hsmall
    have hchars : trim (String.ofList small).toList = small := by
      rw [String.toList_ofList, hlower.trim_eq]
    have hsent : Converts (String.ofList small) .guid (.guid (String.ofList
        ((trim (String.ofList small).toList).map Char.toLower))) := .guid (by rwa [hchars])
    rwa [hchars, hsmall] at hsent
  | text hhost => exact .text hhost

/-- Only floating-point types have floating-point values. -/
theorem not_floating_of_convert (h : convert literal host = some value)
    (hvalue : ∀ x, value ≠ .float x) : host ≠ .single ∧ host ≠ .double := by
  constructor
  · rintro rfl
    obtain ⟨x, -, hx⟩ := Option.map_eq_some_iff.1 h
    exact hvalue x hx.symm
  · rintro rfl
    obtain ⟨x, -, hx⟩ := Option.map_eq_some_iff.1 h
    exact hvalue x hx.symm

/-- An integer that a literal is converted to lies within the bounds of the host type. -/
theorem exists_bounds_of_convert {n : Int} (h : convert literal host = some (.integer n)) :
    ∃ low high, host.Bounds low high ∧ low ≤ n ∧ n ≤ high := by
  cases Converts.of_convert (not_floating_of_convert h (by simp)) h with
  | integer hbounds _ hlow hhigh => exact ⟨_, _, hbounds, hlow, hhigh⟩

/-! ### Casts -/

theorem mem_typeTokens_of_ofToken {token : String} {type : TokenType}
    (h : TokenType.ofToken token = .ok type) : type ∈ typeTokens.map Prod.snd := by
  unfold TokenType.ofToken at h
  cases htoken : TokenType.ofToken? token.toList with
  | none => simp [htoken] at h
  | some found =>
    obtain rfl : found = type := by simpa [htoken] using h
    obtain ⟨entry, hentry, rfl⟩ := Option.map_eq_some_iff.1 htoken
    exact List.mem_map_of_mem (List.mem_of_find?_eq_some hentry)

/-- The type that the integers of a token are cast to holds all of them. -/
theorem exists_castBounds {token : String} {type : TokenType} {low high : Int}
    (h : TokenType.ofToken token = .ok type) (hbounds : type.host.Bounds low high) :
    ∃ least greatest, Sql.CastBounds type.bind.castName least greatest ∧ least ≤ low ∧
      high ≤ greatest := by
  have htypes : ∀ type ∈ typeTokens.map Prod.snd, type.host.kind = .integer → type ∈
      [⟨.int64, .bigInt⟩, ⟨.int32, .int⟩, ⟨.int16, .smallInt⟩, ⟨.byte, .tinyInt⟩] := by
    decide
  have hmem := htypes type (mem_typeTokens_of_ofToken h) hbounds.kind_eq
  simp only [List.mem_cons, List.not_mem_nil, or_false] at hmem
  rcases hmem with rfl | rfl | rfl | rfl
  · cases hbounds
    exact ⟨_, _, .bigint, le_rfl, le_rfl⟩
  · cases hbounds
    exact ⟨_, _, .integer, le_rfl, le_rfl⟩
  · cases hbounds
    exact ⟨_, _, .smallint, le_rfl, le_rfl⟩
  · cases hbounds
    exact ⟨_, _, .smallint, by norm_num, by norm_num⟩

end TrialValue

namespace TrialBinding

open TrialValue (convert Converts)

/-- **What is sent means what was converted.** The text of a value that an expression is bound to is
converted to the same value again, if that is no floating-point number. The integers that a token
and a literal stand for lie within the type of the server that they are cast to. -/
theorem sent_text_keeps_value :
    (∀ expression b, ofExpression expression = .ok b → (∀ x, b.value ≠ .float x) →
      convert b.value.display b.type.host = some b.value) ∧
    ∀ token type literal n, TokenType.ofToken token = .ok type →
      convert literal type.host = some (.integer n) →
      ∃ least greatest, Sql.CastBounds type.bind.castName least greatest ∧ least ≤ n ∧
        n ≤ greatest := by
  constructor
  · intro expression b hbound hvalue
    obtain ⟨-, -, hconverted⟩ := ofExpression_eq_ok_iff.1 hbound
    have hhost := TrialValue.not_floating_of_convert hconverted hvalue
    exact (Converts.of_convert hhost hconverted).display.convert_eq
  · intro token type literal n htoken hconverted
    obtain ⟨low, high, hbounds, hlow, hhigh⟩ := TrialValue.exists_bounds_of_convert hconverted
    obtain ⟨least, greatest, hcast, hleast, hgreatest⟩ :=
      TrialValue.exists_castBounds htoken hbounds
    exact ⟨least, greatest, hcast, hleast.trans hlow, hhigh.trans hgreatest⟩

/-- A unique identifier in capitals is sent in small letters, and the greatest value of eight bits
without a sign is cast to sixteen bits with one. -/
theorem sent_text_keeps_value_key :
    (∃ b, ofExpression "@Key: \" 6F9619FF-8B86-D011-B42D-00C04FC964FF\": GUID" = .ok b ∧
      (∀ x, b.value ≠ .float x) ∧
      b.value.display = "6f9619ff-8b86-d011-b42d-00c04fc964ff" ∧
      convert b.value.display b.type.host = some b.value) ∧
    TokenType.ofToken " Byte" = .ok ⟨.byte, .tinyInt⟩ ∧
    convert "+0255" .byte = some (.integer 255) ∧
    ∃ least greatest, Sql.CastBounds "smallint" least greatest ∧ least ≤ 255 ∧
      255 ≤ greatest := by
  have hkey : ofExpression "@Key: \" 6F9619FF-8B86-D011-B42D-00C04FC964FF\": GUID" =
      .ok ⟨"@Key", ⟨.guid, .uniqueIdentifier⟩, .guid "6f9619ff-8b86-d011-b42d-00c04fc964ff"⟩ := rfl
  have htoken : TokenType.ofToken " Byte" = .ok ⟨.byte, .tinyInt⟩ := rfl
  have hgreatest : convert "+0255" .byte = some (.integer 255) := rfl
  have hnone : ∀ x, TrialValue.guid "6f9619ff-8b86-d011-b42d-00c04fc964ff" ≠ .float x := by simp
  exact ⟨⟨_, hkey, hnone, rfl, sent_text_keeps_value.1 _ _ hkey hnone⟩, htoken, hgreatest,
    sent_text_keeps_value.2 _ _ _ _ htoken hgreatest⟩

end TrialBinding

end Sprocket
