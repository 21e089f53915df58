import Mathlib
import Sprocket.Proofs.Numerals
import Sprocket.Trial.Value

/-!
# Literals of host types

Which literals a host type has, and what they are converted to. Only blanks at the ends are passed
over; types that are not read here keep the literal as it is.

* `Bounds`: the least and the greatest value of an integer type;
* `DecimalText`, `InAnyCase`, `GuidText`: decimals, words and unique identifiers;
* `Converts`: the literals of the host types, those of floating-point numbers left out;
* `convert_eq_some_iff_converts`: these are the literals that are converted.
-/

namespace Sprocket

namespace Text

/-! ### Characters and pieces -/

/-- Two characters have the small form of the one that is no capital: itself and its capital. -/
theorem toLower_eq_iff {c d : Char} (hc : c.isUpper = false) :
    d.toLower = c ↔ d = c ∨ d = c.toUpper := by
  constructor
  · rintro rfl
    by_cases hd : d.isUpper = true
    · rw [Char.toUpper_toLower_eq_toUpper,
        Char.toUpper_eq_of_not_isLower (Char.not_isLower_of_isUpper hd)]
      exact .inr rfl
    · exact .inl (Char.toLower_eq_of_not_isUpper hd).symm
  · rintro (rfl | rfl)
    · exact Char.toLower_eq_of_not_isUpper (by simp [hc])
    · rw [Char.toLower_toUpper_eq_toLower, Char.toLower_eq_of_not_isUpper (by simp [hc])]

/-- Pieces without the separator are found again between separators. -/
theorem pieces_intercalate {sep : Char} {ps : List (List Char)} (hne : ps ≠ [])
    (h : ∀ p ∈ ps, sep ∉ p) : pieces sep ([sep].intercalate ps) = ps := by
  induction ps with
  | nil => exact absurd rfl hne
  | cons p rest ih =>
    obtain ⟨hp, hrest⟩ := List.forall_mem_cons.1 h
    cases rest with
    | nil => simpa using pieces_of_not_mem hp
    | cons q others =>
      rw [List.intercalate_cons_cons, List.append_assoc, List.singleton_append,
        pieces_append hp, ih (List.cons_ne_nil q others) hrest]

end Text

/-! ### Grammar -/

/-- The least and the greatest value of an integer type. -/
inductive HostType.Bounds : HostType → Int → Int → Prop
  | byte : Bounds .byte 0 255
  | int16 : Bounds .int16 (-2 ^ 15) (2 ^ 15 - 1)
  | int32 : Bounds .int32 (-2 ^ 31) (2 ^ 31 - 1)
  | int64 : Bounds .int64 (-2 ^ 63) (2 ^ 63 - 1)

namespace TrialValue

open Text (trim)

/-- A text holds digits only; it may be empty. -/
def AllDigits (s : List Char) : Prop := ∀ c ∈ s, c.isDigit = true

/-- Digits behind at most one sign, with at most one point among them; there is a digit before the
point or behind it. -/
inductive DecimalText : List Char → Prop
  | whole {sign digits : List Char} (signed : sign ∈ [[], ['+'], ['-']])
      (ascii : AllDigits digits) (nonempty : digits ≠ []) : DecimalText (sign ++ digits)
  | pointed {sign before after : List Char} (signed : sign ∈ [[], ['+'], ['-']])
      (front : AllDigits before) (back : AllDigits after) (nonempty : before ≠ [] ∨ after ≠ []) :
      DecimalText (sign ++ (before ++ '.' :: after))

/-- A text is a word of small letters and digits, but for the case of its letters. -/
def InAnyCase (word : String) (s : List Char) : Prop :=
  List.Forall₂ (fun c d => d = c ∨ d = c.toUpper) word.toList s

/-- The words for a truth value. -/
def truthWords : Bool → List String
  | true => ["true", "1"]
  | false => ["false", "0"]

/-- The letters among the hexadecimal digits. -/
def hexLetters : List Char := ['a', 'b', 'c', 'd', 'e', 'f', 'A', 'B', 'C', 'D', 'E', 'F']

/-- Five groups of hexadecimal digits with hyphens between them. -/
inductive GuidText : List Char → Prop
  | mk {groups : List (List Char)} (lengths : groups.map List.length = [8, 4, 4, 4, 12])
      (hex : ∀ g ∈ groups, ∀ c ∈ g, c.isDigit = true ∨ c ∈ hexLetters) :
      GuidText (['-'].intercalate groups)

/-- What a literal of a host type is converted to. Numbers, truth values and unique identifiers may
have blanks at their ends; all other literals are kept with their blanks. -/
inductive Converts (literal : String) : HostType → TrialValue → Prop
  | integer {host : HostType} {low high n : Int} (bounds : host.Bounds low high)
      (numeral : Number.Numeral (low < 0) (trim literal.toList) n) (least : low ≤ n)
      (greatest : n ≤ high) : Converts literal host (.integer n)
  | decimal (h : DecimalText (trim literal.toList)) :
      Converts literal .decimal (.decimal (Text.strip literal))
  | boolean {b : Bool} {word : String} (h : word ∈ truthWords b)
      (spelled : InAnyCase word (trim literal.toList)) : Converts literal .boolean (.boolean b)
  | guid (h : GuidText (trim literal.toList)) :
      Converts literal .guid (.guid (String.ofList ((trim literal.toList).map Char.toLower)))
  | text {host : HostType}
      (h : host ∈ [.string, .dateTime, .dateTimeOffset, .timeSpan, .binary, .object]) :
      Converts literal host (.text literal)

/-! ### Decimals -/

theorem exists_sign (s : List Char) :
    ∃ sign ∈ ([[], ['+'], ['-']] : List (List Char)), s = sign ++ afterSign s := by
  unfold afterSign
  split
  · exact ⟨['+'], by simp, rfl⟩
  · exact ⟨['-'], by simp, rfl⟩
  · exact ⟨[], by simp, rfl⟩

theorem AllDigits.not_mem {s : List Char} (h : AllDigits s) {c : Char} (hc : c.isDigit = false) :
    c ∉ s := fun hmem => by
  rw [h c hmem] at hc
  cases hc

/-- A sign is taken off digits and points, and nothing else is. -/
theorem afterSign_append {sign s : List Char} (h : sign ∈ [[], ['+'], ['-']])
    (hs : ∀ c ∈ s, c.isDigit = true ∨ c = '.') : afterSign (sign ++ s) = s := by
  simp only [List.mem_cons, List.not_mem_nil, or_false] at h
  rcases h with rfl | rfl | rfl
  · unfold afterSign
    split
    · exact absurd (hs '+' (by simp_all)) (by decide)
    · exact absurd (hs '-' (by simp_all)) (by decide)
    · rfl
  · rfl
  · rfl

theorem isDecimal_iff {s : List Char} : isDecimal s = true ↔ DecimalText s := by
  constructor
  · intro h
    obtain ⟨sign, hsign, hs⟩ := exists_sign s
    rw [hs]
    cases hsplit : Text.splitFirst '.' (afterSign s) with
    | none =>
      simp only [isDecimal, hsplit, Option.getD_none, Bool.and_eq_true, List.all_eq_true] at h
      exact .whole hsign h.1.2 (by simpa using h.1.1)
    | some parts =>
      simp only [isDecimal, hsplit, Option.getD_some, Bool.and_eq_true, List.all_eq_true] at h
      obtain ⟨hparts, -⟩ := Text.splitFirst_eq_some_iff.1 hsplit
      obtain ⟨⟨hnonempty, hfront⟩, hback⟩ := h
      rw [hparts]
      exact .pointed hsign hfront hback (by
        simpa [Decidable.imp_iff_not_or] using hnonempty)
  · intro h
    cases h with
    | @whole sign digits hsign hdigits hnonempty =>
      have hbody := afterSign_append hsign fun c hc => .inl (hdigits c hc)
      have hsplit := Text.splitFirst_eq_none_iff.2 (hdigits.not_mem (c := '.') (by decide))
      simp only [isDecimal, hbody, hsplit, Option.getD_none, Bool.and_eq_true, List.all_eq_true]
      exact ⟨⟨by simpa using hnonempty, hdigits⟩, by simp⟩
    | @pointed sign before after hsign hfront hback hnonempty =>
      have hbody : afterSign (sign ++ (before ++ '.' :: after)) = before ++ '.' :: after :=
        afterSign_append hsign (List.forall_mem_append.2 ⟨fun c hc => .inl (hfront c hc),
          List.forall_mem_cons.2 ⟨.inr rfl, fun c hc => .inl (hback c hc)⟩⟩)
      have hsplit : Text.splitFirst '.' (before ++ '.' :: after) = some (before, after) :=
        Text.splitFirst_eq_some_iff.2 ⟨rfl, hfront.not_mem (by decide)⟩
      simp only [isDecimal, hbody, hsplit, Option.getD_some, Bool.and_eq_true, List.all_eq_true]
      exact ⟨⟨by simpa [Decidable.imp_iff_not_or] using hnonempty, hfront⟩, hback⟩

/-! ### Words -/

/-- Folding the case of a text gives a word of small letters and digits exactly if the text is that
word in any case. -/
theorem asciiLower_eq_iff {word : String} (hword : ∀ c ∈ word.toList, c.isUpper = false)
    {s : List Char} : String.ofList (Text.asciiLower s) = word ↔ InAnyCase word s := by
  rw [← String.toList_inj, String.toList_ofList, InAnyCase, Text.asciiLower,
    ← List.forall₂_eq_eq_eq, List.forall₂_map_left_iff]
  generalize word.toList = w at hword
  constructor
  · intro h
    induction h with
    | nil => exact .nil
    | cons hcd _ ih =>
      obtain ⟨hc, hrest⟩ := List.forall_mem_cons.1 hword
      exact .cons ((Text.toLower_eq_iff hc).1 hcd) (ih hrest)
  · intro h
    induction h with
    | nil => exact .nil
    | cons hcd _ ih =>
      obtain ⟨hc, hrest⟩ := List.forall_mem_cons.1 hword
      exact .cons ((Text.toLower_eq_iff hc).2 hcd) (ih hrest)

theorem readBoolean?_eq_some_iff {s : List Char} {b : Bool} :
    readBoolean? s = some b ↔ ∃ word ∈ truthWords b, InAnyCase word s := by
  have hwords : ∀ word ∈ truthWords b, ∀ c ∈ word.toList, c.isUpper = false := by
    cases b <;> simp [truthWords]
  have hlower : (∃ word ∈ truthWords b, InAnyCase word s) ↔
      String.ofList (Text.asciiLower s) ∈ truthWords b := by
    constructor
    · rintro ⟨word, hword, hs⟩
      rwa [(asciiLower_eq_iff (hwords word hword)).2 hs]
    · exact fun h => ⟨_, h, (asciiLower_eq_iff (hwords _ h)).1 rfl⟩
  rw [hlower, readBoolean?]
  generalize String.ofList (Text.asciiLower s) = word
  cases b with
  | true =>
    simp only [truthWords, List.mem_cons, List.not_mem_nil, or_false]
    split
    next htrue => simp [htrue]
    next hnot => split <;> simp [hnot]
  | false =>
    simp only [truthWords, List.mem_cons, List.not_mem_nil, or_false]
    split
    next htrue => rcases htrue with rfl | rfl <;> simp
    next => split <;> simp_all

/-! ### Unique identifiers -/

theorem isHexDigit_iff {c : Char} :
    Text.isHexDigit c = true ↔ c.isDigit = true ∨ c ∈ hexLetters := by
  have hchar : ∀ d : Char, c = d ↔ c.toNat = d.toNat := fun d => Char.toNat_inj.symm
  have hle : ∀ d e : Char, d ≤ e ↔ d.toNat ≤ e.toNat := fun _ _ => Iff.rfl
  simp only [Text.isHexDigit, hexLetters, Bool.or_eq_true, Bool.and_eq_true, decide_eq_true_eq,
    hle, List.mem_cons, List.not_mem_nil, or_false, hchar, or_assoc]
  apply or_congr_right
  simp
  omega

theorem isGuid_iff {s : List Char} : isGuid s = true ↔ GuidText s := by
  simp only [isGuid, Bool.and_eq_true, beq_iff_eq, List.all_eq_true, isHexDigit_iff]
  constructor
  · rintro ⟨hlengths, hhex⟩
    rw [← Text.intercalate_pieces '-' s]
    exact .mk hlengths hhex
  · rintro ⟨hlengths, hhex⟩
    have hhyphen : ∀ g ∈ _, '-' ∉ g := fun g hg hmem =>
      absurd (hhex g hg '-' hmem) (by decide)
    rw [Text.pieces_intercalate (by rintro rfl; cases hlengths) hhyphen]
    exact ⟨hlengths, hhex⟩

/-! ### Conversion -/

/-- An integer type reads the numerals within its bounds. -/
theorem convert_of_bounds {host : HostType} {low high : Int} (h : host.Bounds low high)
    (literal : String) :
    convert literal host =
      (Number.IntRange.read? ⟨low, high⟩ (trim literal.toList)).map integer := by
  cases h <;> rfl

/-- A literal that is not one of a floating-point number is converted only if the host type has it,
and to what it stands for. -/
theorem Converts.of_convert {literal : String} {host : HostType} {value : TrialValue}
    (hhost : host ≠ .single ∧ host ≠ .double) (h : convert literal host = some value) :
    Converts literal host value := by
  have hinteger : ∀ {low high : Int}, host.Bounds low high → Converts literal host value := by
    intro low high hbounds
    rw [convert_of_bounds hbounds] at h
    obtain ⟨n, hn, rfl⟩ := Option.map_eq_some_iff.1 h
    obtain ⟨hnumeral, hlow, hhigh⟩ := Number.IntRange.read?_eq_some_iff.1 hn
    exact .integer hbounds hnumeral hlow hhigh
  cases host with
  | byte => exact hinteger .byte
  | int16 => exact hinteger .int16
  | int32 => exact hinteger .int32
  | int64 => exact hinteger .int64
  | single => exact absurd rfl hhost.1
  | double => exact absurd rfl hhost.2
  | decimal =>
    obtain ⟨htext, hsome⟩ := Option.ite_none_right_eq_some.1 h
    cases hsome
    exact .decimal (isDecimal_iff.1 htext)
  | boolean =>
    obtain ⟨b, hb, rfl⟩ := Option.map_eq_some_iff.1 h
    obtain ⟨word, hword, hspelled⟩ := readBoolean?_eq_some_iff.1 hb
    exact .boolean hword hspelled
  | guid =>
    obtain ⟨htext, hsome⟩ := Option.ite_none_right_eq_some.1 h
    cases hsome
    exact .guid (isGuid_iff.1 htext)
  | string | dateTime | dateTimeOffset | timeSpan | binary | object =>
    cases h
    exact .text (by decide)

/-- The literals of a host type are converted. -/
theorem Converts.convert_eq {literal : String} {host : HostType} {value : TrialValue}
    (h : Converts literal host value) : convert literal host = some value := by
  cases h with
  | integer hbounds hnumeral hlow hhigh =>
    rw [convert_of_bounds hbounds, Number.IntRange.read?_eq_some_iff.2 ⟨hnumeral, hlow, hhigh⟩]
    rfl
  | decimal htext => exact if_pos (isDecimal_iff.2 htext)
  | @boolean b word hword hspelled =>
    have hread : readBoolean? (trim literal.toList) = some b :=
      readBoolean?_eq_some_iff.2 ⟨word, hword, hspelled⟩
    exact congrArg (Option.map TrialValue.boolean) hread
  | guid htext => exact if_pos (isGuid_iff.2 htext)
  | text hhost =>
    simp only [List.mem_cons, List.not_mem_nil, or_false] at hhost
    rcases hhost with rfl | rfl | rfl | rfl | rfl | rfl <;> rfl

/-- **Conversion of literals.** A host type whose values are not floating-point numbers converts
exactly the literals it has. A number is converted if its value lies within the bounds, however many
digits there are, and to that value. -/
theorem convert_eq_some_iff_converts (literal : String) (host : HostType) (value : TrialValue)
    (h : host ≠ .single ∧ host ≠ .double) :
    convert literal host = some value ↔ Converts literal host value :=
  ⟨.of_convert h, Converts.convert_eq⟩

/-- Zeros in front of the greatest value of sixteen bits do not put it out of bounds; the next one
is out of bounds. -/
theorem convert_eq_some_iff_converts_padded :
    (HostType.int16 ≠ .single ∧ HostType.int16 ≠ .double) ∧
      convert "\u2003+000000000000000000000032767\n" .int16 = some (.integer 32767) ∧
      Converts "\u2003+000000000000000000000032767\n" .int16 (.integer 32767) ∧
      ∀ value, ¬ Converts "32768" .int16 value := by
  have hhost : HostType.int16 ≠ .single ∧ HostType.int16 ≠ .double := by decide
  have hgreatest : convert "\u2003+000000000000000000000032767\n" .int16 =
      some (.integer 32767) := rfl
  refine ⟨hhost, hgreatest, (convert_eq_some_iff_converts _ _ _ hhost).1 hgreatest, ?_⟩
  intro value hvalue
  have hnext : convert "32768" .int16 = none := rfl
  rw [(convert_eq_some_iff_converts _ _ _ hhost).2 hvalue] at hnext
  cases hnext

example : convert " 6F9619FF-8B86-D011-B42D-00C04FC964FF" .guid =
    some (.guid "6f9619ff-8b86-d011-b42d-00c04fc964ff") := rfl

end TrialValue

end Sprocket
