import Mathlib.Data.Nat.Digits.Defs
import Sprocket.Number.Integer
import Sprocket.Text.Blank

/-!
# Numerals

Which texts are integers, and which integers they are. A numeral is one or more digits, however
many, with a sign in front of them or without one. Digits count by their places, so zeros in front
change nothing.

* `DigitsOf`, `Numeral`: what digits stand for, and what digits with a sign stand for;
* `IntRange.read?_eq_some_iff`: a range reads the numerals of its members and nothing else;
* `numeral_displayInt`: what is written of an integer is a numeral of it;
* `Numeral.trim_eq`: a numeral holds no blanks.
-/

namespace Sprocket

namespace Number

/-- What a digit counts. -/
def digitValue (c : Char) : Nat := c.toNat - '0'.toNat

/-- One or more digits stand for a number: the last one counts ones, the one before it tens, and so
on. -/
structure DigitsOf (digits : List Char) (n : Nat) : Prop where
  nonempty : digits ≠ []
  ascii : ∀ c ∈ digits, c.isDigit = true
  places : Nat.ofDigits 10 (digits.reverse.map digitValue) = n

/-- Digits behind at most one sign stand for an integer; a minus sign is a sign only where it is
allowed. -/
inductive Numeral (minusAllowed : Prop) : List Char → Int → Prop
  | bare {digits : List Char} {n : Nat} (h : DigitsOf digits n) : Numeral minusAllowed digits n
  | plus {digits : List Char} {n : Nat} (h : DigitsOf digits n) :
      Numeral minusAllowed ('+' :: digits) n
  | minus {digits : List Char} {n : Nat} (allowed : minusAllowed) (h : DigitsOf digits n) :
      Numeral minusAllowed ('-' :: digits) (-n)

/-! ### Reading -/

/-- Taking the digits from the first to the last counts them by their places. -/
theorem ofDigits_eq (s : List Char) :
    ofDigits s = Nat.ofDigits 10 (s.reverse.map digitValue) := by
  rw [ofDigits, List.foldl_eq_foldr_reverse, Nat.ofDigits_eq_foldr, List.foldr_map]
  simp only [digitValue, Nat.cast_id, Nat.add_comm]

theorem readDigits?_eq_some_iff {s : List Char} {n : Nat} :
    readDigits? s = some n ↔ DigitsOf s n := by
  simp only [readDigits?, Option.ite_none_right_eq_some, Bool.and_eq_true, Bool.not_eq_true',
    List.isEmpty_eq_false_iff, List.all_eq_true, ofDigits_eq, Option.some.injEq]
  constructor
  · rintro ⟨⟨hnonempty, hascii⟩, hplaces⟩
    exact ⟨hnonempty, hascii, hplaces⟩
  · rintro ⟨hnonempty, hascii, hplaces⟩
    exact ⟨⟨hnonempty, hascii⟩, hplaces⟩

/-- Digits begin with no sign. -/
theorem DigitsOf.head_ne {digits : List Char} {n : Nat} (h : DigitsOf digits n) {c : Char}
    (hc : c.isDigit = false) (r : List Char) : digits ≠ c :: r := by
  rintro rfl
  rw [h.ascii c List.mem_cons_self] at hc
  cases hc

/-- A text is read as an integer exactly if it is a numeral of it. -/
theorem readInteger?_eq_some_iff {signed : Bool} {s : List Char} {n : Int} :
    readInteger? signed s = some n ↔ Numeral (signed = true) s n := by
  constructor
  · intro h
    unfold readInteger? at h
    split at h
    · obtain ⟨k, hk, rfl⟩ := Option.map_eq_some_iff.1 h
      exact .plus (readDigits?_eq_some_iff.1 hk)
    · obtain ⟨hsigned, hr⟩ := Option.ite_none_right_eq_some.1 h
      obtain ⟨k, hk, rfl⟩ := Option.map_eq_some_iff.1 hr
      exact .minus hsigned (readDigits?_eq_some_iff.1 hk)
    · obtain ⟨k, hk, rfl⟩ := Option.map_eq_some_iff.1 h
      exact .bare (readDigits?_eq_some_iff.1 hk)
  · rintro (h | h | ⟨hsigned, h⟩)
    · unfold readInteger?
      split
      · exact absurd rfl (h.head_ne (by decide) _)
      · exact absurd rfl (h.head_ne (by decide) _)
      · rw [readDigits?_eq_some_iff.2 h]
        rfl
    · simp [readInteger?, readDigits?_eq_some_iff.2 h]
    · simp [readInteger?, readDigits?_eq_some_iff.2 h, hsigned]

/-- A range reads the numerals of its members and nothing else. -/
theorem IntRange.read?_eq_some_iff {range : IntRange} {s : List Char} {n : Int} :
    range.read? s = some n ↔ Numeral (range.low < 0) s n ∧ range.low ≤ n ∧ n ≤ range.high := by
  simp only [IntRange.read?, Option.filter_eq_some_iff, readInteger?_eq_some_iff,
    decide_eq_true_eq, IntRange.contains, Bool.and_eq_true]

/-! ### Writing -/

/-- The digits of a number stand for it. -/
theorem digitsOf_toDigits (n : Nat) : DigitsOf (Nat.toDigits 10 n) n where
  nonempty := Nat.toDigits_ne_nil
  ascii := fun _ hc => Nat.isDigit_of_mem_toDigits (by decide) (by decide) hc
  places := by
    rw [← ofDigits_eq]
    exact Nat.ofDigitChars_ten_toDigits

/-- What is written of an integer is a numeral of it. -/
theorem numeral_displayInt {minusAllowed : Prop} {n : Int} (h : n < 0 → minusAllowed) :
    Numeral minusAllowed (displayInt n).toList n := by
  cases n with
  | ofNat k =>
    rw [displayInt, String.toList_ofList]
    exact .bare (digitsOf_toDigits k)
  | negSucc k =>
    have hchars : (displayInt (.negSucc k)).toList = '-' :: Nat.toDigits 10 (k + 1) := by
      simp [displayInt]
    rw [hchars]
    exact .minus (h (Int.negSucc_lt_zero k)) (digitsOf_toDigits (k + 1))

end Number

namespace Text

/-- A text of characters that are not blank stays as it is. -/
theorem trim_of_forall {s : List Char} (h : ∀ c ∈ s, isBlank c = false) : trim s = s := by
  induction s with
  | nil => rfl
  | cons c r ih =>
    obtain ⟨hc, hr⟩ := List.forall_mem_cons.1 h
    have hend : trimEnd r = r := ((trim_eq_self_iff r).1 (ih hr)).2
    rw [trim, trimStart_cons_of_not_blank hc, trimEnd_cons_of_not_blank hc, hend]

/-- No blank lies between the exclamation mark and the tilde. -/
theorem isBlank_eq_false_of_le {c : Char} (hlow : 33 ≤ c.toNat) (hhigh : c.toNat ≤ 126) :
    isBlank c = false := by
  simp only [isBlank, blankRanges, List.any_cons, List.any_nil]
  simp
  omega

theorem isBlank_eq_false_of_isDigit {c : Char} (h : c.isDigit = true) : isBlank c = false := by
  obtain ⟨hlow, hhigh⟩ := Char.isDigit_iff_toNat.1 h
  exact isBlank_eq_false_of_le (Nat.le_trans (by decide) hlow) (Nat.le_trans hhigh (by decide))

end Text

/-- A numeral holds no blanks. -/
theorem Number.Numeral.trim_eq {minusAllowed : Prop} {s : List Char} {n : Int}
    (h : Numeral minusAllowed s n) : Text.trim s = s := by
  have hdigits : ∀ {digits : List Char} {k : Nat}, DigitsOf digits k →
      ∀ c ∈ digits, Text.isBlank c = false := fun hk c hc =>
    Text.isBlank_eq_false_of_isDigit (hk.ascii c hc)
  refine Text.trim_of_forall ?_
  cases h with
  | bare h => exact hdigits h
  | plus h => exact List.forall_mem_cons.2 ⟨rfl, hdigits h⟩
  | minus _ h => exact List.forall_mem_cons.2 ⟨rfl, hdigits h⟩

end Sprocket
