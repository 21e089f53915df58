import Mathlib.Data.List.Basic
import Sprocket.Naming
import Sprocket.Text.Blank

/-!
# Small first letters

What the casing of client names does to the characters that layout gives a meaning to: nothing. No
capital has a small form that is blank or a brace.

* `Text.isLayoutChar`: blanks and braces;
* `Text.eq_of_mem_lowerChar`: a small form is such a character only where the character was;
* `Naming.mem_of_mem_clientChars`, `Naming.head?_of_head?_clientChars`: the same of client names.
-/

namespace Sprocket

namespace Text

/-- The characters that layout gives a meaning to: blanks and braces. -/
def isLayoutChar (c : Char) : Bool := isBlank c || c == '\x7b' || c == '\x7d'

/-- The code points of blanks and braces. -/
def layoutRanges : List (Nat × Nat) := blankRanges ++ [(0x7B, 0x7B), (0x7D, 0x7D)]

/-- A run maps none of its characters to a code point in a range. -/
def CaseRun.Misses (run : CaseRun) (range : Nat × Nat) : Prop :=
  0 < range.1 ∧ 0 ≤ run.start + run.shift ∧
    (run.start + run.count * run.step + run.shift ≤ range.1 ∨ range.2 < run.start + run.shift)

instance (run : CaseRun) (range : Nat × Nat) : Decidable (run.Misses range) :=
  inferInstanceAs (Decidable (_ ∧ _ ∧ _))

theorem caseRuns_misses : ∀ run ∈ caseRuns, ∀ range ∈ layoutRanges, run.Misses range := by
  decide +kernel

theorem isLayoutChar_iff {c : Char} :
    isLayoutChar c = true ↔ ∃ range ∈ layoutRanges, range.1 ≤ c.toNat ∧ c.toNat ≤ range.2 := by
  have hchar : ∀ d : Char, c = d ↔ d.toNat ≤ c.toNat ∧ c.toNat ≤ d.toNat := fun d => by
    rw [← Char.toNat_inj]
    omega
  simp [isLayoutChar, isBlank, layoutRanges, hchar, or_and_right, exists_or, or_assoc]

theorem toNat_ofNat_eq_or (n : Nat) : (Char.ofNat n).toNat = n ∨ (Char.ofNat n).toNat = 0 := by
  by_cases h : n.isValidChar
  · rw [Char.ofNat, dif_pos h]
    exact .inl rfl
  · rw [Char.ofNat, dif_neg h]
    exact .inr rfl

theorem CaseRun.Misses.not_mem {run : CaseRun} {range : Nat × Nat} {n : Nat}
    (h : run.Misses range) (hn : run.covers n = true) :
    ¬ (range.1 ≤ (Char.ofNat (n + run.shift).toNat).toNat ∧
      (Char.ofNat (n + run.shift).toNat).toNat ≤ range.2) := by
  obtain ⟨hrange, hstart, hmiss⟩ := h
  simp only [CaseRun.covers, Bool.and_eq_true, decide_eq_true_eq] at hn
  obtain ⟨⟨hlow, hhigh⟩, -⟩ := hn
  have hhigh' : (n : Int) < run.start + run.count * run.step := by exact_mod_cast hhigh
  rcases toNat_ofNat_eq_or (n + run.shift).toNat with h | h <;> rw [h] <;> omega

/-- A character in a range that every run misses is the small form of itself alone, except where it
comes from the dotted I. -/
theorem eq_of_mem_lowerChar_of_misses {c d : Char} {range : Nat × Nat}
    (hmisses : ∀ run ∈ caseRuns, run.Misses range)
    (hd : range.1 ≤ d.toNat ∧ d.toNat ≤ range.2) (hdotted : d ∉ lowerChar dottedI)
    (h : d ∈ lowerChar c) : d = c := by
  by_cases hc : c = dottedI
  · rw [hc] at h
    exact absurd h hdotted
  · rw [lowerChar, if_neg hc] at h
    split at h
    next run hrun =>
      rw [List.mem_singleton.1 h] at hd
      have hcovers := List.find?_some hrun
      exact absurd hd ((hmisses run (List.mem_of_find?_eq_some hrun)).not_mem hcovers)
    · exact List.mem_singleton.1 h

/-- A character that is blank or a brace is the small form of itself alone. -/
theorem eq_of_mem_lowerChar {c d : Char} (h : d ∈ lowerChar c) (hd : isLayoutChar d = true) :
    d = c := by
  obtain ⟨range, hrange, hmem⟩ := isLayoutChar_iff.1 hd
  refine eq_of_mem_lowerChar_of_misses (fun run hrun => caseRuns_misses run hrun range hrange) hmem
    ?_ h
  intro hdotted
  rcases List.mem_pair.1 hdotted with rfl | rfl <;> exact absurd hd (by decide)

theorem lowerChar_ne_nil (c : Char) : lowerChar c ≠ [] := by
  unfold lowerChar
  split
  · simp
  · split <;> simp

theorem mem_of_mem_lowerFirst {s : List Char} {d : Char} (h : d ∈ lowerFirst s)
    (hd : isLayoutChar d = true) : d ∈ s := by
  cases s with
  | nil => cases h
  | cons c r =>
    rcases List.mem_append.1 h with h | h
    · rw [eq_of_mem_lowerChar h hd]
      exact List.mem_cons_self
    · exact List.mem_cons_of_mem c h

theorem head?_of_head?_lowerFirst {s : List Char} {d : Char} (h : (lowerFirst s).head? = some d)
    (hd : isLayoutChar d = true) : s.head? = some d := by
  cases s with
  | nil => cases h
  | cons c r =>
    obtain ⟨e, es, hlower⟩ := List.exists_cons_of_ne_nil (lowerChar_ne_nil c)
    rw [lowerFirst, hlower] at h
    obtain rfl : e = d := Option.some.inj h
    rw [eq_of_mem_lowerChar (by rw [hlower]; exact List.mem_cons_self) hd]
    rfl

end Text

namespace Naming

open Text (isLayoutChar)

theorem mem_of_mem_clientChars {camel : Bool} {s : List Char} {d : Char}
    (h : d ∈ clientChars camel s) (hd : isLayoutChar d = true) : d ∈ unmarked s := by
  cases camel with
  | false => exact h
  | true => exact Text.mem_of_mem_lowerFirst h hd

/-- A client name begins with a blank or a brace only where the name without its marks does. -/
theorem head?_of_head?_clientChars {camel : Bool} {s : List Char} {d : Char}
    (h : (clientChars camel s).head? = some d) (hd : isLayoutChar d = true) :
    (unmarked s).head? = some d := by
  cases camel with
  | false => exact h
  | true => exact Text.head?_of_head?_lowerFirst h hd

end Naming

end Sprocket
