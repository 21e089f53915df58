import Sprocket.Proofs.Casing

/-!
# Casing a name again

A small form begins with a character that is its own small form, and it holds no mark. So a client
name has nothing left to be done: casing it again, with or without a small first letter, gives what
asking for both at once gives.

* `Text.CaseRun.avoids`: no small letter of one run is a capital of another;
* `Text.lowerChar_eq_of_head?`: the first character of a small form is its own small form;
* `Text.lowerFirst_eq_self_iff`: the texts that a small first letter leaves alone;
* `Naming.clientChars_clientChars`: one casing after another;
* `Naming.client_settles`: what casing does to names, cased ones and others.
-/

namespace Sprocket

namespace Text

/-! ### Capitals and small letters -/

namespace CaseRun

/-- The code point of the first small letter of a run. -/
def small (run : CaseRun) : Nat := (run.start + run.shift).toNat

/-- The dotted I, as a run of its own. -/
def dotted : CaseRun := ⟨0x130, 1, 1, 0⟩

/-- Whether no small letter of one run is a capital of another: all of them lie before its capitals
or behind them, or they step over its capitals. -/
def avoids (run other : CaseRun) : Bool :=
  run.small + (run.count - 1) * run.step < other.start ||
    other.start + (other.count - 1) * other.step < run.small ||
    ((run.step % other.step == 0 || run.count == 1) &&
      run.small % other.step != other.start % other.step)

variable {run other : CaseRun}

/-- A code point of a run is at some place in it. -/
theorem exists_of_covers {n : Nat} (h : run.covers n = true) :
    ∃ k < run.count, n = run.start + k * run.step := by
  simp only [covers, Bool.and_eq_true, decide_eq_true_eq, beq_iff_eq] at h
  obtain ⟨⟨hlow, hhigh⟩, hstep⟩ := h
  obtain ⟨k, hk⟩ := Nat.dvd_of_mod_eq_zero hstep
  rw [Nat.mul_comm] at hk
  have hlt : k * run.step < run.count * run.step := by omega
  exact ⟨k, Nat.lt_of_mul_lt_mul_right hlt, by omega⟩

theorem covers_of_avoids (h : run.avoids other = true) {k : Nat} (hk : k < run.count) :
    other.covers (run.small + k * run.step) = false := by
  by_contra hcovers
  obtain ⟨j, hj, heq⟩ := exists_of_covers (Bool.of_not_eq_false hcovers)
  have hlast : k * run.step ≤ (run.count - 1) * run.step :=
    Nat.mul_le_mul_right run.step (Nat.le_sub_one_of_lt hk)
  have hotherLast : j * other.step ≤ (other.count - 1) * other.step :=
    Nat.mul_le_mul_right other.step (Nat.le_sub_one_of_lt hj)
  simp only [avoids, Bool.or_eq_true, Bool.and_eq_true, decide_eq_true_eq, beq_iff_eq,
    bne_iff_ne] at h
  rcases h with (hbefore | hbehind) | ⟨hstep, hover⟩
  · omega
  · omega
  · -- both sides keep their remainder all along the run
    have hdvd : other.step ∣ k * run.step := by
      rcases hstep with hstep | hone
      · exact Nat.dvd_mul_left_of_dvd (Nat.dvd_of_mod_eq_zero hstep) k
      · obtain rfl : k = 0 := by omega
        simp
    have hmod := congrArg (· % other.step) heq
    simp only [Nat.add_mul_mod_self_right] at hmod
    rw [Nat.add_mod, Nat.mod_eq_zero_of_dvd hdvd, Nat.add_zero, Nat.mod_mod] at hmod
    exact hover hmod

end CaseRun

theorem caseRuns_avoid :
    (caseRuns.all fun run => (CaseRun.dotted :: caseRuns).all run.avoids) = true := by
  decide +kernel

theorem caseRuns_start_pos : ∀ run ∈ CaseRun.dotted :: caseRuns, 0 < run.start := by
  decide +kernel

/-- A character that is a capital of no run is its own small form. -/
theorem lowerChar_of_not_covered {c : Char}
    (h : ∀ run ∈ CaseRun.dotted :: caseRuns, run.covers c.toNat = false) : lowerChar c = [c] := by
  obtain ⟨hdotted, hruns⟩ := List.forall_mem_cons.1 h
  have hc : c ≠ dottedI := by
    rintro rfl
    exact absurd hdotted (by decide)
  have hnone : caseRuns.find? (·.covers c.toNat) = none := by
    simpa using hruns
  rw [lowerChar, if_neg hc, hnone]

/-- The first character of a small form is its own small form. -/
theorem lowerChar_eq_of_head? {c d : Char} (h : (lowerChar c).head? = some d) :
    lowerChar d = [d] := by
  by_cases hc : c = dottedI
  · obtain rfl : 'i' = d := by
      rw [hc] at h
      exact Option.some.inj h
    decide
  · cases hrun : caseRuns.find? (·.covers c.toNat) with
    | none =>
      have hself : lowerChar c = [c] := by rw [lowerChar, if_neg hc, hrun]
      rw [hself] at h
      obtain rfl : c = d := Option.some.inj h
      exact hself
    | some run =>
      rw [lowerChar, if_neg hc, hrun] at h
      obtain rfl : Char.ofNat (c.toNat + run.shift).toNat = d := Option.some.inj h
      have hmem := List.mem_of_find?_eq_some hrun
      have hcovers : run.covers c.toNat = true := by simpa using List.find?_some hrun
      obtain ⟨k, hk, hplace⟩ := CaseRun.exists_of_covers hcovers
      have hstart := (caseRuns_misses run hmem (0x20, 0x20) (by decide)).2.1
      have hsmall : (c.toNat + run.shift).toNat = run.small + k * run.step := by
        rw [hplace, CaseRun.small]
        push_cast
        omega
      refine lowerChar_of_not_covered fun other hother => ?_
      rcases toNat_ofNat_eq_or (c.toNat + run.shift).toNat with hnat | hnat
      · rw [hnat, hsmall]
        have havoids := List.all_eq_true.1 (List.all_eq_true.1 caseRuns_avoid run hmem) other hother
        exact CaseRun.covers_of_avoids havoids hk
      · have hpos := caseRuns_start_pos other hother
        rw [hnat]
        simp only [CaseRun.covers, Bool.and_eq_false_iff, decide_eq_false_iff_not]
        exact .inl (.inl (Nat.not_le_of_lt hpos))

theorem not_mem_lowerChar {c : Char} (h : c ≠ '@') : '@' ∉ lowerChar c := by
  have hmisses : ∀ run ∈ caseRuns, run.Misses (0x40, 0x40) := by decide +kernel
  have hpoint : 0x40 ≤ '@'.toNat ∧ '@'.toNat ≤ 0x40 := by decide
  intro hmark
  exact h (eq_of_mem_lowerChar_of_misses hmisses hpoint (by decide) hmark).symm

/-! ### First letters -/

/-- A small first letter changes nothing where the first letter is its own small form. -/
theorem lowerFirst_eq_self_iff {s : List Char} :
    lowerFirst s = s ↔ ∀ c ∈ s.head?, lowerChar c = [c] := by
  cases s with
  | nil => simp [lowerFirst]
  | cons c r =>
    rw [lowerFirst, List.head?_cons]
    constructor
    · intro h d hd
      obtain rfl : c = d := Option.some.inj hd
      rw [← List.singleton_append, List.append_left_inj] at h
      exact h
    · intro h
      rw [h c rfl]
      rfl

theorem lowerFirst_lowerFirst (s : List Char) : lowerFirst (lowerFirst s) = lowerFirst s := by
  rw [lowerFirst_eq_self_iff]
  cases s with
  | nil => simp [lowerFirst]
  | cons c r =>
    intro d hd
    rw [lowerFirst, List.head?_append_of_ne_nil _ (lowerChar_ne_nil c)] at hd
    exact lowerChar_eq_of_head? hd

theorem lowerFirst_eq_nil_iff {s : List Char} : lowerFirst s = [] ↔ s = [] := by
  cases s with
  | nil => simp [lowerFirst]
  | cons c r => simp [lowerFirst, lowerChar_ne_nil]

theorem not_mem_lowerFirst {s : List Char} (h : '@' ∉ s) : '@' ∉ lowerFirst s := by
  cases s with
  | nil => exact h
  | cons c r =>
    rw [List.mem_cons, not_or] at h
    rw [lowerFirst, List.mem_append, not_or]
    exact ⟨not_mem_lowerChar (Ne.symm h.1), h.2⟩

end Text

namespace Naming

/-! ### Casings -/

theorem not_mem_unmarked (s : List Char) : '@' ∉ unmarked s := fun hmark =>
  (mem_unmarked.1 hmark).2 rfl

theorem not_mem_clientChars (camel : Bool) (s : List Char) : '@' ∉ clientChars camel s := by
  cases camel with
  | false => exact not_mem_unmarked s
  | true => exact Text.not_mem_lowerFirst (not_mem_unmarked s)

theorem clientChars_unmarked (camel : Bool) (s : List Char) :
    clientChars camel (unmarked s) = clientChars camel s := by
  rw [clientChars, clientChars, unmarked_eq_self_iff.2 (not_mem_unmarked s)]

/-- One casing after another is the casing that asks for what either of them asks for. -/
theorem clientChars_clientChars (f g : Bool) (s : List Char) :
    clientChars g (clientChars f s) = clientChars (f || g) s := by
  cases f with
  | false => exact clientChars_unmarked g s
  | true =>
    have hself : unmarked (clientChars true s) = clientChars true s :=
      unmarked_eq_self_iff.2 (not_mem_clientChars true s)
    cases g with
    | false => exact hself
    | true =>
      rw [clientChars, if_pos rfl, hself]
      exact Text.lowerFirst_lowerFirst (unmarked s)

theorem clientChars_eq_nil_iff {camel : Bool} {s : List Char} :
    clientChars camel s = [] ↔ ∀ c ∈ s, c = '@' := by
  rw [← unmarked_eq_nil_iff]
  cases camel with
  | false => rfl
  | true => exact Text.lowerFirst_eq_nil_iff

/-- Casing leaves a text alone if it holds no mark, and begins with a small letter where that is
asked for. -/
theorem clientChars_eq_self_iff {camel : Bool} {s : List Char} :
    clientChars camel s = s ↔
      '@' ∉ s ∧ (camel = true → ∀ c ∈ s.head?, Text.lowerChar c = [c]) := by
  rw [← Text.lowerFirst_eq_self_iff]
  constructor
  · intro h
    have hmark : '@' ∉ s := by
      rw [← h]
      exact not_mem_clientChars camel s
    refine ⟨hmark, ?_⟩
    rintro rfl
    rwa [clientChars, if_pos rfl, unmarked_eq_self_iff.2 hmark] at h
  · rintro ⟨hmark, hfirst⟩
    rw [clientChars, unmarked_eq_self_iff.2 hmark]
    cases camel with
    | false => rfl
    | true => exact hfirst rfl

/-- **Casing again.** A client name stays as it is when it is cased in the same way once more, and a
name may lose its marks beforehand; two casings are one that asks for what either of them asks for.
No mark is left, and nothing is left exactly of names that are marks alone. The names that casing
leaves alone are those without a mark, whose first letter is small if that is asked for. -/
theorem client_settles (name : String) (f g : Bool) :
    client f (client f name) = client f name ∧
    client f (field name) = client f name ∧
    client g (client f name) = client (f || g) name ∧
    '@' ∉ (client f name).toList ∧
    (client f name = "" ↔ ∀ c ∈ name.toList, c = '@') ∧
    (client f name = name ↔
      '@' ∉ name.toList ∧ (f = true → ∀ c ∈ name.toList.head?, Text.lowerChar c = [c])) := by
  have hagain : ∀ g, client g (client f name) = client (f || g) name := by
    intro g
    rw [client, client, client, String.toList_ofList, clientChars_clientChars]
  have hunmarked : client f (field name) = client f name := by
    rw [client, field, client, String.toList_ofList, clientChars_unmarked]
  refine ⟨?_, hunmarked, hagain g, ?_, ?_, ?_⟩
  · rw [hagain f, Bool.or_self]
  · rw [client, String.toList_ofList]
    exact not_mem_clientChars f name.toList
  · rw [client, String.ofList_eq_empty_iff, clientChars_eq_nil_iff]
  · rw [← String.toList_inj, client, String.toList_ofList, clientChars_eq_self_iff]

-- the small form of the dotted I is two characters long, and stays so
example : client true "@İd" = "i̇d" ∧ client true "i̇d" = "i̇d" := by decide

end Naming

end Sprocket
