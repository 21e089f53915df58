/-!
# Blank characters

The characters with the Unicode property `White_Space`, and trimming by that property.
Readers in this library work on lists of characters, so trimming does too.
-/

namespace Sprocket.Text

/-- The code points with the property `White_Space`, as inclusive ranges. -/
def blankRanges : List (Nat × Nat) :=
  [(0x9, 0xD), (0x20, 0x20), (0x85, 0x85), (0xA0, 0xA0), (0x1680, 0x1680), (0x2000, 0x200A),
    (0x2028, 0x2029), (0x202F, 0x202F), (0x205F, 0x205F), (0x3000, 0x3000)]

/-- Whether a character has the property `White_Space`. -/
def isBlank (c : Char) : Bool :=
  blankRanges.any fun range => range.1 ≤ c.toNat && c.toNat ≤ range.2

/-- The text from its first character that is not blank. -/
def trimStart (s : List Char) : List Char := s.dropWhile isBlank

/-- The text up to its last character that is not blank. -/
def trimEnd : List Char → List Char
  | [] => []
  | c :: r =>
    match trimEnd r with
    | [] => if isBlank c then [] else [c]
    | kept => c :: kept

/-- The text without the blanks at its two ends. -/
def trim (s : List Char) : List Char := trimEnd (trimStart s)

/-- A string without the blanks at its two ends. -/
def strip (s : String) : String := String.ofList (trim s.toList)

/-- Whether a string holds blanks only; the empty string does. -/
def allBlank (s : String) : Bool := s.toList.all isBlank

@[simp] theorem trimStart_nil : trimStart [] = [] := rfl

@[simp] theorem trimEnd_nil : trimEnd [] = [] := rfl

@[simp] theorem trim_nil : trim [] = [] := rfl

/-- Trimming leaves nothing exactly when every character is blank. -/
theorem trimEnd_eq_nil_iff (s : List Char) : trimEnd s = [] ↔ s.all isBlank = true := by
  induction s with
  | nil => simp
  | cons c r ih =>
    cases h : trimEnd r with
    | nil => by_cases hc : isBlank c = true <;> simp [trimEnd, h, hc, ← ih]
    | cons d t => simp [trimEnd, h, ← ih]

theorem trimEnd_sublist (s : List Char) : (trimEnd s).Sublist s := by
  induction s with
  | nil => exact .slnil
  | cons c r ih =>
    unfold trimEnd
    split
    · split
      · exact List.nil_sublist _
      · exact (List.nil_sublist r).cons_cons c
    · exact ih.cons_cons c

@[simp] theorem trimStart_cons_of_blank {c : Char} (h : isBlank c = true) (s : List Char) :
    trimStart (c :: s) = trimStart s := List.dropWhile_cons_of_pos h

@[simp] theorem trimStart_cons_of_not_blank {c : Char} (h : isBlank c = false) (s : List Char) :
    trimStart (c :: s) = c :: s := by
  simp [trimStart, h]

theorem trimEnd_cons_of_not_blank {c : Char} (h : isBlank c = false) (s : List Char) :
    trimEnd (c :: s) = c :: trimEnd s := by
  cases hs : trimEnd s <;> simp [trimEnd, hs, h]

/-- Blanks at the end of a text that holds more than blanks are looked for in that text alone. -/
theorem trimEnd_append {s t : List Char} (h : trimEnd t ≠ []) :
    trimEnd (s ++ t) = s ++ trimEnd t := by
  induction s with
  | nil => rfl
  | cons c s ih =>
    have hs : trimEnd (s ++ t) ≠ [] := ih ▸ List.append_ne_nil_of_right_ne_nil s h
    rw [List.cons_append, trimEnd, ih] at *
    split
    next hnil => exact absurd hnil hs
    · rfl

theorem trimEnd_trimEnd (s : List Char) : trimEnd (trimEnd s) = trimEnd s := by
  induction s with
  | nil => rfl
  | cons c s ih =>
    cases hs : trimEnd s with
    | nil => cases hc : isBlank c <;> simp [trimEnd, hs, hc]
    | cons d r =>
      have hcons : trimEnd (c :: s) = c :: d :: r := by rw [trimEnd, hs]
      rw [hcons, trimEnd, ← hs, ih, hs]

theorem trimStart_eq_self_iff (s : List Char) :
    trimStart s = s ↔ ∀ c ∈ s.head?, isBlank c = false := by
  cases s with
  | nil => simp
  | cons c r =>
    cases hc : isBlank c with
    | false => simp [hc]
    | true =>
      have hne : trimStart r ≠ c :: r := fun h => by
        have hlength : (trimStart r).length ≤ r.length :=
          (List.dropWhile_sublist isBlank).length_le
        rw [h] at hlength
        exact Nat.not_succ_le_self _ hlength
      simp [hne, hc]

/-- A text stays as it is exactly if it has a blank at neither end. -/
theorem trim_eq_self_iff (s : List Char) : trim s = s ↔ trimStart s = s ∧ trimEnd s = s := by
  constructor
  · intro h
    have hstart : trimStart s = s := by
      have hlength := (trimEnd_sublist (trimStart s)).length_le
      rw [← trim, h] at hlength
      exact (List.dropWhile_sublist isBlank).eq_of_length_le hlength
    exact ⟨hstart, by rwa [trim, hstart] at h⟩
  · rintro ⟨hstart, hend⟩
    rw [trim, hstart, hend]

/-- A text that has no blank in front stays as it is where more text without blanks at its ends
follows. -/
theorem trim_append {s t : List Char} (hs : trimStart s = s) (ht : trim t = t) (hne : t ≠ []) :
    trim (s ++ t) = s ++ t := by
  have hend : trimEnd t = t := ((trim_eq_self_iff t).1 ht).2
  cases s with
  | nil => exact ht
  | cons c r =>
    have hc : isBlank c = false := (trimStart_eq_self_iff _).1 hs c rfl
    refine (trim_eq_self_iff _).2 ⟨trimStart_cons_of_not_blank hc _, ?_⟩
    rw [trimEnd_append (hend.symm ▸ hne), hend]

/-- Trimming again changes nothing. -/
@[simp] theorem trim_trim (s : List Char) : trim (trim s) = trim s := by
  refine (trim_eq_self_iff _).2 ⟨?_, trimEnd_trimEnd _⟩
  cases hs : trimStart s with
  | nil => simp [trim, hs]
  | cons c r =>
    have hc : isBlank c = false := by
      have hhead := List.head?_dropWhile_not isBlank s
      rw [← trimStart, hs] at hhead
      simpa using hhead
    rw [trim, hs, trimEnd_cons_of_not_blank hc, trimStart_cons_of_not_blank hc]

theorem strip_eq_self_iff (s : String) : strip s = s ↔ trim s.toList = s.toList := by
  rw [strip, ← String.toList_inj, String.toList_ofList]

/-- The characters of a trimmed text are characters of the text. -/
theorem mem_of_mem_trim {s : List Char} {c : Char} (h : c ∈ trim s) : c ∈ s :=
  (List.dropWhile_sublist isBlank).subset ((trimEnd_sublist _).subset h)

end Sprocket.Text
