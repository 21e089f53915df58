import Sprocket.Trial.Argument

/-!
# The grammar of trial arguments

What a trial argument may look like, without regard to how it is read, and that reading accepts
exactly this.

* `IsToken`, `EndsInToken`: type tokens, and values that end in one;
* `ValueReadsAs`, `TailReadsAs`, `ReadsAs`: the literal and the token of a value, of a quoted value
  with what follows it, and of all that stands behind a name;
* `Separated`, `Complete`: the expressions that are arguments;
* `readValue_eq_ok_iff`: what stands behind a name is read as the grammar says;
* `parse_eq_ok_iff_readsAs`: an expression is accepted exactly if the grammar has it.
-/

namespace Sprocket.TrialArgument

open Text (trim)

/-! ### Grammar -/

/-- A text is a type token, but for blanks at its ends and the case of ASCII letters. -/
def IsToken (s : List Char) : Prop :=
  ∃ names type, (names, type) ∈ typeTokens ∧
    ∃ name ∈ names, Text.asciiLower (trim s) = name.toList

/-- What stands behind the last colon of a value is a type token. -/
structure EndsInToken (value literal token : List Char) : Prop where
  split : value = literal ++ ':' :: token
  last : ':' ∉ token
  known : IsToken token

/-- The literal and the token of a value: a token at its end is split off. -/
inductive ValueReadsAs (value : List Char) : List Char → Option (List Char) → Prop
  | typed {literal token : List Char} (h : EndsInToken value literal token) :
      ValueReadsAs value (trim literal) (some (trim token))
  | plain (h : ∀ literal token, ¬ EndsInToken value literal token) : ValueReadsAs value value none

/-- The literal and the token of a quoted value with a tail behind it: a token in the tail leaves
the value as it is. -/
inductive TailReadsAs (value tail : List Char) : List Char → Option (List Char) → Prop
  | blank {literal : List Char} {token : Option (List Char)} (h : trim tail = [])
      (hvalue : ValueReadsAs value literal token) : TailReadsAs value tail literal token
  | token {token : List Char} (h : trim tail = ':' :: token) (nonblank : trim token ≠ []) :
      TailReadsAs value tail value (some (trim token))

/-- The literal and the token of the text behind a name: a value that begins with no quote, or a
value between quotes with a tail. -/
inductive ReadsAs : List Char → List Char → Option (List Char) → Prop
  | bare {value literal : List Char} {token : Option (List Char)} (first : value.head? ≠ some '"')
      (h : ValueReadsAs value literal token) : ReadsAs value literal token
  | quoted {value tail literal : List Char} {token : Option (List Char)} (closed : '"' ∉ value)
      (h : TailReadsAs value tail literal token) :
      ReadsAs ('"' :: (value ++ '"' :: tail)) literal token

/-- A text holds a value and nothing else: it begins with no quote, or the quote is closed and what
follows is blank, or a colon and something that is not blank. -/
def Complete (s : List Char) : Prop :=
  s.head? ≠ some '"' ∨ ∃ value tail, s = '"' :: (value ++ '"' :: tail) ∧ '"' ∉ value ∧
    (trim tail = [] ∨ ∃ token, trim tail = ':' :: token ∧ trim token ≠ [])

/-- An expression is cut at its first colon, and what stands before that is not blank. -/
structure Separated (expression before after : List Char) : Prop where
  split : expression = before ++ ':' :: after
  first : ':' ∉ before
  nonblank : trim before ≠ []

/-! ### Values -/

theorem isSome_ofToken?_iff (s : List Char) : (TokenType.ofToken? s).isSome ↔ IsToken s := by
  simp only [TokenType.ofToken?, lookupName, Option.isSome_map, List.find?_isSome, Prod.exists,
    List.contains_iff_mem, IsToken, lookupForm]
  constructor
  · rintro ⟨names, type, hentry, hname⟩
    exact ⟨names, type, hentry, _, hname, String.toList_ofList.symm⟩
  · rintro ⟨names, type, hentry, name, hname, hlower⟩
    refine ⟨names, type, hentry, ?_⟩
    rwa [hlower, String.ofList_toList]

theorem splitKnownToken_of_endsInToken {value literal token : List Char}
    (h : EndsInToken value literal token) :
    splitKnownToken value = (trim literal, some (trim token)) := by
  rw [splitKnownToken, Text.splitLast_eq_some_iff.2 ⟨h.split, h.last⟩]
  exact if_pos ((isSome_ofToken?_iff token).2 h.known)

theorem splitKnownToken_of_forall_not {value : List Char}
    (h : ∀ literal token, ¬ EndsInToken value literal token) :
    splitKnownToken value = (value, none) := by
  unfold splitKnownToken
  split
  next literal token hsplit =>
    obtain ⟨hvalue, hlast⟩ := Text.splitLast_eq_some_iff.1 hsplit
    exact if_neg fun hknown => h literal token ⟨hvalue, hlast, (isSome_ofToken?_iff token).1 hknown⟩
  · rfl

theorem splitKnownToken_eq_iff {value literal : List Char} {token : Option (List Char)} :
    splitKnownToken value = (literal, token) ↔ ValueReadsAs value literal token := by
  constructor
  · intro h
    by_cases htoken : ∃ l t, EndsInToken value l t
    · obtain ⟨l, t, ht⟩ := htoken
      rw [splitKnownToken_of_endsInToken ht, Prod.mk.injEq] at h
      obtain ⟨rfl, rfl⟩ := h
      exact .typed ht
    · have hplain : ∀ l t, ¬ EndsInToken value l t := fun l t ht => htoken ⟨l, t, ht⟩
      rw [splitKnownToken_of_forall_not hplain, Prod.mk.injEq] at h
      obtain ⟨rfl, rfl⟩ := h
      exact .plain hplain
  · rintro (h | h)
    · exact splitKnownToken_of_endsInToken h
    · exact splitKnownToken_of_forall_not h

/-! ### The text behind a name -/

theorem readTail_eq_ok_iff {value tail literal : List Char} {token : Option (List Char)} :
    readTail value tail = .ok (literal, token) ↔ TailReadsAs value tail literal token := by
  constructor
  · intro h
    unfold readTail at h
    split at h
    next htail => exact .blank htail (splitKnownToken_eq_iff.1 (Except.ok.inj h))
    next r htail =>
      split at h
      · cases h
      next htoken =>
        cases h
        exact .token htail htoken
    · cases h
  · rintro (⟨htail, hvalue⟩ | ⟨htail, htoken⟩)
    · rw [readTail, htail]
      exact congrArg Except.ok (splitKnownToken_eq_iff.2 hvalue)
    · obtain ⟨c, r, hr⟩ := List.exists_cons_of_ne_nil htoken
      simp only [readTail, htail, hr]

/-- **The grammar is what is read.** -/
theorem readValue_eq_ok_iff {s literal : List Char} {token : Option (List Char)} :
    readValue s = .ok (literal, token) ↔ ReadsAs s literal token := by
  constructor
  · intro h
    unfold readValue at h
    split at h
    next quoted =>
      split at h
      next value tail hsplit =>
        obtain ⟨rfl, hclosed⟩ := Text.splitFirst_eq_some_iff.1 hsplit
        exact .quoted hclosed (readTail_eq_ok_iff.1 h)
      · cases h
    next hbare =>
      refine .bare (fun hfirst => ?_) (splitKnownToken_eq_iff.1 (Except.ok.inj h))
      obtain ⟨r, rfl⟩ := List.head?_eq_some_iff.1 hfirst
      exact hbare r rfl
  · rintro (⟨hfirst, hvalue⟩ | ⟨hclosed, htail⟩)
    · unfold readValue
      split
      next => exact absurd rfl hfirst
      · exact congrArg Except.ok (splitKnownToken_eq_iff.2 hvalue)
    · simp only [readValue, Text.splitFirst_eq_some_iff.2 ⟨rfl, hclosed⟩]
      exact readTail_eq_ok_iff.2 htail

/-- Every value has a literal. -/
theorem exists_valueReadsAs (value : List Char) :
    ∃ literal token, ValueReadsAs value literal token :=
  ⟨_, _, splitKnownToken_eq_iff.1 rfl⟩

theorem exists_tailReadsAs_iff {value tail : List Char} :
    (∃ literal token, TailReadsAs value tail literal token) ↔
      trim tail = [] ∨ ∃ token, trim tail = ':' :: token ∧ trim token ≠ [] := by
  constructor
  · rintro ⟨literal, token, ⟨hblank, -⟩ | ⟨hcolon, htoken⟩⟩
    · exact .inl hblank
    · exact .inr ⟨_, hcolon, htoken⟩
  · rintro (hblank | ⟨token, hcolon, htoken⟩)
    · obtain ⟨literal, token, hvalue⟩ := exists_valueReadsAs value
      exact ⟨literal, token, .blank hblank hvalue⟩
    · exact ⟨_, _, .token hcolon htoken⟩

theorem exists_readsAs_iff {s : List Char} :
    (∃ literal token, ReadsAs s literal token) ↔ Complete s := by
  constructor
  · rintro ⟨literal, token, ⟨hfirst, -⟩ | ⟨hclosed, htail⟩⟩
    · exact .inl hfirst
    · exact .inr ⟨_, _, rfl, hclosed, exists_tailReadsAs_iff.1 ⟨_, _, htail⟩⟩
  · rintro (hfirst | ⟨value, tail, rfl, hclosed, htail⟩)
    · obtain ⟨literal, token, hvalue⟩ := exists_valueReadsAs s
      exact ⟨literal, token, .bare hfirst hvalue⟩
    · obtain ⟨literal, token, htail⟩ := exists_tailReadsAs_iff.2 htail
      exact ⟨literal, token, .quoted hclosed htail⟩

/-! ### Expressions -/

/-- An argument is read from the two sides of the first colon of an expression. -/
theorem parse_eq_ok_iff {expression : String} {a : TrialArgument} :
    parse expression = .ok a ↔ ∃ before after, Separated expression.toList before after ∧
      a.name.toList = trim before ∧
      ReadsAs (trim after) a.literal.toList (a.token.map String.toList) := by
  constructor
  · intro h
    unfold parse at h
    split at h
    · cases h
    next before after hsplit =>
      obtain ⟨hexpression, hfirst⟩ := Text.splitFirst_eq_some_iff.1 hsplit
      split at h
      · cases h
      next hname =>
        split at h
        · cases h
        next literal token hvalue =>
          cases h
          refine ⟨before, after, ⟨hexpression, hfirst, by simpa using hname⟩,
            String.toList_ofList, ?_⟩
          have htoken : (token.map String.ofList).map String.toList = token := by
            cases token <;> simp
          simpa [htoken] using readValue_eq_ok_iff.1 hvalue
  · rintro ⟨before, after, ⟨hexpression, hfirst, hname⟩, hbefore, hreads⟩
    have htoken : (a.token.map String.toList).map String.ofList = a.token := by
      cases a.token <;> simp
    simp only [parse, Text.splitFirst_eq_some_iff.2 ⟨hexpression, hfirst⟩, List.isEmpty_iff,
      if_neg hname, readValue_eq_ok_iff.2 hreads, htoken]
    rw [← hbefore, String.ofList_toList, String.ofList_toList]

/-- **The parser accepts its grammar.** An expression is accepted exactly if it is cut at its first
colon into a name that is not blank and a text that holds a value. The argument then has the trimmed
name, and the literal and the token that the trimmed text behind the colon is read as. -/
theorem parse_eq_ok_iff_readsAs (expression : String) :
    ((∃ a, parse expression = .ok a) ↔
      ∃ before after, Separated expression.toList before after ∧ Complete (trim after)) ∧
    ∀ a, parse expression = .ok a ↔
      ∃ before after, Separated expression.toList before after ∧ a.name.toList = trim before ∧
        ReadsAs (trim after) a.literal.toList (a.token.map String.toList) := by
  refine ⟨⟨?_, ?_⟩, fun a => parse_eq_ok_iff⟩
  · rintro ⟨a, ha⟩
    obtain ⟨before, after, hseparated, -, hreads⟩ := parse_eq_ok_iff.1 ha
    exact ⟨before, after, hseparated, exists_readsAs_iff.1 ⟨_, _, hreads⟩⟩
  · rintro ⟨before, after, hseparated, hcomplete⟩
    obtain ⟨literal, token, hreads⟩ := exists_readsAs_iff.2 hcomplete
    refine ⟨⟨String.ofList (trim before), String.ofList literal, token.map String.ofList⟩,
      parse_eq_ok_iff.2 ⟨before, after, hseparated, String.toList_ofList, ?_⟩⟩
    have htoken : (token.map String.ofList).map String.toList = token := by
      cases token <;> simp
    simpa [htoken] using hreads

-- only a known token is cut off at the last colon, so a time keeps its own
example : parse "@At: 10:30" = .ok ⟨"@At", "10:30", none⟩ ∧
    parse "@Id: 5 : INT" = .ok ⟨"@Id", "5", some "INT"⟩ := ⟨rfl, rfl⟩

end Sprocket.TrialArgument
