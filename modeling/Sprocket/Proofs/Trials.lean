import Sprocket.Proofs.Arguments
import Sprocket.Proofs.Resolution

/-!
# Binding trial arguments

What becomes of a list of expressions: a binding for each of them, or the error of the first one
that cannot be bound.

* `Binds`, `Offends`: what an expression is bound to, and what is wrong with one that is not bound;
* `ofExpression_eq_ok_iff`, `ofExpression_eq_error_iff`: one expression;
* `OuterToken`, `ValueOf`: expressions with a token behind the closing quote, and those without one;
* `offends_typeMapping_iff`: only a token behind the quote can be unknown;
* `binds_text_of_valueOf`: elsewhere a word that is no token belongs to a text;
* `bindAll_first_offender`: the whole list.
-/

namespace Sprocket.TrialBinding

open Text (trim)
open TrialArgument (parse IsToken EndsInToken ValueReadsAs TailReadsAs ReadsAs Separated)

/-- An expression is read, its token is known, and its literal is one of the host type that the
token stands for. The binding has the name as it was read. -/
inductive Binds (expression : String) : TrialBinding → Prop
  | mk {a : TrialArgument} {type : TokenType} {value : TrialValue}
      (read : parse expression = .ok a)
      (known : TokenType.ofToken? a.effectiveToken.toList = some type)
      (converted : TrialValue.convert a.literal type.host = some value) :
      Binds expression ⟨a.name, type, value⟩

/-- What is wrong with an expression: it cannot be read, or its token is not known, or its literal
is none of the host type that the token stands for. -/
inductive Offends (expression : String) : ResolutionCause → Prop
  | malformed {reason : ArgumentError} (h : parse expression = .error reason) :
      Offends expression (.malformedArgument expression reason)
  | unknownToken {a : TrialArgument} (read : parse expression = .ok a)
      (unknown : ¬ IsToken a.effectiveToken.toList) :
      Offends expression (.typeMapping (.unknownToken a.effectiveToken))
  | unconvertible {a : TrialArgument} {type : TokenType} (read : parse expression = .ok a)
      (known : TokenType.ofToken? a.effectiveToken.toList = some type)
      (h : TrialValue.convert a.literal type.host = none) :
      Offends expression (.unconvertible a.name a.literal type.host)

/-- The name of an expression, its value between quotes, and the token behind the closing quote. -/
inductive OuterToken (expression : String) : List Char → List Char → List Char → Prop
  | mk {before after value tail token : List Char}
      (separated : Separated expression.toList before after)
      (quoted : trim after = '"' :: (value ++ '"' :: tail)) (closed : '"' ∉ value)
      (behind : trim tail = ':' :: token) (nonblank : trim token ≠ []) :
      OuterToken expression (trim before) value (trim token)

/-- The name of an expression with no token behind its value, and the value: what stands between
quotes, or all that stands behind the name. -/
inductive ValueOf (expression : String) : List Char → List Char → Prop
  | bare {before after : List Char} (separated : Separated expression.toList before after)
      (first : (trim after).head? ≠ some '"') : ValueOf expression (trim before) (trim after)
  | quoted {before after value tail : List Char}
      (separated : Separated expression.toList before after)
      (quoted : trim after = '"' :: (value ++ '"' :: tail)) (closed : '"' ∉ value)
      (blank : trim tail = []) : ValueOf expression (trim before) value

/-! ### One expression -/

theorem ofToken?_eq_none_iff {token : List Char} :
    TokenType.ofToken? token = none ↔ ¬ IsToken token := by
  rw [← TrialArgument.isSome_ofToken?_iff, Option.not_isSome_iff_eq_none]

/-- An expression is bound to what it is to be bound to, and to nothing else. -/
theorem ofExpression_eq_ok_iff {expression : String} {b : TrialBinding} :
    ofExpression expression = .ok b ↔ Binds expression b := by
  constructor
  · intro h
    unfold ofExpression at h
    cases hread : parse expression with
    | error reason => simp [hread] at h
    | ok a =>
      cases hknown : TokenType.ofToken? a.effectiveToken.toList with
      | none => simp [hread, ofArgument, TokenType.ofToken, hknown] at h
      | some type =>
        cases hvalue : TrialValue.convert a.literal type.host with
        | none => simp [hread, ofArgument, TokenType.ofToken, hknown, hvalue] at h
        | some value =>
          simp only [hread, ofArgument, TokenType.ofToken, hknown, hvalue, Except.ok.injEq] at h
          exact h ▸ .mk hread hknown hvalue
  · rintro ⟨hread, hknown, hvalue⟩
    simp [ofExpression, hread, ofArgument, TokenType.ofToken, hknown, hvalue]

/-- The error of an expression says what is wrong with it. -/
theorem ofExpression_eq_error_iff {expression : String} {cause : ResolutionCause} :
    ofExpression expression = .error cause ↔ Offends expression cause := by
  constructor
  · intro h
    unfold ofExpression at h
    cases hread : parse expression with
    | error reason =>
      simp only [hread, Except.error.injEq] at h
      exact h ▸ .malformed hread
    | ok a =>
      cases hknown : TokenType.ofToken? a.effectiveToken.toList with
      | none =>
        simp only [hread, ofArgument, TokenType.ofToken, hknown, Except.error.injEq] at h
        exact h ▸ .unknownToken hread (ofToken?_eq_none_iff.1 hknown)
      | some type =>
        cases hvalue : TrialValue.convert a.literal type.host with
        | none =>
          simp only [hread, ofArgument, TokenType.ofToken, hknown, hvalue, Except.error.injEq] at h
          exact h ▸ .unconvertible hread hknown hvalue
        | some value => simp [hread, ofArgument, TokenType.ofToken, hknown, hvalue] at h
  · rintro (hread | ⟨hread, hunknown⟩ | ⟨hread, hknown, hvalue⟩)
    · simp [ofExpression, hread]
    · simp [ofExpression, hread, ofArgument, TokenType.ofToken, ofToken?_eq_none_iff.2 hunknown]
    · simp [ofExpression, hread, ofArgument, TokenType.ofToken, hknown, hvalue]

/-! ### Tokens -/

theorem isToken_trim_iff {token : List Char} : IsToken (trim token) ↔ IsToken token := by
  simp only [IsToken, Text.trim_trim]

theorem isToken_default : IsToken TrialArgument.defaultToken.toList :=
  (TrialArgument.isSome_ofToken?_iff _).1 rfl

/-- The token of a value is a known one, if it has any. -/
theorem isToken_of_valueReadsAs {value literal token : List Char}
    (h : ValueReadsAs value literal (some token)) : IsToken token := by
  cases h with
  | typed hends => exact isToken_trim_iff.2 hends.known

/-- Behind a closing quote a token is read whatever it is, and the value stays whole. -/
theorem parse_of_outerToken {expression : String} {name value token : List Char}
    (h : OuterToken expression name value token) :
    parse expression =
      .ok ⟨String.ofList name, String.ofList value, some (String.ofList token)⟩ := by
  obtain ⟨separated, quoted, closed, behind, nonblank⟩ := h
  refine TrialArgument.parse_eq_ok_iff.2 ⟨_, _, separated, String.toList_ofList, ?_⟩
  have hreads := ReadsAs.quoted closed (TailReadsAs.token behind nonblank)
  simpa [quoted] using hreads

/-- An expression that is read has a known token, or one behind a closing quote. -/
theorem isToken_or_outerToken {expression : String} {a : TrialArgument}
    (h : parse expression = .ok a) :
    IsToken a.effectiveToken.toList ∨
      ∃ name value, OuterToken expression name value a.effectiveToken.toList := by
  obtain ⟨before, after, separated, -, hreads⟩ := TrialArgument.parse_eq_ok_iff.1 h
  unfold TrialArgument.effectiveToken
  cases htoken : a.token with
  | none => exact .inl isToken_default
  | some token =>
    rw [htoken, Option.map_some] at hreads
    rw [Option.getD_some]
    generalize token.toList = chars at hreads ⊢
    generalize hafter : trim after = text at hreads
    cases hreads with
    | bare _ hvalue => exact .inl (isToken_of_valueReadsAs hvalue)
    | quoted closed htail =>
      cases htail with
      | blank _ hvalue => exact .inl (isToken_of_valueReadsAs hvalue)
      | token behind nonblank => exact .inr ⟨_, _, .mk separated hafter closed behind nonblank⟩

/-- Only a token behind a closing quote can be unknown. -/
theorem offends_typeMapping_iff {expression : String} {e : TypeError} :
    Offends expression (.typeMapping e) ↔ ∃ name value token,
      OuterToken expression name value token ∧ ¬ IsToken token ∧
        e = .unknownToken (String.ofList token) := by
  constructor
  · intro h
    cases h with
    | @unknownToken a hread hunknown =>
      obtain ⟨name, value, houter⟩ := (isToken_or_outerToken hread).resolve_left hunknown
      exact ⟨name, value, _, houter, hunknown, by rw [String.ofList_toList]⟩
  · rintro ⟨name, value, token, houter, hunknown, rfl⟩
    have hread := parse_of_outerToken houter
    exact .unknownToken hread (by simpa [TrialArgument.effectiveToken] using hunknown)

/-! ### Words that are no tokens -/

/-- A value is cut at its last colon only. -/
theorem not_endsInToken {front word : List Char} (hlast : ':' ∉ word) (hword : ¬ IsToken word)
    (literal token : List Char) : ¬ EndsInToken (front ++ ':' :: word) literal token := by
  intro h
  have hsplit := Text.splitLast_eq_some_iff.2 ⟨h.split, h.last⟩
  rw [Text.splitLast_eq_some_iff.2 ⟨rfl, hlast⟩, Option.some.injEq, Prod.mk.injEq] at hsplit
  exact hword (hsplit.2 ▸ h.known)

/-- A value that ends in no token is the literal. -/
theorem parse_of_valueOf {expression : String} {name value : List Char}
    (h : ValueOf expression name value)
    (hplain : ∀ literal token, ¬ EndsInToken value literal token) :
    parse expression = .ok ⟨String.ofList name, String.ofList value, none⟩ := by
  have hvalue := ValueReadsAs.plain hplain
  cases h with
  | bare separated first =>
    refine TrialArgument.parse_eq_ok_iff.2 ⟨_, _, separated, String.toList_ofList, ?_⟩
    simpa using ReadsAs.bare first hvalue
  | quoted separated quoted closed blank =>
    refine TrialArgument.parse_eq_ok_iff.2 ⟨_, _, separated, String.toList_ofList, ?_⟩
    simpa [quoted] using ReadsAs.quoted closed (TailReadsAs.blank blank hvalue)

/-- Where no token stands behind it, a value that ends in none is bound as a text, and all of it. -/
theorem binds_text_of_valueOf {expression : String} {name value : List Char}
    (h : ValueOf expression name value)
    (hplain : ∀ literal token, ¬ EndsInToken value literal token) :
    Binds expression ⟨String.ofList name, ⟨.string, .text⟩, .text (String.ofList value)⟩ := by
  have hdefault :
      TokenType.ofToken? TrialArgument.defaultToken.toList = some ⟨.string, .text⟩ := rfl
  exact .mk (parse_of_valueOf h hplain) hdefault rfl

/-! ### Lists of expressions -/

/-- **Binding a list of expressions.** All expressions are bound, in order and each to what it is to
be bound to, exactly if each of them can be; otherwise the error is that of the first one that
cannot, with the procedure. Only a token behind a closing quote can be unknown: a value before one
stays whole, and without one a value with a word that is no token behind its last colon is a
text. -/
theorem bindAll_first_offender (procedure : String) (expressions : List String) :
    ((∃ bindings, bindAll procedure expressions = .ok bindings) ↔
      ∀ e ∈ expressions, ∃ b, Binds e b) ∧
    (∀ bindings, bindAll procedure expressions = .ok bindings ↔
      List.Forall₂ Binds expressions bindings) ∧
    (∀ error, bindAll procedure expressions = .error error ↔
      ∃ before e after cause, expressions = before ++ e :: after ∧
        (∀ p ∈ before, ∃ b, Binds p b) ∧ Offends e cause ∧ error = ⟨procedure, cause⟩) ∧
    (∀ expression error, Offends expression (.typeMapping error) ↔
      ∃ name value token, OuterToken expression name value token ∧ ¬ IsToken token ∧
        error = .unknownToken (String.ofList token)) ∧
    (∀ expression name value token, OuterToken expression name value token →
      parse expression =
        .ok ⟨String.ofList name, String.ofList value, some (String.ofList token)⟩) ∧
    ∀ expression name front word, ValueOf expression name (front ++ ':' :: word) → ':' ∉ word →
      ¬ IsToken word → Binds expression
        ⟨String.ofList name, ⟨.string, .text⟩, .text (String.ofList (front ++ ':' :: word))⟩ := by
  refine ⟨?_, fun bindings => ?_, fun error => ?_, fun _ _ => offends_typeMapping_iff,
    fun _ _ _ _ => parse_of_outerToken, fun _ _ _ _ hvalue hlast hword =>
      binds_text_of_valueOf hvalue (not_endsInToken hlast hword)⟩
  · simp only [exists_bindAll_eq_ok_iff, ofExpression_eq_ok_iff]
  · simp only [bindAll_eq_ok_iff, BindingsOf, ofExpression_eq_ok_iff]
  · rw [bindAll_eq_mapM, mapM_eq_error_iff]
    simp only [mapError_eq_ok_iff, mapError_eq_error_iff, ofExpression_eq_ok_iff,
      ofExpression_eq_error_iff]
    constructor
    · rintro ⟨before, e, after, hsplit, hbefore, cause, hcause, rfl⟩
      exact ⟨before, e, after, cause, hsplit, hbefore, hcause, rfl⟩
    · rintro ⟨before, e, after, cause, hsplit, hbefore, hcause, rfl⟩
      exact ⟨before, e, after, hsplit, hbefore, cause, hcause, rfl⟩

-- the word behind the last colon is no token, and only the one behind the quote is an error
example : bindAll "Find" ["@At: 10:30", "@Id: \"5:foo\"", "@To: \"5\": foo", "@No"] =
    .error ⟨"Find", .typeMapping (.unknownToken "foo")⟩ := rfl

end Sprocket.TrialBinding
