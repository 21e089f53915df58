import Sprocket.Proofs.Arguments
import Sprocket.Trial.Binding

/-!
# The spellings of a trial argument

An argument with a type token can be written with the token behind the closing quote, inside the
quotes, or without quotes. The first spelling gives back what was written whatever the token is;
the other two agree with it where the token is a known one and the literal has no blanks to lose.

* `Spelling`, `Spelling.write`: the three spellings;
* `readsAs_outer`, `readsAs_value`: what stands behind the name is read as written;
* `parse_write`: so are whole expressions, and any accepted one can be written again.
-/

namespace Sprocket.TrialArgument

open Text (trim trimStart trimEnd strip)

/-- Where an expression writes the type token of its argument. -/
inductive Spelling where
  | outer | inner | bare
  deriving DecidableEq, Repr

/-- What a spelling writes behind the name. -/
def Spelling.value (literal token : String) : Spelling → String
  | outer => "\"" ++ literal ++ "\":" ++ token
  | inner => "\"" ++ literal ++ ":" ++ token ++ "\""
  | bare => literal ++ ":" ++ token

/-- An argument in a spelling. -/
def Spelling.write (spelling : Spelling) (name literal token : String) : String :=
  name ++ ": " ++ spelling.value literal token

/-! ### Tokens -/

/-- The names of the type tokens hold no character that an expression gives a meaning to. -/
theorem not_mem_typeTokens {c : Char} (hc : c = ':' ∨ c = '"') :
    ∀ entry ∈ typeTokens, ∀ name ∈ entry.1, c ∉ name.toList := by
  rcases hc with rfl | rfl <;> decide

theorem IsToken.not_mem {token : List Char} (h : IsToken token) {c : Char}
    (hc : c = ':' ∨ c = '"') : c ∉ trim token := by
  obtain ⟨names, type, hentry, name, hname, hlower⟩ := h
  intro hmem
  have hfixed : c.toLower = c := by rcases hc with rfl | rfl <;> decide
  have hc' : c ∈ name.toList := by
    rw [← hlower]
    exact List.mem_map.2 ⟨c, hmem, hfixed⟩
  exact not_mem_typeTokens hc _ hentry name hname hc'

/-- The token that is read with a value is trimmed and not blank. -/
theorem ReadsAs.token_trimmed {s literal token : List Char} (h : ReadsAs s literal (some token)) :
    trim token = token ∧ token ≠ [] := by
  have typed : ∀ {value}, ValueReadsAs value literal (some token) →
      trim token = token ∧ token ≠ [] := by
    intro value hvalue
    cases hvalue with
    | typed hends =>
      refine ⟨Text.trim_trim _, fun hnil => ?_⟩
      obtain ⟨names, type, hentry, name, hname, hlower⟩ := hends.known
      rw [hnil] at hlower
      have hnonempty : ∀ entry ∈ typeTokens, ∀ name ∈ entry.1, name.toList ≠ [] := by decide
      exact hnonempty _ hentry name hname hlower.symm
  cases h with
  | bare _ hvalue => exact typed hvalue
  | quoted _ htail =>
    cases htail with
    | blank _ hvalue => exact typed hvalue
    | token _ hnonblank => exact ⟨Text.trim_trim _, hnonblank⟩

/-! ### Values -/

/-- **A token behind the closing quote.** Neither the literal nor the token loses anything,
whatever the literal holds but quotes. -/
theorem readsAs_outer {literal token : String} (hquote : '"' ∉ literal.toList)
    (htoken : strip token = token) (hne : token ≠ "") :
    ReadsAs (trim (' ' :: (Spelling.outer.value literal token).toList)) literal.toList
      (some token.toList) := by
  have htoken' : trim token.toList = token.toList := (Text.strip_eq_self_iff token).1 htoken
  have hne' : token.toList ≠ [] := fun h => hne (String.toList_eq_nil_iff.1 h)
  have htail : trim (':' :: token.toList) = ':' :: token.toList :=
    Text.trim_append (s := [':']) rfl htoken' hne'
  have hclosed : trim ('"' :: ':' :: token.toList) = '"' :: ':' :: token.toList :=
    Text.trim_append (s := ['"', ':']) rfl htoken' hne'
  have hvalue : trim (' ' :: (Spelling.outer.value literal token).toList) =
      '"' :: (literal.toList ++ '"' :: ':' :: token.toList) := by
    have h := Text.trim_append (s := '"' :: literal.toList) rfl hclosed (List.cons_ne_nil _ _)
    rw [trim, Text.trimStart_cons_of_blank rfl, ← trim]
    simpa [Spelling.value] using h
  have hreads : TailReadsAs literal.toList (':' :: token.toList) literal.toList
      (some (trim token.toList)) := .token htail (htoken'.symm ▸ hne')
  rw [htoken'] at hreads
  rw [hvalue]
  exact .quoted hquote hreads

/-- A known token behind the last colon of a value, and a literal without blanks at its ends. -/
theorem valueReadsAs_typed {literal token : List Char} (hliteral : trim literal = literal)
    (htoken : trim token = token) (hknown : IsToken token) :
    ValueReadsAs (literal ++ ':' :: token) literal (some token) := by
  have hends : EndsInToken (literal ++ ':' :: token) literal token :=
    ⟨rfl, htoken ▸ hknown.not_mem (.inl rfl), hknown⟩
  have hreads := ValueReadsAs.typed hends
  rwa [hliteral, htoken] at hreads

/-- A known token is found in all three places, and a literal without blanks at its ends loses
nothing in any. -/
theorem readsAs_value {literal token : String} (hquote : '"' ∉ literal.toList)
    (hliteral : strip literal = literal) (htoken : strip token = token) (hne : token ≠ "")
    (hknown : IsToken token.toList) (spelling : Spelling) :
    ReadsAs (trim (' ' :: (spelling.value literal token).toList)) literal.toList
      (some token.toList) := by
  have hliteral' : trim literal.toList = literal.toList :=
    (Text.strip_eq_self_iff literal).1 hliteral
  have htoken' : trim token.toList = token.toList := (Text.strip_eq_self_iff token).1 htoken
  have hne' : token.toList ≠ [] := fun h => hne (String.toList_eq_nil_iff.1 h)
  have htyped := valueReadsAs_typed hliteral' htoken' hknown
  have hclear : '"' ∉ literal.toList ++ ':' :: token.toList := by
    have : '"' ∉ token.toList := htoken' ▸ hknown.not_mem (.inr rfl)
    simp [hquote, this]
  rw [trim, Text.trimStart_cons_of_blank rfl, ← trim]
  cases spelling with
  | outer => exact readsAs_outer hquote htoken hne
  | inner =>
    have hvalue : trim (Spelling.inner.value literal token).toList =
        '"' :: ((literal.toList ++ ':' :: token.toList) ++ ['"']) := by
      have h := Text.trim_append (s := '"' :: (literal.toList ++ ':' :: token.toList)) (t := ['"'])
        rfl rfl (List.cons_ne_nil _ _)
      simpa [Spelling.value] using h
    rw [hvalue]
    exact .quoted hclear (.blank rfl htyped)
  | bare =>
    have hvalue : trim (Spelling.bare.value literal token).toList =
        literal.toList ++ ':' :: token.toList := by
      have hstart := ((Text.trim_eq_self_iff literal.toList).1 hliteral').1
      have hcolon := Text.trim_append (s := [':']) rfl htoken' hne'
      have h := Text.trim_append hstart hcolon (List.cons_ne_nil _ _)
      simpa [Spelling.value] using h
    rw [hvalue]
    refine .bare (fun hfirst => ?_) htyped
    exact hclear (List.mem_of_mem_head? hfirst)

/-! ### Expressions -/

/-- What stands behind the first colon is read into the argument of the name before it. -/
theorem parse_write_of_readsAs {spelling : Spelling} {name literal token : String}
    (hname : strip name = name) (hne : name ≠ "") (hcolon : ':' ∉ name.toList)
    (h : ReadsAs (trim (' ' :: (spelling.value literal token).toList)) literal.toList
      (some token.toList)) :
    parse (spelling.write name literal token) = .ok ⟨name, literal, some token⟩ := by
  have hname' : trim name.toList = name.toList := (Text.strip_eq_self_iff name).1 hname
  refine parse_eq_ok_iff.2 ⟨name.toList, ' ' :: (spelling.value literal token).toList,
    ⟨?_, hcolon, ?_⟩, hname'.symm, h⟩
  · simp [Spelling.write]
  · rw [hname']
    exact fun hnil => hne (String.toList_eq_nil_iff.1 hnil)

/-- What an expression is parsed to decides what it is bound to. -/
theorem ofExpression_of_parse {expression : String} {a : TrialArgument}
    (h : parse expression = .ok a) :
    TrialBinding.ofExpression expression = TrialBinding.ofArgument a := by
  rw [TrialBinding.ofExpression, h]

/-- An accepted expression has a name that can be written in front of a colon. -/
theorem name_of_parse {expression : String} {a : TrialArgument} (h : parse expression = .ok a) :
    strip a.name = a.name ∧ a.name ≠ "" ∧ ':' ∉ a.name.toList := by
  obtain ⟨before, after, ⟨-, hfirst, hnonblank⟩, hbefore, -⟩ := parse_eq_ok_iff.1 h
  refine ⟨?_, fun hnil => ?_, fun hcolon => ?_⟩
  · rw [Text.strip_eq_self_iff, hbefore, Text.trim_trim]
  · rw [hnil] at hbefore
    exact hnonblank hbefore.symm
  · rw [hbefore] at hcolon
    exact hfirst (Text.mem_of_mem_trim hcolon)

/-- The type token in force for an accepted expression can be written behind a colon. -/
theorem effectiveToken_of_parse {expression : String} {a : TrialArgument}
    (h : parse expression = .ok a) :
    strip a.effectiveToken = a.effectiveToken ∧ a.effectiveToken ≠ "" := by
  obtain ⟨before, after, -, -, hreads⟩ := parse_eq_ok_iff.1 h
  cases htoken : a.token with
  | none =>
    rw [effectiveToken, htoken]
    decide
  | some token =>
    rw [htoken] at hreads
    obtain ⟨htrimmed, hne⟩ := hreads.token_trimmed
    rw [effectiveToken, htoken]
    refine ⟨(Text.strip_eq_self_iff token).2 htrimmed, fun hnil => hne ?_⟩
    exact String.toList_eq_nil_iff.2 hnil

/-- **The spellings are interchangeable, and the outer one loses nothing.** A name that can stand
in front of a colon, a literal without quotes and a token that is not blank are given back by the
spelling with the token behind the quotes. If the token is known and the literal has no blanks at
its ends, all three spellings give them back, and are bound to the value of the literal in the type
of the token, or fail alike. Any accepted expression whose literal has no quotes can be written
again in the first spelling, with the token in force. -/
theorem parse_write :
    (∀ name literal token : String,
      strip name = name → name ≠ "" → ':' ∉ name.toList → '"' ∉ literal.toList →
      strip token = token → token ≠ "" →
        parse (Spelling.outer.write name literal token) = .ok ⟨name, literal, some token⟩ ∧
        ∀ type, TokenType.ofToken token = .ok type → strip literal = literal →
          ∀ spelling : Spelling,
            parse (spelling.write name literal token) = .ok ⟨name, literal, some token⟩ ∧
            TrialBinding.ofExpression (spelling.write name literal token) =
              match TrialValue.convert literal type.host with
              | some value => .ok ⟨name, type, value⟩
              | none => .error (.unconvertible name literal type.host)) ∧
    ∀ expression a, parse expression = .ok a → '"' ∉ a.literal.toList →
      ∃ b, parse (Spelling.outer.write a.name a.literal a.effectiveToken) = .ok b ∧
        b.name = a.name ∧ b.literal = a.literal ∧ b.effectiveToken = a.effectiveToken := by
  constructor
  · intro name literal token hname hname' hcolon hquote htoken htoken'
    refine ⟨parse_write_of_readsAs hname hname' hcolon (readsAs_outer hquote htoken htoken'), ?_⟩
    intro type htype hliteral spelling
    have hknown : IsToken token.toList := by
      rw [← isSome_ofToken?_iff]
      unfold TokenType.ofToken at htype
      split at htype
      next hsome => rw [hsome]; rfl
      · cases htype
    have hparse := parse_write_of_readsAs hname hname' hcolon
      (readsAs_value hquote hliteral htoken htoken' hknown spelling)
    refine ⟨hparse, ?_⟩
    rw [ofExpression_of_parse hparse, TrialBinding.ofArgument]
    simp only [effectiveToken, Option.getD_some, htype]
    cases TrialValue.convert literal type.host <;> rfl
  · intro expression a hparse hquote
    obtain ⟨hname, hname', hcolon⟩ := name_of_parse hparse
    obtain ⟨htoken, htoken'⟩ := effectiveToken_of_parse hparse
    exact ⟨_, parse_write_of_readsAs hname hname' hcolon (readsAs_outer hquote htoken htoken'),
      rfl, rfl, rfl⟩

/-- A literal with colons and a known token of its own: the token behind the quotes wins, and the
other spellings take only their last piece for it. -/
theorem parse_write_at :
    parse (Spelling.outer.write "@At" " 10:30:int " "SQL:x") =
        .ok ⟨"@At", " 10:30:int ", some "SQL:x"⟩ ∧
      (∀ spelling : Spelling,
        parse (spelling.write "@At" "10:30:int" "Text") = .ok ⟨"@At", "10:30:int", some "Text"⟩) ∧
      ∃ b, parse (Spelling.outer.write "@At" "10:30" "string") = .ok b ∧ b.literal = "10:30" := by
  refine ⟨(parse_write.1 _ _ _ rfl (by decide) (by decide) (by decide) rfl (by decide)).1,
    fun spelling => ?_, ?_⟩
  · exact ((parse_write.1 "@At" "10:30:int" "Text" rfl (by decide) (by decide) (by decide) rfl
      (by decide)).2 ⟨.string, .text⟩ rfl rfl spelling).1
  · obtain ⟨b, hparse, -, hliteral, -⟩ :=
      parse_write.2 "@At: 10:30" ⟨"@At", "10:30", none⟩ rfl (by decide)
    exact ⟨b, hparse, hliteral⟩

-- the token stands behind the quotes, inside them, or behind a literal without any
example : parse "@At: \"10:30\":text" = .ok ⟨"@At", "10:30", some "text"⟩ ∧
    parse "@At: \"10:30:text\"" = .ok ⟨"@At", "10:30", some "text"⟩ ∧
    parse "@At: 10:30:text" = .ok ⟨"@At", "10:30", some "text"⟩ := ⟨rfl, rfl, rfl⟩

end Sprocket.TrialArgument
