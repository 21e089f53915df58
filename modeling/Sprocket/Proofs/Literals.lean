import Sprocket.Proofs.Levels
import Sprocket.Proofs.Nesting

/-!
# Names in literals

C# code hands the names of procedures, parameters and columns to the runtime in string literals. A
name is written between two quotes as it stands, so the literal has the name for its value only if
nothing in the name means something else there.

* `CSharp.readLiteral`: a literal as the host language reads it;
* `CSharp.escape`, `CSharp.eq_escape_of_readCharacters`: what a literal holds for each value;
* `Layout.GoesOn`: what follows in a text on some steps and the beginning of a unit;
* `CSharp.NamePlace`: the places where a method hands over names;
* `CSharp.literal_reads_iff`: which names arrive.
-/

namespace Sprocket

namespace CSharp

/-! ### Literals -/

/-- Whether a character ends a line in the host language. -/
def isLineBreak (c : Char) : Bool :=
  c == '\n' || c == '\r' || c == '\u0085' || c == '\u2028' || c == '\u2029'

/-- Reads the characters of a literal behind its opening quote: a quote or a backslash stands behind
a backslash, and a quote without one closes the literal. -/
def readCharacters : List Char → Option (List Char × List Char)
  | [] => none
  | '"' :: r => some ([], r)
  | '\\' :: c :: r =>
    if c = '"' ∨ c = '\\' then (readCharacters r).map fun parts => (c :: parts.1, parts.2) else none
  | c :: r =>
    if isLineBreak c ∨ c = '\\' then none
    else (readCharacters r).map fun parts => (c :: parts.1, parts.2)

/-- Reads a string literal: its value, and what stands behind it. -/
def readLiteral : List Char → Option (List Char × List Char)
  | '"' :: r => readCharacters r
  | _ => none

/-- The characters of the literal of a value. -/
def escape : List Char → List Char
  | [] => []
  | c :: s => if c = '"' ∨ c = '\\' then '\\' :: c :: escape s else c :: escape s

/-- A name that means itself in a literal. -/
def Bare (name : List Char) : Prop := ∀ c ∈ name, c ≠ '"' ∧ c ≠ '\\' ∧ isLineBreak c = false

instance (name : List Char) : Decidable (Bare name) :=
  List.decidableBAll _ name

theorem readCharacters_escape {value : List Char} (h : ∀ c ∈ value, isLineBreak c = false)
    (rest : List Char) : readCharacters (escape value ++ '"' :: rest) = some (value, rest) := by
  induction value with
  | nil => simp [escape, readCharacters]
  | cons c value ih =>
    obtain ⟨hc, hvalue⟩ := List.forall_mem_cons.1 h
    by_cases hspecial : c = '"' ∨ c = '\\'
    · simp [escape, readCharacters, hspecial, ih hvalue]
    · obtain ⟨hquote, hbackslash⟩ := not_or.1 hspecial
      rw [escape, if_neg hspecial, List.cons_append, readCharacters]
      · simp [hc, hbackslash, ih hvalue]
      · exact hquote
      · exact fun _ _ heq => absurd heq hbackslash

/-- The value of a literal stands in it, escaped and with a quote behind it, and holds no line
break. -/
theorem eq_escape_of_readCharacters {s value rest : List Char}
    (h : readCharacters s = some (value, rest)) :
    s = escape value ++ '"' :: rest ∧ ∀ c ∈ value, isLineBreak c = false := by
  fun_induction readCharacters s generalizing value with
  | case1 => cases h
  | case2 r =>
    cases h
    exact ⟨rfl, by simp⟩
  | case3 c r hspecial ih =>
    obtain ⟨⟨value, rest⟩, hr, hparts⟩ := Option.map_eq_some_iff.1 h
    cases hparts
    obtain ⟨rfl, hvalue⟩ := ih hr
    have hc : isLineBreak c = false := by rcases hspecial with rfl | rfl <;> decide
    exact ⟨by rw [escape, if_pos hspecial]; rfl, List.forall_mem_cons.2 ⟨hc, hvalue⟩⟩
  | case4 c r hspecial => cases h
  | case5 c r hquote hescape hbreak => cases h
  | case6 c r hquote hescape hbreak ih =>
    obtain ⟨⟨value, rest⟩, hr, hparts⟩ := Option.map_eq_some_iff.1 h
    cases hparts
    obtain ⟨rfl, hvalue⟩ := ih hr
    rw [not_or, Bool.not_eq_true] at hbreak
    have hspecial : ¬ (c = '"' ∨ c = '\\') := not_or.2 ⟨hquote, hbreak.2⟩
    exact ⟨by rw [escape, if_neg hspecial]; rfl, List.forall_mem_cons.2 ⟨hbreak.1, hvalue⟩⟩

/-! ### Bare names -/

theorem escape_of_bare {name : List Char} (h : Bare name) : escape name = name := by
  induction name with
  | nil => rfl
  | cons c name ih =>
    obtain ⟨hc, hname⟩ := List.forall_mem_cons.1 h
    rw [escape, if_neg (not_or.2 ⟨hc.1, hc.2.1⟩), ih hname]

/-- Behind backslashes the escaped form of a text never goes on like the text itself. -/
theorem backslashes_append_escape_ne {k : Nat} (hk : 0 < k) (s rest rest' : List Char) :
    List.replicate k '\\' ++ (escape s ++ '"' :: rest) ≠ s ++ '"' :: rest' := by
  -- a backslash of the text stands for one of those in front, and two more take its place
  induction s generalizing k with
  | nil =>
    obtain ⟨k, rfl⟩ := Nat.exists_eq_succ_of_ne_zero hk.ne'
    simp [List.replicate_succ]
  | cons c s ih =>
    intro h
    obtain ⟨k, rfl⟩ := Nat.exists_eq_succ_of_ne_zero hk.ne'
    rw [Nat.succ_eq_add_one, List.replicate_succ, List.cons_append, List.cons_append] at h
    obtain ⟨rfl, htail⟩ := List.cons.inj h
    refine ih (k := k + 2) (by omega) ?_
    rw [← htail, escape, if_pos (.inr rfl), List.replicate_add, List.append_assoc]
    rfl

/-- A text that goes on like its escaped form holds nothing to escape. -/
theorem bare_of_escape_append_eq {s rest rest' : List Char}
    (hbreak : ∀ c ∈ s, isLineBreak c = false)
    (h : escape s ++ '"' :: rest = s ++ '"' :: rest') : Bare s := by
  induction s with
  | nil => simp [Bare]
  | cons c s ih =>
    obtain ⟨hc, hs⟩ := List.forall_mem_cons.1 hbreak
    by_cases hspecial : c = '"' ∨ c = '\\'
    · rw [escape, if_pos hspecial] at h
      obtain ⟨rfl, htail⟩ := List.cons.inj h
      exact absurd htail (backslashes_append_escape_ne Nat.one_pos s rest rest')
    · rw [escape, if_neg hspecial] at h
      obtain ⟨hquote, hbackslash⟩ := not_or.1 hspecial
      exact List.forall_mem_cons.2 ⟨⟨hquote, hbackslash, hc⟩, ih hs (List.cons.inj h).2⟩

end CSharp

/-! ### Places in a text -/

namespace Layout

variable {l : Layout}

/-- A text goes on as `rest` behind what steps and the beginning of a unit are rendered to. -/
def GoesOn (l : Layout) (steps : List WriterStep) (lead text rest : String) : Prop :=
  ∃ front, l.render (steps ++ [.emit lead]) = .ok (front ++ "\n") ∧ text = front ++ rest

/-- What is left of a unit is written as it stands up to the end of the line that it has begun. -/
def continued (l : Layout) (depth : Nat) : List Char → List Char
  | [] => ['\n']
  | c :: s => if c = '\n' then '\n' :: l.block depth s else c :: l.continued depth s

theorem continued_append {s : List Char} (h : '\n' ∉ s) (depth : Nat) (rest : List Char) :
    l.continued depth (s ++ rest) = s ++ l.continued depth rest := by
  induction s with
  | nil => rfl
  | cons c s ih =>
    rw [List.mem_cons, not_or] at h
    rw [List.cons_append, continued, if_neg (Ne.symm h.1), ih h.2, List.cons_append]

theorem continued_eq {s p : List Char} {ps : List (List Char)} (h : Text.pieces '\n' s = p :: ps)
    (depth : Nat) : l.continued depth s = p ++ '\n' :: ps.flatMap (l.line depth) := by
  induction s generalizing p ps with
  | nil =>
    cases h
    rfl
  | cons c s ih =>
    by_cases hc : c = '\n'
    · simp only [Text.pieces, hc, if_true] at h
      cases h
      simp [continued, hc, block]
    · cases hs : Text.pieces '\n' s with
      | nil => exact absurd hs (Text.pieces_ne_nil '\n' s)
      | cons q qs =>
        simp only [Text.pieces, hc, if_false, hs] at h
        cases h
        rw [continued, if_neg hc, ih hs, List.cons_append]

theorem block_cons {c : Char} (hc : c ≠ '\n') (depth : Nat) (s : List Char) :
    l.block depth (c :: s) =
      (List.replicate depth l.indent.text.toList).flatten ++ c :: l.continued depth s := by
  cases hs : Text.pieces '\n' s with
  | nil => exact absurd hs (Text.pieces_ne_nil '\n' s)
  | cons p ps => simp [block, Text.pieces, hc, hs, continued_eq hs, line]

/-- A unit goes on behind its beginning, unless that ends a line. -/
theorem exists_block_append {lead : List Char} (hlast : lead.getLast? ≠ some '\n') (depth : Nat) :
    (∃ front, ∀ s, l.continued depth (lead ++ s) = front ++ l.continued depth s) ∧
      (lead ≠ [] → ∃ front, ∀ s, l.block depth (lead ++ s) = front ++ l.continued depth s) := by
  -- both at once: behind a line break the beginning of a unit is the beginning of a line again
  induction lead with
  | nil => exact ⟨⟨[], fun _ => rfl⟩, fun h => absurd rfl h⟩
  | cons c lead ih =>
    have hlast' : lead.getLast? ≠ some '\n' := by
      intro h
      rw [List.getLast?_cons, h] at hlast
      exact hlast rfl
    obtain ⟨⟨front, hfront⟩, hblock⟩ := ih hlast'
    by_cases hc : c = '\n'
    · have hlead : lead ≠ [] := by
        rintro rfl
        exact hlast (by simp [hc])
      obtain ⟨front, hfront⟩ := hblock hlead
      have hlines : ∀ s,
          l.block depth (c :: lead ++ s) = '\n' :: (front ++ l.continued depth s) := by
        intro s
        rw [← hfront s]
        simp [block, Text.pieces, hc, line]
      refine ⟨⟨'\n' :: front, fun s => ?_⟩, fun _ => ⟨'\n' :: front, hlines⟩⟩
      rw [List.cons_append, continued, if_pos hc, hfront]
      rfl
    · refine ⟨⟨c :: front, fun s => ?_⟩, fun _ => ⟨(List.replicate depth
        l.indent.text.toList).flatten ++ c :: front, fun s => ?_⟩⟩
      · rw [List.cons_append, continued, if_neg hc, hfront]
        rfl
      · rw [List.cons_append, block_cons hc, hfront, List.append_assoc]
        rfl

theorem closes_append {lead : List Char} (hlead : lead ≠ []) (tail : List Char) :
    l.closes (lead ++ tail) = l.closes lead := by
  obtain ⟨c, lead, rfl⟩ := List.exists_cons_of_ne_nil hlead
  rfl

/-- The beginning of a unit closes no more than the unit. -/
theorem shift_append_nonneg {lead : String} (hlead : lead.toList ≠ []) {tail : String} {depth : Int}
    (hdepth : 0 ≤ depth) (h : 0 ≤ depth + l.shift (.emit (lead ++ tail))) :
    0 ≤ depth + l.shift (.emit lead) := by
  by_cases hcloses : l.closes lead.toList = true
  · simpa [shift, closes_append hlead, hcloses] using h
  · rw [shift, if_neg hcloses]
    split <;> omega

/-- A text goes on with the end of a unit behind the beginning of it. -/
theorem exists_goesOn {steps after : List WriterStep} {lead tail text : String}
    (hlead : lead.toList ≠ []) (hlast : lead.toList.getLast? ≠ some '\n')
    (h : l.render (steps ++ .emit (lead ++ tail) :: after) = .ok text) :
    ∃ rest depth more, l.GoesOn steps lead text rest ∧
      rest.toList = l.continued depth tail.toList ++ more := by
  obtain ⟨hsustains, rfl⟩ := render_eq_ok_iff.1 h
  obtain ⟨hsteps, hunit⟩ := sustains_append.1 hsustains
  obtain ⟨hdepth, hafter⟩ := sustains_cons.1 hunit
  have hbegin : l.Sustains 0 (steps ++ [.emit lead]) := sustains_append.2 ⟨hsteps, sustains_cons.2
    ⟨hdepth, sustains_nil.2 (shift_append_nonneg hlead hdepth hafter.nonneg)⟩⟩
  -- the beginning alone is written at the same depth as the whole unit
  let depth := (0 + l.drift steps).toNat
  let margin := if l.closes lead.toList then depth - 1 else depth
  let more := l.texts (depth + l.shift (.emit (lead ++ tail))).toNat after
  have htexts : ∀ rest, l.texts 0 (steps ++ rest) = l.texts 0 steps ++ l.texts depth rest :=
    fun _ => texts_append hsteps
  have hwhole : l.written depth (.emit (lead ++ tail)) = l.block margin (lead ++ tail).toList := by
    rw [written, String.toList_append, closes_append hlead]
  have hlone : l.texts depth [.emit lead] = l.block margin lead.toList := List.append_nil _
  obtain ⟨front, hfront⟩ := (exists_block_append (l := l) hlast margin).2 hlead
  have hfront' : l.block margin lead.toList = front ++ ['\n'] := by
    rw [← List.append_nil lead.toList, hfront]
    rfl
  refine ⟨String.ofList (l.continued margin tail.toList ++ more), margin, more,
    ⟨String.ofList (l.texts 0 steps ++ front), render_eq_ok_iff.2 ⟨hbegin, ?_⟩, ?_⟩,
    String.toList_ofList⟩
  · rw [htexts, hlone, hfront', ← List.append_assoc]
    exact String.ofList_append.symm
  · rw [htexts, texts, hwhole, String.toList_append, hfront, ← String.ofList_append]
    simp only [List.append_assoc]
    rfl

end Layout

namespace CSharp

variable {c : Context} {m : Method}

/-- What is written between two quotes is read back as it stands exactly if it is bare. -/
theorem readLiteral_continued_iff {l : Layout} {depth : Nat} {name tail more : List Char} :
    (∃ rest, readLiteral (l.continued depth ('"' :: (name ++ '"' :: tail)) ++ more) =
      some (name, rest)) ↔ Bare name := by
  have hopen : readLiteral (l.continued depth ('"' :: (name ++ '"' :: tail)) ++ more) =
      readCharacters (l.continued depth (name ++ '"' :: tail) ++ more) := rfl
  have hclose : '\n' ∉ name → l.continued depth (name ++ '"' :: tail) ++ more =
      name ++ '"' :: (l.continued depth tail ++ more) := fun h => by
    rw [Layout.continued_append h, List.append_assoc]
    rfl
  rw [hopen]
  constructor
  · rintro ⟨rest, h⟩
    obtain ⟨hescaped, hbreak⟩ := eq_escape_of_readCharacters h
    rw [hclose fun hmem => absurd (hbreak _ hmem) (by decide)] at hescaped
    exact bare_of_escape_append_eq hbreak hescaped.symm
  · intro h
    have hbreak : ∀ a ∈ name, isLineBreak a = false := fun a ha => (h a ha).2.2
    rw [hclose fun hmem => absurd (hbreak _ hmem) (by decide)]
    nth_rewrite 1 [← escape_of_bare h]
    exact ⟨_, readCharacters_escape hbreak _⟩

/-! ### Names of a method -/

/-- The unit that names the procedure. -/
def queryLine (m : Method) : String := "query : \"" ++ m.procedure ++ "\","

/-- A method up to the arguments of its runtime call. -/
def callStart (m : Method) : List WriterStep :=
  [.emit ("#region " ++ m.procedure)] ++ parameterClass m ++ summary m
    ++ [.emit (signature m), .emit "\x7b", .emit (call m), .indent]

/-- The places where a method hands a name to the runtime: the steps before the unit that does, and
what stands before the name in it. -/
inductive NamePlace (m : Method) : List WriterStep → String → String → Prop
  | procedure : NamePlace m (callStart m) "query : " m.procedure
  | parameter {before after : List Parameter} {p : Parameter}
      (h : m.parameters = before ++ p :: after) :
      NamePlace m
        (callStart m ++ [.emit (queryLine m), .emit "parameters : _ =>", .emit "\x7b",
          .emit "if (parameters == null) return;"] ++ before.map fun p => .emit (bindingLine p))
        "_.AddWithValue(" p.name
  | column {before after : List ResultColumn} {column : ResultColumn}
      (h : m.shape.columns = before ++ column :: after) :
      NamePlace m
        (callStart m ++ [.emit (queryLine m)] ++ bindings m ++
          [.emit ("mapping : reader => new " ++ m.name ++ "Result()"), .emit "\x7b"] ++
          before.map fun c => .emit (mappingLine c ","))
        (column.name ++ " = reader[") column.name

theorem exists_mappingLines_eq (before : List ResultColumn) (c : ResultColumn)
    (after : List ResultColumn) :
    ∃ separator rest, mappingLines (before ++ c :: after) =
      before.map (mappingLine · ",") ++ mappingLine c separator :: rest := by
  have hcons : ∀ (first : ResultColumn) {others : List ResultColumn}, others ≠ [] →
      mappingLines (first :: others) = mappingLine first "," :: mappingLines others := by
    intro first others h
    obtain ⟨second, others, rfl⟩ := List.exists_cons_of_ne_nil h
    rfl
  induction before with
  | nil =>
    cases after with
    | nil => exact ⟨"", [], rfl⟩
    | cons next after => exact ⟨",", _, hcons c (by simp)⟩
  | cons first before ih =>
    obtain ⟨separator, rest, hrest⟩ := ih
    rw [List.cons_append, hcons first (by simp), hrest]
    exact ⟨separator, rest, rfl⟩

/-- What stands behind the arguments of a runtime call. -/
def callEnd : List WriterStep := [.dedent, .emit ");", .emit "\x7d", .emit "#endregion"]

theorem method_eq (m : Method) :
    method m =
      callStart m ++ .emit (queryLine m) :: (bindings m ++ (mapping m ++ callEnd)) := by
  simp [method, body, callStart, queryLine, callEnd]

/-- At each place the name stands between two quotes. -/
theorem NamePlace.exists_method_eq {steps : List WriterStep} {lead name : String}
    (h : NamePlace m steps lead name) :
    ∃ tail after, method m = steps ++ .emit (lead ++ ("\"" ++ name ++ "\"" ++ tail)) :: after := by
  cases h with
  | procedure =>
    refine ⟨",", bindings m ++ (mapping m ++ callEnd), ?_⟩
    have hunit : queryLine m = "query : " ++ ("\"" ++ m.procedure ++ "\"" ++ ",") := by
      simp [queryLine, ← String.toList_inj]
    rw [method_eq, hunit]
  | @parameter before after p h =>
    refine ⟨", parameters." ++ p.fieldName ++ ");",
      after.map (fun p => .emit (bindingLine p)) ++
        .emit ("\x7d" ++ bindingEnd m) :: (mapping m ++ callEnd), ?_⟩
    have hunit : bindingLine p = "_.AddWithValue(" ++
        ("\"" ++ p.name ++ "\"" ++ (", parameters." ++ p.fieldName ++ ");")) := by
      unfold bindingLine
      simp [← String.toList_inj]
    rw [← hunit, method_eq]
    simp [bindings, h]
  | @column before after column h =>
    obtain ⟨separator, lines, hlines⟩ := exists_mappingLines_eq before column after
    refine ⟨"] as " ++ optionalTypeName column.type ++ separator,
      lines.map .emit ++ .emit "\x7d" :: callEnd, ?_⟩
    have hunit : mappingLine column separator = column.name ++ " = reader[" ++ ("\"" ++
        column.name ++ "\"" ++ ("] as " ++ optionalTypeName column.type ++ separator)) := by
      simp [mappingLine, ← String.toList_inj]
    rw [← hunit, method_eq]
    unfold mapping
    cases hshape : m.shape with
    | rowSequence columns =>
      rw [hshape] at h
      obtain rfl : columns = before ++ column :: after := h
      simp [hlines]
    | scalar => simp [hshape, ReturnShape.columns] at h
    | affectedCount => simp [hshape, ReturnShape.columns] at h

theorem NamePlace.lead_ends {steps : List WriterStep} {lead name : String}
    (h : NamePlace m steps lead name) :
    lead.toList ≠ [] ∧ lead.toList.getLast? ≠ some '\n' := by
  cases h with
  | procedure => decide
  | parameter h => decide
  | column h => simp

/-- At each place the text goes on with the name between two quotes, laid out like the unit that it
is in. -/
theorem NamePlace.exists_goesOn {text : String} (hrender : render c = .ok text)
    {others after : List Method} (hsplit : c.methods = others ++ m :: after)
    {steps : List WriterStep} {lead name : String} (hplace : NamePlace m steps lead name) :
    ∃ rest depth tail more, layout.GoesOn (before c others ++ steps) lead text rest ∧
      rest.toList = layout.continued depth ('"' :: (name.toList ++ '"' :: tail)) ++ more := by
  obtain ⟨following, hsteps⟩ := exists_steps_eq hsplit
  obtain ⟨tail, unit, hmethod⟩ := hplace.exists_method_eq
  obtain ⟨hlead, hlast⟩ := hplace.lead_ends
  rw [render, hsteps, hmethod, List.append_assoc steps, List.cons_append, ← List.append_assoc]
    at hrender
  obtain ⟨rest, depth, more, hrest, hchars⟩ := Layout.exists_goesOn hlead hlast hrender
  have hliteral : ("\"" ++ name ++ "\"" ++ tail).toList =
      '"' :: (name.toList ++ '"' :: tail.toList) := by
    simp
  exact ⟨rest, depth, tail.toList, more, hrest, hliteral ▸ hchars⟩

/-- **Names in literals.** At each place where a method hands over a name, the text goes on with a
literal of that name exactly if the name is bare: if no quote, no backslash and no line break is in
it. -/
theorem literal_reads_iff {text : String} (hrender : render c = .ok text)
    {others after : List Method} (hsplit : c.methods = others ++ m :: after)
    {steps : List WriterStep} {lead name : String} (hplace : NamePlace m steps lead name) :
    ∃ rest, layout.GoesOn (before c others ++ steps) lead text rest ∧
      ((∃ more, readLiteral rest.toList = some (name.toList, more)) ↔ Bare name.toList) := by
  obtain ⟨rest, depth, tail, more, hrest, hchars⟩ := hplace.exists_goesOn hrender hsplit
  refine ⟨rest, hrest, ?_⟩
  rw [hchars]
  exact readLiteral_continued_iff

/-! ### A ledger -/

/-- The text of a manifest with a procedure whose name is quoted for the server. -/
def ledgerText : String :=
  "[[contexts]]\nname='Ledger'\nnamespace='Acme'\ndatabase.url='db'\noutput.host='a.cs'\n" ++
    "[[contexts.procedures]]\nname='\"Billing\".\"Close\"'\nmethod='Close'\n"

/-- The group of that manifest. -/
def ledger : ContextConfig where
  name := "Ledger"
  namespaceName := "Acme"
  database := ⟨some "db", none⟩
  output := ⟨"a.cs", none, false, none⟩
  procedures := [⟨"\"Billing\".\"Close\"", some "Close", none, none, []⟩]

/-- A server of the ledger. -/
def ledgerServer : Remote :=
  ⟨.postgres, none, [⟨"\"Billing\".\"Close\"", [⟨"@Month", "integer"⟩], [], none, none, none⟩]⟩

/-- The method that closes a month. -/
def closeMethod : Method :=
  ⟨"Close", "\"Billing\".\"Close\"", [⟨"@Month", .int32⟩], .affectedCount, none⟩

/-- What the ledger is resolved to. -/
def ledgerContext : Context := ⟨"Acme", "Ledger", [closeMethod]⟩

theorem methods_ledgerContext : ledgerContext.methods = [] ++ closeMethod :: [] := rfl

theorem exists_render_ledger : ∃ text, render ledgerContext = .ok text := by
  rw [render, Layout.exists_render_iff]
  exact sustains_steps (by decide)

/-- The parameter of the ledger arrives. -/
theorem literal_reads_iff_ledger :
    ∃ text, render ledgerContext = .ok text ∧
      ∃ steps rest, NamePlace closeMethod steps "_.AddWithValue(" "@Month" ∧
        layout.GoesOn (before ledgerContext [] ++ steps) "_.AddWithValue(" text rest ∧
        ∃ more, readLiteral rest.toList = some ("@Month".toList, more) := by
  obtain ⟨text, hrender⟩ := exists_render_ledger
  have hparameters : closeMethod.parameters = [] ++ ⟨"@Month", .int32⟩ :: [] := rfl
  have hplace := NamePlace.parameter hparameters
  obtain ⟨rest, hrest, hreads⟩ := literal_reads_iff hrender methods_ledgerContext hplace
  exact ⟨text, hrender, _, rest, hplace, hrest, hreads.2 (by decide)⟩

set_option maxRecDepth 4000 in
/-- The name of a procedure of a valid manifest does not arrive: the runtime is handed the empty
string in place of it. -/
theorem empty_procedure_ledger :
    Manifest.read ledgerText "ledger.toml" = .ok ⟨[ledger]⟩ ∧
    (Build.context ledgerServer ledger).result = .ok ledgerContext ∧
    closeMethod.procedure ≠ "" ∧
    ∃ text rest, render ledgerContext = .ok text ∧
      layout.GoesOn (before ledgerContext [] ++ callStart closeMethod) "query : " text rest ∧
      ∃ more, readLiteral rest.toList = some ([], more) := by
  refine ⟨Manifest.read_of_decoded (by decide +kernel) rfl _, rfl, by decide, ?_⟩
  obtain ⟨text, hrender⟩ := exists_render_ledger
  obtain ⟨rest, depth, tail, more, hrest, hchars⟩ :=
    NamePlace.procedure.exists_goesOn hrender methods_ledgerContext
  refine ⟨text, rest, hrender, hrest, ?_⟩
  rw [hchars]
  exact ⟨_, rfl⟩

end CSharp

end Sprocket
