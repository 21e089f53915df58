import Sprocket.Proofs.Layout
import Sprocket.Text.Blank

/-!
# Nested lines

How the braces of a text nest, read off its lines alone, and the steps that write such a text.

* `LineRole`: what a line is to the nesting;
* `Nested`: lines in which braces match, and matching ones are indented alike;
* `Layout.Nests`: steps that write one line after another, blocks and the arguments of calls;
* `Layout.Nests.isNestedText`: such steps write nested lines.
-/

namespace Sprocket

/-! ### Lines -/

/-- What a line is to the nesting of a text. -/
inductive LineRole where
  /-- An opening brace. -/
  | opening
  /-- A line that begins with a closing brace. -/
  | closing
  /-- A call whose arguments stand on the next lines. -/
  | call
  /-- The end of such a call. -/
  | callEnd
  | plain
  deriving DecidableEq, Repr

/-- The role of a line, whatever blanks stand before it. -/
def LineRole.ofLine (line : List Char) : LineRole :=
  let content := Text.trimStart line
  if content = ['\x7b'] then opening
  else if content.head? = some '\x7d' then closing
  else if "return ".toList.isPrefixOf content ∧ content.getLast? = some '(' then call
  else if content = ");".toList then callEnd
  else plain

/-- What stands before a line is a number of times the indentation. -/
def IndentedBy (indent : List Char) (times : Nat) (line : List Char) : Prop :=
  line = (List.replicate times indent).flatten ++ Text.trimStart line

/-- Lines in which the braces match one another: two that match are indented alike, by the number of
pairs around them, and by one more among the arguments of a call. -/
inductive Nested (indent : List Char) : Bool → Nat → List (List Char) → Prop
  | nil {inCall : Bool} {around : Nat} : Nested indent inCall around []
  | line {inCall : Bool} {around : Nat} {line : List Char} {rest : List (List Char)}
      (role : LineRole.ofLine line = .plain) (h : Nested indent inCall around rest) :
      Nested indent inCall around (line :: rest)
  | pair {inCall : Bool} {around : Nat} {first last : List Char} {inner rest : List (List Char)}
      (opening : LineRole.ofLine first = .opening) (closing : LineRole.ofLine last = .closing)
      (indentedFirst : IndentedBy indent (around + inCall.toNat) first)
      (indentedLast : IndentedBy indent (around + inCall.toNat) last)
      (hinner : Nested indent inCall (around + 1) inner) (h : Nested indent inCall around rest) :
      Nested indent inCall around (first :: (inner ++ last :: rest))
  | call {around : Nat} {first last : List Char} {inner rest : List (List Char)}
      (opening : LineRole.ofLine first = .call) (closing : LineRole.ofLine last = .callEnd)
      (hinner : Nested indent true around inner) (h : Nested indent false around rest) :
      Nested indent false around (first :: (inner ++ last :: rest))

/-- A text of lines that are nested. -/
def IsNestedText (indent : List Char) (inCall : Bool) (around : Nat) (text : List Char) : Prop :=
  ∃ lines, text = lines.flatMap (· ++ ['\n']) ∧ (∀ line ∈ lines, '\n' ∉ line) ∧
    Nested indent inCall around lines

/-- Lines that newlines end are told from the text that they make. -/
theorem Text.lines_flatMap {ls : List (List Char)} (h : ∀ line ∈ ls, '\n' ∉ line) :
    Text.lines (ls.flatMap (· ++ ['\n'])) = ls := by
  have hpieces : Text.pieces '\n' (ls.flatMap (· ++ ['\n'])) = ls ++ [[]] := by
    induction ls with
    | nil => rfl
    | cons line ls ih =>
      obtain ⟨hline, hrest⟩ := List.forall_mem_cons.1 h
      rw [List.flatMap_cons, List.append_assoc, List.singleton_append, Text.pieces_append hline,
        ih hrest, List.cons_append]
  simp [Text.lines, hpieces]

theorem IsNestedText.nested_lines {indent : List Char} {inCall : Bool} {around : Nat}
    {text : List Char} (h : IsNestedText indent inCall around text) :
    Nested indent inCall around (Text.lines text) := by
  obtain ⟨lines, rfl, hnewline, hnested⟩ := h
  rwa [Text.lines_flatMap hnewline]

/-! ### Indentation -/

theorem Indent.isBlank_of_mem (i : Indent) : ∀ c ∈ i.text.toList, Text.isBlank c = true := by
  obtain ⟨n, hn⟩ := i.exists_text_eq
  intro c hc
  rw [hn] at hc
  rw [List.eq_of_mem_replicate hc]
  cases i <;> rfl

namespace Layout

variable {l : Layout}

/-- A line at a depth without its newline. -/
def content (l : Layout) (depth : Nat) (s : List Char) : List Char :=
  if s.isEmpty then [] else (List.replicate depth l.indent.text.toList).flatten ++ s

theorem line_eq (depth : Nat) (s : List Char) : l.line depth s = l.content depth s ++ ['\n'] := by
  unfold line content
  split <;> simp

theorem trimStart_content (depth : Nat) (s : List Char) :
    Text.trimStart (l.content depth s) = Text.trimStart s := by
  unfold content
  split
  next h => rw [List.isEmpty_iff.1 h]
  next =>
    refine List.dropWhile_append_of_pos fun c hc => ?_
    obtain ⟨margin, hmargin, hc⟩ := List.mem_flatten.1 hc
    rw [List.eq_of_mem_replicate hmargin] at hc
    exact l.indent.isBlank_of_mem c hc

/-- Indentation does not change the role of a line. -/
theorem role_content (depth : Nat) (s : List Char) :
    LineRole.ofLine (l.content depth s) = LineRole.ofLine s := by
  simp only [LineRole.ofLine, trimStart_content]

theorem newline_not_mem_content {depth : Nat} {s : List Char} (h : '\n' ∉ s) :
    '\n' ∉ l.content depth s := by
  unfold content
  split
  · simp
  · rw [List.mem_append, not_or]
    refine ⟨fun hmem => ?_, h⟩
    obtain ⟨margin, hmargin, hmem⟩ := List.mem_flatten.1 hmem
    obtain ⟨n, hn⟩ := l.indent.exists_text_eq
    rw [List.eq_of_mem_replicate hmargin, hn] at hmem
    exact l.indent.char_ne_newline (List.eq_of_mem_replicate hmem).symm

/-- A unit that begins with no blank is indented by the depth it is written at. -/
theorem indentedBy_content {depth : Nat} {s : List Char} (hs : s ≠ [])
    (hfirst : Text.trimStart s = s) :
    IndentedBy l.indent.text.toList depth (l.content depth s) := by
  rw [IndentedBy, trimStart_content, hfirst, content, if_neg (by simpa using hs)]

/-- The text of a unit of one line. -/
theorem block_of_not_mem {depth : Nat} {s : List Char} (h : '\n' ∉ s) :
    l.block depth s = l.content depth s ++ ['\n'] := by
  rw [block, Text.pieces_of_not_mem h, List.flatMap_singleton, line_eq]

/-! ### Steps -/

/-- Steps write one after another. -/
theorem texts_append {depth : Nat} {steps steps' : List WriterStep} (h : l.Sustains depth steps) :
    l.texts depth (steps ++ steps') =
      l.texts depth steps ++ l.texts (depth + l.drift steps).toNat steps' := by
  induction steps generalizing depth with
  | nil => simp [texts]
  | cons s rest ih =>
    obtain ⟨-, hrest⟩ := sustains_cons.1 h
    have hnext := Int.toNat_of_nonneg hrest.nonneg
    rw [List.cons_append, texts, texts, ih (by rwa [hnext]), hnext, drift_cons, add_assoc,
      List.append_assoc]

/-- What comes after inert steps is written as if it were alone. -/
theorem Inert.texts_append {steps steps' : List WriterStep} (h : l.Inert steps) (depth : Nat) :
    l.texts depth (steps ++ steps') = l.texts depth steps ++ l.texts depth steps' := by
  rw [Layout.texts_append (h.sustains depth depth.cast_nonneg), h.drift, add_zero,
    Int.toNat_natCast]

/-- A unit of one line that is no part of the nesting and leaves the depth as it is. -/
structure PlainUnit (l : Layout) (unit : String) : Prop where
  newline : '\n' ∉ unit.toList
  role : LineRole.ofLine unit.toList = .plain
  shift : l.shift (.emit unit) = 0

instance (l : Layout) (unit : String) : Decidable (l.PlainUnit unit) :=
  decidable_of_iff ('\n' ∉ unit.toList ∧ LineRole.ofLine unit.toList = .plain ∧
      l.shift (.emit unit) = 0)
    ⟨fun h => ⟨h.1, h.2.1, h.2.2⟩, fun h => ⟨h.newline, h.role, h.shift⟩⟩

/-- Steps that write lines, blocks between braces, and calls with their arguments one level
deeper. -/
inductive Nests (l : Layout) : Bool → List WriterStep → Prop
  | nil {inCall : Bool} : Nests l inCall []
  | unit {inCall : Bool} {unit : String} {rest : List WriterStep} (hunit : l.PlainUnit unit)
      (h : Nests l inCall rest) : Nests l inCall (.emit unit :: rest)
  | blank {inCall : Bool} {rest : List WriterStep} (h : Nests l inCall rest) :
      Nests l inCall (.blank :: rest)
  | block {inCall : Bool} {closing : String} {inner rest : List WriterStep}
      (hclosing : closing = "\x7d" ∨ closing = "\x7d,") (hinner : Nests l inCall inner)
      (h : Nests l inCall rest) :
      Nests l inCall (.emit "\x7b" :: (inner ++ .emit closing :: rest))
  | call {opening : String} {inner rest : List WriterStep} (newline : '\n' ∉ opening.toList)
      (role : LineRole.ofLine opening.toList = .call) (shift : l.shift (.emit opening) = 0)
      (hinner : Nests l true inner) (h : Nests l false rest) :
      Nests l false (.emit opening :: .indent :: (inner ++ .dedent :: .emit ");" :: rest))

namespace Nests

variable {i : Indent} {inCall : Bool} {steps steps' : List WriterStep}

theorem append (h : l.Nests inCall steps) (h' : l.Nests inCall steps') :
    l.Nests inCall (steps ++ steps') := by
  induction h with
  | nil => exact h'
  | unit hunit _ ih => exact .unit hunit (ih h')
  | blank _ ih => exact .blank (ih h')
  | block hclosing hinner _ _ ih =>
    rw [List.cons_append, List.append_assoc]
    exact .block hclosing hinner (ih h')
  | call newline role shift hinner _ _ ih =>
    rw [List.cons_append, List.cons_append, List.append_assoc]
    exact .call newline role shift hinner (ih h')

theorem flatMap {α : Type} {as : List α} {steps : α → List WriterStep}
    (h : ∀ a ∈ as, l.Nests inCall (steps a)) : l.Nests inCall (as.flatMap steps) := by
  induction as with
  | nil => exact nil
  | cons a rest ih =>
    obtain ⟨ha, hrest⟩ := List.forall_mem_cons.1 h
    exact ha.append (ih hrest)

theorem units {α : Type} {as : List α} {unit : α → String} (h : ∀ a ∈ as, l.PlainUnit (unit a)) :
    l.Nests inCall (as.map fun a => .emit (unit a)) := by
  induction as with
  | nil => exact nil
  | cons a rest ih =>
    obtain ⟨ha, hrest⟩ := List.forall_mem_cons.1 h
    exact .unit ha (ih hrest)

theorem shift_closing {closing : String} (h : closing = "\x7d" ∨ closing = "\x7d,") :
    (Layout.braces i).shift (.emit closing) = -1 := by
  rcases h with rfl | rfl <;> rfl

/-- Such steps lead back to the depth they start from. -/
theorem inert (h : (Layout.braces i).Nests inCall steps) : (Layout.braces i).Inert steps := by
  induction h with
  | nil => exact .nil
  | unit hunit _ ih => exact .cons hunit.shift ih
  | blank _ ih => exact .cons rfl ih
  | block hclosing _ _ hinner hrest =>
    exact .block rfl (shift_closing hclosing) hinner hrest
  | call _ _ shift _ _ hinner hrest =>
    exact .cons shift (.block rfl rfl hinner (.cons rfl hrest))

/-- A unit of one line that leaves the depth as it is stands at the depth it is written at. -/
theorem texts_emit {depth : Nat} {unit : String} {rest : List WriterStep}
    (newline : '\n' ∉ unit.toList) (shift : l.shift (.emit unit) = 0) :
    l.texts depth (.emit unit :: rest) =
      l.content depth unit.toList ++ ['\n'] ++ l.texts depth rest := by
  have hcloses : ¬ l.closes unit.toList = true := fun h => by simp [Layout.shift, h] at shift
  rw [texts, shift, add_zero, Int.toNat_natCast, written, if_neg hcloses, block_of_not_mem newline]

theorem texts_open {depth : Nat} {rest : List WriterStep} :
    (Layout.braces i).texts depth (.emit "\x7b" :: rest) =
      (Layout.braces i).content depth ['\x7b'] ++ ['\n'] ++
        (Layout.braces i).texts (depth + 1) rest := by
  have hblock := @block_of_not_mem (.braces i) depth ['\x7b'] (by decide)
  exact congrArg (· ++ _) hblock

theorem texts_indent {depth : Nat} {rest : List WriterStep} :
    l.texts depth (.indent :: rest) = l.texts (depth + 1) rest := rfl

theorem texts_dedent {depth : Nat} {rest : List WriterStep} :
    l.texts (depth + 1) (.dedent :: rest) = l.texts depth rest := by
  have hback : ((depth + 1 : Nat) + -1 : Int).toNat = depth := by omega
  rw [texts, shift_dedent, hback]
  rfl

theorem texts_close {depth : Nat} {closing : String} {rest : List WriterStep}
    (h : closing = "\x7d" ∨ closing = "\x7d,") :
    (Layout.braces i).texts (depth + 1) (.emit closing :: rest) =
      (Layout.braces i).content depth closing.toList ++ ['\n'] ++
        (Layout.braces i).texts depth rest := by
  have hcloses : (Layout.braces i).closes closing.toList = true ∧ '\n' ∉ closing.toList := by
    rcases h with rfl | rfl <;> exact ⟨rfl, by decide⟩
  have hback : ((depth + 1 : Nat) + -1 : Int).toNat = depth := by omega
  rw [texts, shift_closing h, hback, written, if_pos hcloses.1, Nat.add_sub_cancel,
    block_of_not_mem hcloses.2]

/-- Steps write nested lines if they are nested themselves. -/
theorem isNestedText (h : (Layout.braces i).Nests inCall steps) (around : Nat) :
    IsNestedText i.text.toList inCall around
      ((Layout.braces i).texts (around + inCall.toNat) steps) := by
  induction h generalizing around with
  | nil => exact ⟨[], rfl, by simp, .nil⟩
  | @unit inCall unit rest hunit _ ih =>
    obtain ⟨lines, htexts, hnewline, hnested⟩ := ih around
    rw [texts_emit hunit.newline hunit.shift, htexts]
    refine ⟨(Layout.braces i).content (around + inCall.toNat) unit.toList :: lines, rfl,
      List.forall_mem_cons.2 ⟨newline_not_mem_content hunit.newline, hnewline⟩,
      .line ?_ hnested⟩
    rw [role_content, hunit.role]
  | blank _ ih =>
    obtain ⟨lines, htexts, hnewline, hnested⟩ := ih around
    refine ⟨[] :: lines, ?_, List.forall_mem_cons.2 ⟨List.not_mem_nil, hnewline⟩,
      .line (by decide) hnested⟩
    rw [List.flatMap_cons, ← htexts]
    rfl
  | @block inCall closing inner rest hclosing hinner _ ihinner ihrest =>
    obtain ⟨lines, htexts, hnewline, hnested⟩ := ihinner (around + 1)
    obtain ⟨lines', htexts', hnewline', hnested'⟩ := ihrest around
    have hlast : LineRole.ofLine closing.toList = .closing ∧ '\n' ∉ closing.toList ∧
        closing.toList ≠ [] ∧ Text.trimStart closing.toList = closing.toList := by
      rcases hclosing with rfl | rfl <;> decide
    have hdeeper : around + inCall.toNat + 1 = around + 1 + inCall.toNat := by omega
    rw [texts_open, hinner.inert.texts_append, texts_close hclosing, htexts', hdeeper, htexts]
    refine ⟨(Layout.braces i).content (around + inCall.toNat) ['\x7b'] ::
      (lines ++ (Layout.braces i).content (around + inCall.toNat) closing.toList :: lines'),
      by simp, ?_, .pair ?_ ?_ (indentedBy_content (by decide) (by decide))
        (indentedBy_content hlast.2.2.1 hlast.2.2.2) hnested hnested'⟩
    · simp only [List.forall_mem_cons, List.forall_mem_append]
      exact ⟨newline_not_mem_content (by decide), hnewline, newline_not_mem_content hlast.2.1,
        hnewline'⟩
    · rw [role_content]
      decide
    · rw [role_content, hlast.1]
  | @call opening inner rest newline role shift hinner _ ihinner ihrest =>
    obtain ⟨lines, htexts, hnewline, hnested⟩ := ihinner around
    obtain ⟨lines', htexts', hnewline', hnested'⟩ := ihrest around
    have hdeeper : around + false.toNat + 1 = around + true.toNat := rfl
    rw [texts_emit newline shift, texts_indent, hinner.inert.texts_append, texts_dedent,
      texts_emit (by decide) rfl, htexts', hdeeper, htexts]
    refine ⟨(Layout.braces i).content (around + false.toNat) opening.toList ::
      (lines ++ (Layout.braces i).content (around + false.toNat) ");".toList :: lines'),
      by simp, ?_, .call ?_ ?_ hnested hnested'⟩
    · simp only [List.forall_mem_cons, List.forall_mem_append]
      exact ⟨newline_not_mem_content newline, hnewline, newline_not_mem_content (by decide),
        hnewline'⟩
    · rw [role_content, role]
    · rw [role_content]
      decide

end Nests

end Layout

end Sprocket
