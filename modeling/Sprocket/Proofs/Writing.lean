import Sprocket.Proofs.Nesting

/-!
# Writing any steps

What a writer does with steps from any depth and behind any text, be they balanced or not.

* `Layout.isOpening`, `Layout.isClosing`: the units that open and close blocks;
* `Matched`, `Layout.Balanced`: steps in which blocks, and explicit changes of the depth, match;
* `Layout.unclosed`, `Layout.Writes`: the text of steps, every line indented by what is unclosed;
* `Layout.drift_eq_unclosed`, `Layout.writes_texts`: what steps write is that text;
* `Writer.Answered`, `Writer.Answers`: one step that may fail, and a run that goes on past failures;
* `Writer.run_of_balanced_answers`: both kinds of runs.
-/

namespace Sprocket

/-- Every closing member has an opening one before it, and every opening one is closed. -/
structure Matched {α : Type} (opening closing : α → Bool) (as : List α) : Prop where
  prefixes : ∀ p, p <+: as → p.countP closing ≤ p.countP opening
  total : as.countP closing = as.countP opening

instance {α : Type} (opening closing : α → Bool) (as : List α) :
    Decidable (Matched opening closing as) :=
  decidable_of_iff ((∀ p ∈ as.inits, p.countP closing ≤ p.countP opening) ∧
      as.countP closing = as.countP opening)
    ⟨fun h => ⟨fun p hp => h.1 p ((List.mem_inits p as).2 hp), h.2⟩,
      fun h => ⟨fun p hp => h.prefixes p ((List.mem_inits p as).1 hp), h.total⟩⟩

namespace Text

/-- The lines of a text that newlines separate. -/
structure LinesOf (s : List Char) (lines : List (List Char)) : Prop where
  nonempty : lines ≠ []
  newline : ∀ line ∈ lines, '\n' ∉ line
  joined : List.intercalate ['\n'] lines = s

theorem linesOf_pieces (s : List Char) : LinesOf s (pieces '\n' s) :=
  ⟨pieces_ne_nil '\n' s, fun _ => not_mem_of_mem_pieces, intercalate_pieces '\n' s⟩

end Text

namespace Layout

variable {l : Layout}

/-- Whether a step is a unit that begins with the opening delimiter and does not end with the
closing one. -/
def isOpening (l : Layout) : WriterStep → Bool
  | .emit unit => unit.toList.head? == some l.opener && unit.toList.getLast? != some l.closer
  | _ => false

/-- Whether a step is a unit that begins with the closing delimiter. -/
def isClosing (l : Layout) : WriterStep → Bool
  | .emit unit => unit.toList.head? == some l.closer
  | _ => false

/-- The units that open blocks match those that close them, and so do the explicit changes of the
depth, wherever they stand among the units. -/
structure Balanced (l : Layout) (steps : List WriterStep) : Prop where
  units : Matched l.isOpening l.isClosing steps
  changes : Matched (· == .indent) (· == .dedent) steps

instance (l : Layout) (steps : List WriterStep) : Decidable (l.Balanced steps) :=
  decidable_of_iff (Matched l.isOpening l.isClosing steps ∧
      Matched (· == .indent) (· == .dedent) steps)
    ⟨fun h => ⟨h.1, h.2⟩, fun h => ⟨h.units, h.changes⟩⟩

/-- How many more blocks and levels steps open than they close. -/
def unclosed (l : Layout) (steps : List WriterStep) : Int :=
  (steps.countP l.isOpening + steps.countP (· == .indent)) -
    (steps.countP l.isClosing + steps.countP (· == .dedent))

/-- What stands unclosed where a unit is written: a closing unit counts as closed already. -/
def unclosedAt (l : Layout) (before : List WriterStep) (unit : String) : Int :=
  if l.isClosing (.emit unit) then l.unclosed (before ++ [.emit unit]) else l.unclosed before

/-- The text of steps from a depth: the lines of every unit, each with its newline and, if it is not
empty, behind one indentation for each level of the depth and for all that is unclosed. -/
inductive Writes (l : Layout) (depth : Nat) : List WriterStep → List Char → Prop
  | nil : Writes l depth [] []
  | unit {before : List WriterStep} {text : List Char} {unit : String} {lines : List (List Char)}
      (h : Writes l depth before text) (hlines : Text.LinesOf unit.toList lines) :
      Writes l depth (before ++ [.emit unit]) (text ++ lines.flatMap fun line =>
        l.content (depth + l.unclosedAt before unit).toNat line ++ ['\n'])
  | blank {before : List WriterStep} {text : List Char} (h : Writes l depth before text) :
      Writes l depth (before ++ [.blank]) (text ++ ['\n'])
  | indent {before : List WriterStep} {text : List Char} (h : Writes l depth before text) :
      Writes l depth (before ++ [.indent]) text
  | dedent {before : List WriterStep} {text : List Char} (h : Writes l depth before text) :
      Writes l depth (before ++ [.dedent]) text

/-! ### Depth -/

theorem closes_eq_isClosing (h : l.opener ≠ l.closer) (unit : String) :
    l.closes unit.toList = l.isClosing (.emit unit) := by
  unfold closes begins isClosing
  by_cases hhead : unit.toList.head? = some l.closer
  · simp [hhead, Ne.symm h]
  · simp [hhead]

/-- A step changes the depth by what it opens and closes. -/
theorem shift_eq_unclosed (h : l.opener ≠ l.closer) (s : WriterStep) :
    l.shift s = l.unclosed [s] := by
  cases s with
  | blank => rfl
  | indent => rfl
  | dedent => rfl
  | emit unit =>
    have hexclusive : l.isClosing (.emit unit) = true → l.isOpening (.emit unit) = false := by
      intro hclosing
      have hhead : unit.toList.head? = some l.closer := by simpa [isClosing] using hclosing
      simp [isOpening, hhead, Ne.symm h]
    have hopens : l.opens unit.toList = l.isOpening (.emit unit) := rfl
    rw [shift, closes_eq_isClosing h, hopens]
    cases hclosing : l.isClosing (.emit unit) with
    | true => simp [unclosed, hclosing, hexclusive hclosing]
    | false => cases hopening : l.isOpening (.emit unit) <;> simp [unclosed, hclosing, hopening]

theorem unclosed_append (steps steps' : List WriterStep) :
    l.unclosed (steps ++ steps') = l.unclosed steps + l.unclosed steps' := by
  simp only [unclosed, List.countP_append]
  omega

/-- Steps change the depth by what they leave unclosed. -/
theorem drift_eq_unclosed (h : l.opener ≠ l.closer) (steps : List WriterStep) :
    l.drift steps = l.unclosed steps := by
  induction steps with
  | nil => rfl
  | cons s rest ih =>
    rw [drift_cons, ih, shift_eq_unclosed h, ← unclosed_append, List.singleton_append]

theorem Balanced.unclosed_nonneg {steps p : List WriterStep} (h : l.Balanced steps)
    (hp : p <+: steps) : 0 ≤ l.unclosed p := by
  have hunits := h.units.prefixes p hp
  have hchanges := h.changes.prefixes p hp
  unfold unclosed
  omega

theorem Balanced.unclosed_eq_zero {steps : List WriterStep} (h : l.Balanced steps) :
    l.unclosed steps = 0 := by
  have hunits := h.units.total
  have hchanges := h.changes.total
  unfold unclosed
  omega

/-- Balanced steps close nothing that they have not opened. -/
theorem Balanced.sustains {steps : List WriterStep} (hne : l.opener ≠ l.closer)
    (h : l.Balanced steps) (depth : Nat) : l.Sustains depth steps := by
  intro p hp
  have hnonneg := h.unclosed_nonneg hp
  rw [drift_eq_unclosed hne]
  omega

/-! ### Text -/

theorem block_eq (depth : Nat) (unit : List Char) :
    l.block depth unit =
      (Text.pieces '\n' unit).flatMap fun line => l.content depth line ++ ['\n'] := by
  simp only [block, ← line_eq]

theorem unclosedAt_eq (hne : l.opener ≠ l.closer) (before : List WriterStep) (unit : String) :
    l.unclosedAt before unit =
      l.drift before - if l.isClosing (.emit unit) then 1 else 0 := by
  unfold unclosedAt
  rw [← drift_eq_unclosed hne, ← drift_eq_unclosed hne, drift_append, drift_cons, shift,
    closes_eq_isClosing hne]
  cases l.isClosing (.emit unit) with
  | true => simp [Int.sub_eq_add_neg]
  | false => simp

/-- The text that one more step appends. -/
theorem Writes.snoc {depth : Nat} {before : List WriterStep} {text : List Char} {s : WriterStep}
    (hne : l.opener ≠ l.closer) (h : l.Writes depth before text) :
    l.Writes depth (before ++ [s]) (text ++ l.written (depth + l.drift before).toNat s) := by
  cases s with
  | blank => exact .blank h
  | indent => simpa [written] using Writes.indent h
  | dedent => simpa [written] using Writes.dedent h
  | emit unit =>
    have hlevel : (if l.closes unit.toList then (depth + l.drift before).toNat - 1
        else (depth + l.drift before).toNat) = (depth + l.unclosedAt before unit).toNat := by
      rw [unclosedAt_eq hne, closes_eq_isClosing hne]
      cases l.isClosing (.emit unit) with
      | true =>
        rw [if_pos rfl, if_pos rfl]
        omega
      | false => simp
    rw [written, hlevel, block_eq]
    exact .unit h (Text.linesOf_pieces _)

/-- Steps that close no block where none is open write the text that is asked for. -/
theorem writes_texts (hne : l.opener ≠ l.closer) {depth : Nat} {steps : List WriterStep}
    (h : l.Sustains depth steps) : l.Writes depth steps (l.texts depth steps) := by
  induction steps using List.reverseRecOn with
  | nil => exact .nil
  | append_singleton before s ih =>
    have hbefore : l.Sustains depth before := (sustains_append.1 h).1
    have htexts : l.texts depth (before ++ [s]) =
        l.texts depth before ++ l.written (depth + l.drift before).toNat s := by
      rw [texts_append hbefore, texts, texts, List.append_nil]
    rw [htexts]
    exact (ih hbefore).snoc hne

end Layout

namespace Writer

/-! ### Steps that may fail -/

/-- A step is answered by a writer and an error, if any. It fails where it closes a block or a level
and none is open, and then leaves everything as it was; otherwise it writes its text behind what is
there, and changes the depth by what it opens and closes. -/
structure Answered (w : Writer) (s : WriterStep) (w' : Writer) (e : Option EmitError) : Prop where
  fails : e ≠ none ↔ w.depth = 0 ∧ (w.layout.isClosing s = true ∨ s = .dedent)
  kept : e ≠ none → w' = w
  written : e = none → ∃ added, w.layout.Writes w.depth [s] added ∧
    w'.text = w.text ++ String.ofList added
  depth : e = none → (w'.depth : Int) = w.depth + w.layout.unclosed [s]
  layout : w'.layout = w.layout

/-- Steps are answered one after another, each by the writer that the one before it left. -/
inductive Answers : Writer → List WriterStep → List (Writer × Option EmitError) → Prop
  | nil {w : Writer} : Answers w [] []
  | cons {w w' : Writer} {s : WriterStep} {e : Option EmitError} {steps : List WriterStep}
      {answers : List (Writer × Option EmitError)} (h : Answered w s w' e)
      (rest : Answers w' steps answers) : Answers w (s :: steps) ((w', e) :: answers)

/-- A step closes something exactly if it lowers the depth. -/
theorem shift_neg_iff {l : Layout} (hne : l.opener ≠ l.closer) (s : WriterStep) :
    l.shift s < 0 ↔ l.isClosing s = true ∨ s = .dedent := by
  cases s with
  | blank => simp [Layout.isClosing]
  | indent => simp [Layout.isClosing]
  | dedent => simp
  | emit unit =>
    rw [Layout.shift, Layout.closes_eq_isClosing hne]
    cases hclosing : l.isClosing (.emit unit) with
    | true => simp
    | false => cases l.opens unit.toList <;> simp

theorem neg_one_le_shift (l : Layout) (s : WriterStep) : -1 ≤ l.shift s := by
  cases s with
  | emit unit =>
    rw [Layout.shift]
    split
    · exact le_refl _
    · split <;> omega
  | blank => simp
  | indent => simp
  | dedent => simp

/-- **One step.** -/
theorem answered_answer {w : Writer} (hne : w.layout.opener ≠ w.layout.closer) (s : WriterStep) :
    w.Answered s (w.answer s).1 (w.answer s).2 := by
  have hneg := shift_neg_iff hne s
  have hleast := neg_one_le_shift w.layout s
  rcases lt_or_ge ((w.depth : Int) + w.layout.shift s) 0 with hclosed | hnext
  · obtain ⟨e, he⟩ := step_eq_error hclosed
    have hanswer : w.answer s = (w, some e) := by rw [answer, he]
    rw [hanswer]
    exact {
      fails := ⟨fun _ => ⟨by omega, hneg.1 (by omega)⟩, fun _ => Option.some_ne_none e⟩
      kept := fun _ => rfl
      written := fun h => absurd h (Option.some_ne_none e)
      depth := fun h => absurd h (Option.some_ne_none e)
      layout := rfl }
  · have hanswer : w.answer s = (⟨w.layout, (w.depth + w.layout.shift s).toNat,
        w.text ++ String.ofList (w.layout.written w.depth s)⟩, none) := by
      rw [answer, step_eq_ok hnext]
    have hempty : w.layout.Writes w.depth [] [] := .nil
    have hwrites : w.layout.Writes w.depth [s] (w.layout.written w.depth s) := by
      simpa using hempty.snoc hne
    rw [hanswer]
    exact {
      fails := ⟨fun h => absurd rfl h, fun h => by
        have hshift := hneg.2 h.2
        omega⟩
      kept := fun h => absurd rfl h
      written := fun _ => ⟨_, hwrites, rfl⟩
      depth := fun _ => by
        rw [← Layout.shift_eq_unclosed hne]
        exact Int.toNat_of_nonneg hnext
      layout := rfl }

/-- A run past failures answers every step. -/
theorem answers_runPast {w : Writer} (hne : w.layout.opener ≠ w.layout.closer)
    (steps : List WriterStep) : Answers w steps (w.runPast steps) := by
  induction steps generalizing w with
  | nil => exact .nil
  | cons s rest ih =>
    have hs := answered_answer hne s
    have hrest := ih (w := (w.answer s).1) (by rwa [hs.layout])
    exact .cons hs hrest

/-- **Writing.** Balanced steps are carried out from every depth and behind every text: the depth in
the end is the one from the beginning, and what is appended are the lines of all units in order,
each indented by what is unclosed before it. Steps of any kind, run on past failures, fail exactly
where they close a block or a level and none is open; a step that fails changes nothing, and every
other one writes behind what is there. -/
theorem run_of_balanced_answers (w : Writer) (hne : w.layout.opener ≠ w.layout.closer) :
    (∀ steps, w.layout.Balanced steps → ∃ added, w.layout.Writes w.depth steps added ∧
      w.run steps = .ok ⟨w.layout, w.depth, w.text ++ String.ofList added⟩) ∧
    ∀ steps, Answers w steps (w.runPast steps) := by
  refine ⟨fun steps h => ?_, answers_runPast hne⟩
  have hsustains := h.sustains hne w.depth
  refine ⟨_, Layout.writes_texts hne hsustains, ?_⟩
  rw [run_eq_ok hsustains, Layout.drift_eq_unclosed hne, h.unclosed_eq_zero, add_zero,
    Int.toNat_natCast]

/-- Steps in which a level is opened inside a block and closed outside of it. -/
def crossed : List WriterStep :=
  [.emit "a\n\nb", .emit "\x7b", .emit "\x7b c \x7d", .indent, .emit "\x7b d", .blank,
    .emit "\x7d else", .emit "\x7d;", .emit "e", .dedent]

/-- A writer in a block. -/
def inBlock : Writer := ⟨.braces (.spaces 2), 1, "\x7b\n"⟩

/-- The crossed steps can be carried out in a block, and not after the block and one more level have
been closed. -/
theorem run_of_balanced_answers_crossed :
    inBlock.layout.opener ≠ inBlock.layout.closer ∧ inBlock.layout.Balanced crossed ∧
    (∃ added, inBlock.layout.Writes 1 crossed added ∧
      inBlock.run crossed = .ok ⟨inBlock.layout, 1, inBlock.text ++ String.ofList added⟩) ∧
    Answers inBlock (.dedent :: .dedent :: crossed)
      (inBlock.runPast (.dedent :: .dedent :: crossed)) := by
  have hne : inBlock.layout.opener ≠ inBlock.layout.closer := by decide
  have hbalanced : inBlock.layout.Balanced crossed := by decide
  exact ⟨hne, hbalanced, (run_of_balanced_answers inBlock hne).1 crossed hbalanced,
    (run_of_balanced_answers inBlock hne).2 _⟩

example : inBlock.run crossed = .ok ⟨inBlock.layout, 1,
    "\x7b\n  a\n\n  b\n  \x7b\n    \x7b c \x7d\n      \x7b d\n\n      \x7d else\n" ++
      "    \x7d;\n    e\n"⟩ := rfl

end Writer

end Sprocket
