import Mathlib.Data.List.Forall2
import Mathlib.Data.List.Infix
import Mathlib.Algebra.BigOperators.Group.List.Basic
import Mathlib.Tactic.Linarith
import Sprocket.Writer

/-!
# What is written

The depth and the text that steps lead to, for every layout.

* `Layout.shift`, `Layout.drift`: how a step, and how steps, change the depth;
* `Layout.Sustains`: steps that close no block where none is open;
* `Writer.step_eq_ok`, `Writer.step_eq_error`: one step, which writes its text or changes nothing;
* `Writer.run_eq_ok`, `Writer.run_eq_error`: these are the steps that can be carried out, and the
  depth and the text that they lead to;
* `Layout.units_eq_of_render_eq`: a text tells the units it was written from.
-/

namespace Sprocket

/-! ### Lists that are cut at a mark -/

section

variable {α : Type}

/-- Lists that a mark ends can be told from what they make together. -/
theorem eq_of_flatMap_append_mark {mark : α} {ls ks : List (List α)} (hl : ∀ l ∈ ls, mark ∉ l)
    (hk : ∀ k ∈ ks, mark ∉ k) (h : ls.flatMap (· ++ [mark]) = ks.flatMap (· ++ [mark])) :
    ls = ks := by
  induction ls generalizing ks with
  | nil =>
    cases ks with
    | nil => rfl
    | cons k ks => simp at h
  | cons l ls ih =>
    cases ks with
    | nil => simp at h
    | cons k ks =>
      obtain ⟨hlmark, hls⟩ := List.forall_mem_cons.1 hl
      obtain ⟨hkmark, hks⟩ := List.forall_mem_cons.1 hk
      simp only [List.flatMap_cons, List.append_assoc, List.singleton_append] at h
      obtain ⟨rfl, hrest⟩ := append_cons_inj hlmark hkmark h
      rw [ih hls hks hrest]

theorem forall₂_of_map_eq {β : Type} {R : α → α → Prop} {f : α → β} {as bs : List α}
    (h : as.map f = bs.map f) (hR : ∀ a ∈ as, ∀ b ∈ bs, f a = f b → R a b) :
    List.Forall₂ R as bs := by
  induction as generalizing bs with
  | nil =>
    cases bs with
    | nil => exact .nil
    | cons => cases h
  | cons a as ih =>
    cases bs with
    | nil => cases h
    | cons b bs =>
      obtain ⟨hfirst, hrest⟩ := List.cons.inj h
      refine .cons (hR a List.mem_cons_self b List.mem_cons_self hfirst)
        (ih hrest fun a' ha b' hb => ?_)
      exact hR a' (List.mem_cons_of_mem a ha) b' (List.mem_cons_of_mem b hb)

end

namespace Layout

variable {l : Layout}

/-! ### Depth -/

/-- How a step changes the depth. -/
def shift (l : Layout) : WriterStep → Int
  | .emit unit => if l.closes unit.toList then -1 else if l.opens unit.toList then 1 else 0
  | .blank => 0
  | .indent => 1
  | .dedent => -1

/-- How steps change the depth. -/
def drift (l : Layout) (steps : List WriterStep) : Int := (steps.map l.shift).sum

@[simp] theorem shift_blank : l.shift .blank = 0 := rfl

@[simp] theorem shift_indent : l.shift .indent = 1 := rfl

@[simp] theorem shift_dedent : l.shift .dedent = -1 := rfl

@[simp] theorem drift_nil : l.drift [] = 0 := rfl

@[simp] theorem drift_cons (s : WriterStep) (steps : List WriterStep) :
    l.drift (s :: steps) = l.shift s + l.drift steps := by
  simp [drift]

@[simp] theorem drift_append (steps steps' : List WriterStep) :
    l.drift (steps ++ steps') = l.drift steps + l.drift steps' := by
  simp [drift]

/-- From a depth, steps close no block where none is open. -/
def Sustains (l : Layout) (depth : Int) (steps : List WriterStep) : Prop :=
  ∀ p, p <+: steps → 0 ≤ depth + l.drift p

theorem Sustains.nonneg {depth : Int} {steps : List WriterStep} (h : l.Sustains depth steps) :
    0 ≤ depth := by
  simpa using h [] List.nil_prefix

@[simp] theorem sustains_nil {depth : Int} : l.Sustains depth [] ↔ 0 ≤ depth := by
  simp [Sustains]

theorem sustains_cons {depth : Int} {s : WriterStep} {steps : List WriterStep} :
    l.Sustains depth (s :: steps) ↔ 0 ≤ depth ∧ l.Sustains (depth + l.shift s) steps := by
  constructor
  · intro h
    refine ⟨h.nonneg, fun p hp => ?_⟩
    have hcons := h (s :: p) (List.cons_prefix_cons.2 ⟨rfl, hp⟩)
    rw [drift_cons] at hcons
    omega
  · rintro ⟨hdepth, hrest⟩ p hp
    obtain rfl | ⟨q, rfl, hq⟩ := List.prefix_cons_iff.1 hp
    · simpa using hdepth
    · have hdrift := hrest q hq
      rw [drift_cons]
      omega

/-- Steps after steps start from the depth that those lead to. -/
theorem sustains_append {depth : Int} {steps steps' : List WriterStep} :
    l.Sustains depth (steps ++ steps') ↔
      l.Sustains depth steps ∧ l.Sustains (depth + l.drift steps) steps' := by
  induction steps generalizing depth with
  | nil =>
    simp only [List.nil_append, sustains_nil, drift_nil, add_zero]
    exact ⟨fun h => ⟨h.nonneg, h⟩, fun h => h.2⟩
  | cons s rest ih => simp only [List.cons_append, sustains_cons, ih, drift_cons, and_assoc,
      add_assoc]

theorem sustains_iff_shifts {depth : Int} {steps : List WriterStep} :
    l.Sustains depth steps ↔ ∀ p, p <+: steps.map l.shift → 0 ≤ depth + p.sum := by
  constructor
  · intro h p hp
    obtain ⟨q, hq, rfl⟩ := List.prefix_map_iff.1 hp
    exact h q hq
  · intro h q hq
    exact h _ (hq.map l.shift)

/-- Steps are carried out before others by what they change the depth. -/
theorem sustains_append_of_shifts {depth : Int} {steps rest : List WriterStep} {shifts : List Int}
    (h : steps.map l.shift = shifts) :
    l.Sustains depth (steps ++ rest) ↔
      (∀ p, p <+: shifts → 0 ≤ depth + p.sum) ∧ l.Sustains (depth + shifts.sum) rest := by
  rw [sustains_append, sustains_iff_shifts, drift, h]

/-- Steps that leave the depth as it is, and can be carried out from every depth. -/
structure Inert (l : Layout) (steps : List WriterStep) : Prop where
  drift : l.drift steps = 0
  sustains : ∀ depth, 0 ≤ depth → l.Sustains depth steps

namespace Inert

variable {steps steps' : List WriterStep}

theorem nil : l.Inert [] := ⟨rfl, fun _ h => sustains_nil.2 h⟩

/-- Steps that come after inert ones are as good as alone. -/
theorem sustains_append (h : l.Inert steps) {depth : Int} :
    l.Sustains depth (steps ++ steps') ↔ l.Sustains depth steps' := by
  rw [Layout.sustains_append, h.drift, add_zero]
  exact ⟨fun h' => h'.2, fun h' => ⟨h.sustains depth h'.nonneg, h'⟩⟩

theorem append (h : l.Inert steps) (h' : l.Inert steps') : l.Inert (steps ++ steps') :=
  ⟨by rw [drift_append, h.drift, h'.drift, add_zero], fun depth hdepth =>
    h.sustains_append.2 (h'.sustains depth hdepth)⟩

theorem cons {s : WriterStep} (hs : l.shift s = 0) (h : l.Inert steps) : l.Inert (s :: steps) := by
  refine ⟨by rw [drift_cons, hs, h.drift, add_zero], fun depth hdepth => ?_⟩
  rw [sustains_cons, hs, add_zero]
  exact ⟨hdepth, h.sustains depth hdepth⟩

/-- Steps none of which changes the depth are inert. -/
theorem of_shift_eq_zero (h : ∀ s ∈ steps, l.shift s = 0) : l.Inert steps := by
  induction steps with
  | nil => exact nil
  | cons s rest ih =>
    obtain ⟨hs, hrest⟩ := List.forall_mem_cons.1 h
    exact cons hs (ih hrest)

/-- What is opened before inert steps and closed after them is inert. -/
theorem block {opening closing : WriterStep} (ho : l.shift opening = 1)
    (hc : l.shift closing = -1) (h : l.Inert steps) (h' : l.Inert steps') :
    l.Inert (opening :: (steps ++ closing :: steps')) := by
  constructor
  · simp [ho, hc, h.drift, h'.drift]
  · intro depth hdepth
    rw [sustains_cons, ho, h.sustains_append, sustains_cons, hc]
    refine ⟨hdepth, by omega, h'.sustains _ (by omega)⟩

theorem flatMap {α : Type} {as : List α} {steps : α → List WriterStep}
    (h : ∀ a ∈ as, l.Inert (steps a)) : l.Inert (as.flatMap steps) := by
  induction as with
  | nil => exact nil
  | cons a rest ih =>
    obtain ⟨ha, hrest⟩ := List.forall_mem_cons.1 h
    rw [List.flatMap_cons]
    exact append ha (ih hrest)

end Inert

/-! ### Text -/

/-- A unit that closes a block opens none. -/
theorem opens_of_closes {unit : List Char} (h : l.closes unit = true) : l.opens unit = false := by
  simp only [closes, Bool.and_eq_true, Bool.not_eq_true'] at h
  simp [opens, h.2]

/-- The text that a step appends where it can be carried out. -/
def written (l : Layout) (depth : Nat) : WriterStep → List Char
  | .emit unit => l.block (if l.closes unit.toList then depth - 1 else depth) unit.toList
  | .blank => ['\n']
  | .indent => []
  | .dedent => []

/-- The text that steps append where they can be carried out. -/
def texts (l : Layout) (depth : Nat) : List WriterStep → List Char
  | [] => []
  | s :: rest => l.written depth s ++ l.texts (depth + l.shift s).toNat rest

end Layout

namespace Writer

open Layout (Sustains written)

variable {w : Writer} {s : WriterStep}

theorem lower_eq_ok (unit : String) (h : w.depth ≠ 0) :
    (lower unit).run w = .ok () { w with depth := w.depth - 1 } := by
  simp [lower, h]

theorem lower_eq_error (unit : String) (h : w.depth = 0) :
    (lower unit).run w = .error ⟨unit⟩ w := by
  simp [lower, h]

/-- A step that does not lower the depth below nothing writes its text. -/
theorem step_eq_ok (h : 0 ≤ (w.depth : Int) + w.layout.shift s) :
    (step s).run w = .ok () ⟨w.layout, (w.depth + w.layout.shift s).toNat,
      w.text ++ String.ofList (w.layout.written w.depth s)⟩ := by
  cases s with
  | blank => simp [step, append, written]
  | indent => simp [step, raise, written]
  | dedent =>
    have hdepth : w.depth ≠ 0 := by
      simp only [Layout.shift_dedent] at h
      omega
    have hlowered : ((w.depth : Int) + -1).toNat = w.depth - 1 := by omega
    simp [step, lower_eq_ok "" hdepth, written, hlowered]
  | emit unit =>
    by_cases hcloses : w.layout.closes unit.toList = true
    · have hdepth : w.depth ≠ 0 := by
        simp only [Layout.shift, hcloses, if_true] at h
        omega
      have hopens : w.layout.opens unit.toList = false := Layout.opens_of_closes hcloses
      have hlowered : ((w.depth : Int) + -1).toNat = w.depth - 1 := by omega
      simp [step, append, Layout.shift, written, hcloses, hopens, lower_eq_ok unit hdepth, hlowered]
    · by_cases hopens : w.layout.opens unit.toList = true
      · simp [step, append, raise, Layout.shift, written, hcloses, hopens]
      · simp [step, append, Layout.shift, written, hcloses, hopens]

/-- **A failed step changes nothing.** A step that would lower the depth below nothing fails, and
leaves the writer as it was. -/
theorem step_eq_error (h : (w.depth : Int) + w.layout.shift s < 0) :
    ∃ e, (step s).run w = .error e w := by
  cases s with
  | blank =>
    simp only [Layout.shift_blank] at h
    omega
  | indent =>
    simp only [Layout.shift_indent] at h
    omega
  | dedent =>
    have hdepth : w.depth = 0 := by
      simp only [Layout.shift_dedent] at h
      omega
    exact ⟨_, lower_eq_error "" hdepth⟩
  | emit unit =>
    simp only [Layout.shift] at h
    by_cases hcloses : w.layout.closes unit.toList = true
    · have hdepth : w.depth = 0 := by
        simp only [hcloses, if_true] at h
        omega
      exact ⟨⟨unit⟩, by simp [step, hcloses, lower_eq_error unit hdepth]⟩
    · rw [if_neg hcloses] at h
      split at h <;> omega

/-- Steps that close no block where none is open are carried out. -/
theorem run_eq_ok {w : Writer} {steps : List WriterStep} (h : w.layout.Sustains w.depth steps) :
    w.run steps = .ok ⟨w.layout, (w.depth + w.layout.drift steps).toNat,
      w.text ++ String.ofList (w.layout.texts w.depth steps)⟩ := by
  induction steps generalizing w with
  | nil => simp [run, Layout.texts]
  | cons s rest ih =>
    obtain ⟨-, hrest⟩ := Layout.sustains_cons.1 h
    have hnext := hrest.nonneg
    rw [run, step_eq_ok hnext]
    dsimp only
    rw [ih (by simpa [Int.toNat_of_nonneg hnext] using hrest)]
    simp [Layout.texts, Int.toNat_of_nonneg hnext, add_assoc, String.append_assoc,
      String.ofList_append]

/-- Steps that close a block where none is open fail. -/
theorem run_eq_error {w : Writer} {steps : List WriterStep}
    (h : ¬ w.layout.Sustains w.depth steps) : ∃ e, w.run steps = .error e := by
  induction steps generalizing w with
  | nil => simp at h
  | cons s rest ih =>
    rw [Layout.sustains_cons, not_and] at h
    have hrest := h (by omega)
    rw [run]
    rcases lt_or_ge ((w.depth : Int) + w.layout.shift s) 0 with hclosed | hnext
    · obtain ⟨e, he⟩ := step_eq_error hclosed
      exact ⟨e, by rw [he]⟩
    · rw [step_eq_ok hnext]
      exact ih (by simpa [Int.toNat_of_nonneg hnext] using hrest)

end Writer

namespace Layout

variable {l : Layout} {steps steps' : List WriterStep}

/-- Steps are rendered exactly where they close no block that is not open. -/
theorem render_eq_ok_iff {text : String} :
    l.render steps = .ok text ↔
      l.Sustains 0 steps ∧ text = String.ofList (l.texts 0 steps) := by
  by_cases h : l.Sustains 0 steps
  · rw [render, Writer.run_eq_ok (w := .empty l) h]
    simp [h, Writer.empty, Except.map, eq_comm]
  · obtain ⟨e, he⟩ := Writer.run_eq_error (w := .empty l) h
    rw [render, he]
    simp [h, Except.map]

theorem exists_render_iff : (∃ text, l.render steps = .ok text) ↔ l.Sustains 0 steps := by
  simp [render_eq_ok_iff]

end Layout

/-! ### Units -/

/-- A unit begins with a character. -/
def Leads (c : Char) (unit : String) : Prop := unit.toList.head? = some c

theorem Leads.unique {c d : Char} {unit : String} (hc : Leads c unit) (hd : Leads d unit) :
    c = d := by
  rw [Leads, hc, Option.some.injEq] at hd
  exact hd

/-- A unit that begins with no delimiter leaves the depth as it is. -/
theorem Leads.shift_eq_zero {l : Layout} {c : Char} {unit : String} (h : Leads c unit)
    (ho : c ≠ l.opener) (hc : c ≠ l.closer) : l.shift (.emit unit) = 0 := by
  have hcloses : l.closes unit.toList = false := by
    rw [Layout.closes, h]
    simp [hc]
  have hopens : l.opens unit.toList = false := by
    rw [Layout.opens, Layout.begins, h]
    simp [ho]
  simp [Layout.shift, hcloses, hopens]

/-- The character that indentation is made of. -/
def Indent.char : Indent → Char
  | spaces _ => ' '
  | tab => '\t'

theorem Indent.char_ne_newline (i : Indent) : i.char ≠ '\n' := by
  cases i <;> simp [char]

theorem Indent.exists_text_eq (i : Indent) : ∃ n, i.text.toList = List.replicate n i.char := by
  unfold Indent.text
  split
  · exact ⟨2, rfl⟩
  · exact ⟨4, rfl⟩
  · exact ⟨8, rfl⟩
  · exact ⟨4, rfl⟩
  · exact ⟨1, rfl⟩

/-- The unit that a step writes, if it writes one. -/
def WriterStep.unit? : WriterStep → Option String
  | .emit unit => some unit
  | .blank => some ""
  | .indent => none
  | .dedent => none

namespace Layout

/-- The units that steps write, in order. -/
def units (steps : List WriterStep) : List String := steps.filterMap WriterStep.unit?

@[simp] theorem units_nil : units [] = [] := rfl

@[simp] theorem units_emit (unit : String) (steps : List WriterStep) :
    units (.emit unit :: steps) = unit :: units steps := rfl

@[simp] theorem units_blank (steps : List WriterStep) :
    units (.blank :: steps) = "" :: units steps := rfl

@[simp] theorem units_indent (steps : List WriterStep) : units (.indent :: steps) = units steps :=
  rfl

@[simp] theorem units_dedent (steps : List WriterStep) : units (.dedent :: steps) = units steps :=
  rfl

@[simp] theorem units_append (steps steps' : List WriterStep) :
    units (steps ++ steps') = units steps ++ units steps' := by
  simp [units]

@[simp] theorem units_map_emit {α : Type} (as : List α) (unit : α → String) :
    units (as.map fun a => .emit (unit a)) = as.map unit := by
  induction as with
  | nil => rfl
  | cons a rest ih => simp [ih]

@[simp] theorem units_flatMap {α : Type} (as : List α) (block : α → List WriterStep) :
    units (as.flatMap block) = as.flatMap fun a => units (block a) := by
  induction as with
  | nil => rfl
  | cons a rest ih => simp [ih]

/-- A unit is one line, and it does not begin like indentation. -/
structure OneLine (l : Layout) (unit : String) : Prop where
  newline : '\n' ∉ unit.toList
  first : unit.toList.head? ≠ some l.indent.char

/-- A line is a unit behind some indentation. -/
def Indented (l : Layout) (line : List Char) (unit : String) : Prop :=
  ∃ n, line = List.replicate n l.indent.char ++ unit.toList

variable {l : Layout}

/-- A unit of one line is written on a line of its own. -/
theorem OneLine.exists_block {unit : String} (h : l.OneLine unit) (depth : Nat) :
    ∃ line, l.block depth unit.toList = line ++ ['\n'] ∧ l.Indented line unit := by
  rw [block, Text.pieces_of_not_mem h.newline, List.flatMap_singleton, Layout.line]
  by_cases hempty : unit.toList.isEmpty = true
  · rw [if_pos hempty]
    exact ⟨[], rfl, 0, by simpa using (List.isEmpty_iff.1 hempty).symm⟩
  · rw [if_neg hempty]
    obtain ⟨width, hwidth⟩ := l.indent.exists_text_eq
    refine ⟨_, rfl, depth * width, ?_⟩
    rw [hwidth, List.flatten_replicate_replicate]

/-- Units of one line each are written on lines of their own, in order. -/
theorem exists_texts {steps : List WriterStep} (h : ∀ unit ∈ units steps, l.OneLine unit)
    (depth : Nat) :
    ∃ lines, l.texts depth steps = lines.flatMap (· ++ ['\n']) ∧
      List.Forall₂ l.Indented lines (units steps) := by
  induction steps generalizing depth with
  | nil => exact ⟨[], rfl, .nil⟩
  | cons s rest ih =>
    cases s with
    | indent => exact ih h _
    | dedent => exact ih h _
    | blank =>
      obtain ⟨-, hrest⟩ := List.forall_mem_cons.1 h
      obtain ⟨lines, htexts, hlines⟩ := ih hrest (depth + l.shift .blank).toNat
      refine ⟨[] :: lines, ?_, .cons ⟨0, rfl⟩ hlines⟩
      rw [texts, htexts]
      rfl
    | emit unit =>
      obtain ⟨hunit, hrest⟩ := List.forall_mem_cons.1 h
      obtain ⟨lines, htexts, hlines⟩ := ih hrest (depth + l.shift (.emit unit)).toNat
      obtain ⟨line, hblock, hline⟩ :=
        hunit.exists_block (if l.closes unit.toList then depth - 1 else depth)
      refine ⟨line :: lines, ?_, .cons hline hlines⟩
      rw [texts, htexts, written, hblock, List.flatMap_cons]

/-- Indentation can be told from what stands behind it. -/
theorem Indented.unique {line : List Char} {unit unit' : String} (hunit : l.OneLine unit)
    (hunit' : l.OneLine unit') (h : l.Indented line unit) (h' : l.Indented line unit') :
    unit = unit' := by
  obtain ⟨n, rfl⟩ := h
  obtain ⟨n', h'⟩ := h'
  have hspan := append_inj_of_span (· = l.indent.char) (fun a ha => List.eq_of_mem_replicate ha)
    (fun a ha => List.eq_of_mem_replicate ha) (fun a ha heq => hunit.first (heq ▸ ha))
    (fun a ha heq => hunit'.first (heq ▸ ha)) h'
  exact String.toList_injective hspan.2

theorem Indented.not_mem {line : List Char} {unit : String} (hunit : l.OneLine unit)
    (h : l.Indented line unit) : '\n' ∉ line := by
  obtain ⟨n, rfl⟩ := h
  rw [List.mem_append, not_or]
  refine ⟨fun hmem => ?_, hunit.newline⟩
  exact l.indent.char_ne_newline (List.eq_of_mem_replicate hmem).symm

/-- Lines can be told from one another by the units that they are. -/
theorem units_eq_of_indented {lines : List (List Char)} {us vs : List String}
    (hus : ∀ unit ∈ us, l.OneLine unit) (hvs : ∀ unit ∈ vs, l.OneLine unit)
    (h : List.Forall₂ l.Indented lines us) (h' : List.Forall₂ l.Indented lines vs) : us = vs := by
  induction h generalizing vs with
  | nil => cases h'; rfl
  | cons hfirst _ ih =>
    cases h' with
    | cons hfirst' hrest' =>
      obtain ⟨hu, hus⟩ := List.forall_mem_cons.1 hus
      obtain ⟨hv, hvs⟩ := List.forall_mem_cons.1 hvs
      rw [hfirst.unique hu hv hfirst', ih hus hvs hrest']

theorem newline_not_mem_of_indented {lines : List (List Char)} {us : List String}
    (hus : ∀ unit ∈ us, l.OneLine unit) (h : List.Forall₂ l.Indented lines us) :
    ∀ line ∈ lines, '\n' ∉ line := by
  induction h with
  | nil => simp
  | cons hfirst _ ih =>
    obtain ⟨hu, hus⟩ := List.forall_mem_cons.1 hus
    exact List.forall_mem_cons.2 ⟨hfirst.not_mem hu, ih hus⟩

/-- **A text tells its units.** Steps that write units of one line each, and write the same text,
write the same units in the same order. -/
theorem units_eq_of_render_eq {steps steps' : List WriterStep} {text : String}
    (h : ∀ unit ∈ units steps, l.OneLine unit) (h' : ∀ unit ∈ units steps', l.OneLine unit)
    (hrender : l.render steps = .ok text) (hrender' : l.render steps' = .ok text) :
    units steps = units steps' := by
  -- newlines cut the text into lines, and a line is cut where its indentation ends
  obtain ⟨-, htext⟩ := render_eq_ok_iff.1 hrender
  obtain ⟨-, htext'⟩ := render_eq_ok_iff.1 hrender'
  obtain ⟨lines, hlines, hunits⟩ := exists_texts h 0
  obtain ⟨lines', hlines', hunits'⟩ := exists_texts h' 0
  have hsame : lines = lines' := by
    refine eq_of_flatMap_append_mark (newline_not_mem_of_indented h hunits)
      (newline_not_mem_of_indented h' hunits') ?_
    rw [← hlines, ← hlines', ← String.ofList_inj, ← htext, ← htext']
  exact units_eq_of_indented h h' hunits (hsame ▸ hunits')

end Layout

end Sprocket
