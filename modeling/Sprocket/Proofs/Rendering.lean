import Sprocket.Artifact.Backend
import Sprocket.Proofs.Failures
import Sprocket.Proofs.Layout

/-!
# What can be rendered

A name that begins a line of code is taken for a delimiter where it begins with a brace. This is
the one way in which what a remote system reports can keep a context from being rendered: bindings
always are, and C# and typings are exactly if the names that begin their lines leave the depth room.

* `pull`: how a name changes the depth;
* `Fits`, `Room`: a block, and a file, in which nothing is closed that is not open;
* `Backend.render_succeeds_iff`: which contexts can be rendered;
* `not_rendered_shop`: a context that a remote system keeps from being rendered.
-/

namespace Sprocket

/-! ### Names that begin lines -/

/-- How a name changes the depth where it begins a line. -/
def pull (name : String) : Int :=
  if name.toList.head? = some '\x7d' then -1
  else if name.toList.head? = some '\x7b' then 1
  else 0

/-- In a block at a depth, whose lines stand `inner` deeper and begin with names, neither a line nor
the end of the block closes more than is open. -/
structure Fits (inner depth : Int) (pulls : List Int) : Prop where
  lines : ∀ p, p <+: pulls → 0 ≤ depth + inner + p.sum
  closing : 0 ≤ depth + pulls.sum

/-- Blocks one after another fit, each at the depth that those before it lead to. -/
def Blocks (inner depth : Int) (groups : List (List Int)) : Prop :=
  ∀ before pulls after, groups = before ++ pulls :: after →
    Fits inner (depth + before.flatten.sum) pulls

/-- The blocks of a file fit from the depth `base` on, and after them everything that was open
before them can be closed. -/
structure Room (inner base : Int) (groups : List (List Int)) : Prop where
  blocks : Blocks inner base groups
  closing : 0 ≤ groups.flatten.sum

section

variable {inner depth : Int}

/-- Lines that do not change the depth fit everywhere. -/
theorem fits_of_forall_eq_zero {pulls : List Int} (h : ∀ x ∈ pulls, x = 0) (hinner : 0 ≤ inner)
    (hdepth : 0 ≤ depth) : Fits inner depth pulls := by
  refine ⟨fun p hp => ?_, by rw [List.sum_eq_zero h]; omega⟩
  rw [List.sum_eq_zero fun x hx => h x (hp.subset hx)]
  omega

theorem fits_nil (hinner : 0 ≤ inner) : Fits inner depth [] ↔ 0 ≤ depth :=
  ⟨fun h => by simpa using h.closing, fits_of_forall_eq_zero (by simp) hinner⟩

theorem blocks_nil : Blocks inner depth [] := by
  intro before pulls after h
  simp at h

theorem blocks_cons {pulls : List Int} {groups : List (List Int)} :
    Blocks inner depth (pulls :: groups) ↔
      Fits inner depth pulls ∧ Blocks inner (depth + pulls.sum) groups := by
  constructor
  · intro h
    refine ⟨by simpa using h [] pulls groups rfl, fun before next after hsplit => ?_⟩
    have hnext := h (pulls :: before) next after (by rw [hsplit, List.cons_append])
    simpa [add_assoc] using hnext
  · rintro ⟨hfirst, hrest⟩ before next after hsplit
    cases before with
    | nil =>
      obtain ⟨rfl, -⟩ := List.cons.inj hsplit
      simpa using hfirst
    | cons first before =>
      obtain ⟨rfl, rfl⟩ := List.cons.inj hsplit
      simpa [add_assoc] using hrest before next after rfl

theorem Blocks.closing {groups : List (List Int)} (h : Blocks inner depth groups)
    (hdepth : 0 ≤ depth) : 0 ≤ depth + groups.flatten.sum := by
  induction groups generalizing depth with
  | nil => simpa using hdepth
  | cons pulls rest ih =>
    obtain ⟨hfirst, hrest⟩ := blocks_cons.1 h
    simpa [add_assoc] using ih hrest hfirst.closing

theorem blocks_append {groups groups' : List (List Int)} :
    Blocks inner depth (groups ++ groups') ↔
      Blocks inner depth groups ∧ Blocks inner (depth + groups.flatten.sum) groups' := by
  induction groups generalizing depth with
  | nil => simp [blocks_nil]
  | cons pulls rest ih =>
    rw [List.cons_append, blocks_cons, blocks_cons, ih, List.flatten_cons, List.sum_append,
      add_assoc, and_assoc]

/-- Names that do not change the depth leave room everywhere. -/
theorem room_of_forall_eq_zero {groups : List (List Int)} (h : ∀ pulls ∈ groups, ∀ x ∈ pulls, x = 0)
    (hinner : 0 ≤ inner) (hdepth : 0 ≤ depth) : Room inner depth groups := by
  have hsum : ∀ before ⊆ groups, before.flatten.sum = 0 := by
    intro before hbefore
    refine List.sum_eq_zero fun x hx => ?_
    obtain ⟨pulls, hpulls, hx⟩ := List.mem_flatten.1 hx
    exact h pulls (hbefore hpulls) x hx
  refine ⟨fun before pulls after hsplit => ?_, by rw [hsum groups (List.Subset.refl _)]⟩
  have hbefore : before ⊆ groups := hsplit ▸ List.subset_append_left before _
  have hpulls : pulls ∈ groups := by simp [hsplit]
  rw [hsum before hbefore, add_zero]
  exact fits_of_forall_eq_zero (h pulls hpulls) hinner hdepth

end

/-- A name that begins with no brace does not change the depth. -/
theorem pull_eq_zero {name : String} (h : ∀ c ∈ name.toList.head?, c ≠ '\x7b' ∧ c ≠ '\x7d') :
    pull name = 0 := by
  have hclose : name.toList.head? ≠ some '\x7d' := fun hhead => (h _ hhead).2 rfl
  have hopen : name.toList.head? ≠ some '\x7b' := fun hhead => (h _ hhead).1 rfl
  rw [pull, if_neg hclose, if_neg hopen]

/-- What is opened before lines and closed after them is carried out where the lines fit. -/
theorem sustains_block {l : Layout} {opening closing : WriterStep} {steps rest : List WriterStep}
    {depth : Int} {pulls : List Int} (ho : l.shift opening = 1) (hc : l.shift closing = -1)
    (h : steps.map l.shift = pulls) :
    l.Sustains depth (opening :: (steps ++ closing :: rest)) ↔
      0 ≤ depth ∧ Fits 1 depth pulls ∧ l.Sustains (depth + pulls.sum) rest := by
  have hclosed : depth + 1 + pulls.sum + -1 = depth + pulls.sum := by omega
  rw [Layout.sustains_cons, ho, Layout.sustains_append_of_shifts h, Layout.sustains_cons, hc,
    hclosed]
  constructor
  · rintro ⟨hdepth, hlines, -, hrest⟩
    exact ⟨hdepth, ⟨hlines, hrest.nonneg⟩, hrest⟩
  · rintro ⟨hdepth, ⟨hlines, hclosing⟩, hrest⟩
    exact ⟨hdepth, hlines, by omega, hrest⟩

/-- A line that begins with another character than a brace leaves the depth as it is. -/
theorem Leads.shift_braces {i : Indent} {unit : String} {c : Char} (h : Leads c unit)
    (hc : c ≠ '\x7b' ∧ c ≠ '\x7d') : (Layout.braces i).shift (.emit unit) = 0 :=
  h.shift_eq_zero hc.1 hc.2

/-- A line that does not end in a closing brace changes the depth by the way it begins. -/
theorem shift_eq_pull {i : Indent} {unit : String} (hlast : unit.toList.getLast? ≠ some '\x7d') :
    (Layout.braces i).shift (.emit unit) = pull unit := by
  have hopens : (Layout.braces i).opens unit.toList = (unit.toList.head? == some '\x7b') := by
    simp only [Layout.opens, Layout.begins, Layout.braces, bne_iff_ne.2 hlast, Bool.and_true]
  have hcloses : (Layout.braces i).closes unit.toList = (unit.toList.head? == some '\x7d') := by
    simp only [Layout.closes, Layout.begins, Layout.braces]
    by_cases hhead : unit.toList.head? = some '\x7d' <;> simp [hhead]
  simp only [Layout.shift, hopens, hcloses, beq_iff_eq, pull]

/-- What comes after a name and begins with no brace does not change the depth. -/
theorem pull_append {name rest : String} {c : Char} (hrest : Leads c rest)
    (hc : c ≠ '\x7b' ∧ c ≠ '\x7d') : pull (name ++ rest) = pull name := by
  cases hname : name.toList with
  | nil =>
    have hleads : (name ++ rest).toList.head? = some c := by
      rw [String.toList_append, hname]
      exact hrest
    simp only [pull, hleads, hname, Option.some.injEq, hc.1, hc.2, if_false, List.head?_nil]
    rfl
  | cons first others =>
    have hleads : (name ++ rest).toList.head? = some first := by
      rw [String.toList_append, hname]
      rfl
    simp only [pull, hleads, hname, List.head?_cons]

/-! ### Characters of C# -/

namespace CSharp

theorem newline_not_mem_optionalTypeName (t : HostType) : '\n' ∉ (optionalTypeName t).toList := by
  cases t <;> decide

theorem newline_not_mem_typeName (t : HostType) : '\n' ∉ (typeName t).toList := by
  cases t <;> decide

theorem not_mem_fieldName {p : Parameter} {c : Char} (h : c ∉ p.name.toList) :
    c ∉ p.fieldName.toList := by
  rw [Parameter.fieldName, Naming.field, String.toList_ofList, Naming.mem_unmarked]
  exact fun hmem => h hmem.1

theorem newline_not_mem_of_mem_docLines {doc line : String} (h : line ∈ docLines doc) :
    '\n' ∉ line.toList := by
  obtain ⟨raw, hraw, rfl⟩ := List.mem_map.1 h
  rw [String.toList_ofList]
  exact fun hmem => Text.newline_not_mem_of_mem_lines hraw (Text.mem_of_mem_trim hmem)

theorem newline_not_mem_bindingLine {p : Parameter} (h : '\n' ∉ p.name.toList) :
    '\n' ∉ (bindingLine p).toList := by
  unfold bindingLine
  simp [h, not_mem_fieldName h]

theorem bindingEnd_eq_or (m : Method) : bindingEnd m = "," ∨ bindingEnd m = "" := by
  unfold bindingEnd
  split
  · exact .inl rfl
  · exact .inr rfl

theorem newline_not_mem_bindingEnd (m : Method) : '\n' ∉ (bindingEnd m).toList := by
  rcases bindingEnd_eq_or m with h | h <;> rw [h] <;> decide

theorem newline_not_mem_call (m : Method) : '\n' ∉ (call m).toList := by
  unfold call
  cases m.shape with
  | rowSequence => dsimp only; decide
  | scalar type => simp [newline_not_mem_typeName]
  | affectedCount => decide

theorem newline_not_mem_signature {m : Method} (h : '\n' ∉ m.name.toList) :
    '\n' ∉ (signature m).toList := by
  have hargument : '\n' ∉ (argument m).toList := by
    unfold argument
    split
    · decide
    · simp [h]
  have hreturn : '\n' ∉ (returnType m).toList := by
    unfold returnType
    cases m.shape with
    | rowSequence => simp [h]
    | scalar type => exact newline_not_mem_typeName type
    | affectedCount => dsimp only; decide
  simp [signature, h, hargument, hreturn]

theorem leads_bindingLine (p : Parameter) : Leads '_' (bindingLine p) := by
  unfold Leads bindingLine
  simp

theorem leads_signature (m : Method) : Leads 'p' (signature m) := by
  simp [Leads, signature]

theorem leads_call (m : Method) : Leads 'r' (call m) := by
  unfold call
  cases m.shape <;> simp [Leads]

end CSharp

/-! ### C# -/

namespace CSharp

/-- How the columns of a method change the depth where they are read. -/
def pulls (m : Method) : List Int := m.shape.columns.map fun c => pull c.name

@[simp] theorem shift_open : layout.shift (.emit "\x7b") = 1 := by decide

@[simp] theorem shift_close : layout.shift (.emit "\x7d") = -1 := by decide

theorem shift_property (type : HostType) (name : String) :
    layout.shift (property type name) = 0 :=
  Leads.shift_braces (c := 'p') (by simp [Leads]) (by decide)

theorem inert_resultClass (m : Method) : layout.Inert (resultClass m) := by
  unfold resultClass
  cases m.shape with
  | rowSequence columns =>
    simp only [List.cons_append, List.nil_append]
    refine .cons (Leads.shift_braces (c := 'p') (by simp [Leads]) (by decide))
      (.block shift_open shift_close (.of_shift_eq_zero fun s hs => ?_) (.cons rfl .nil))
    obtain ⟨c, -, rfl⟩ := List.mem_map.1 hs
    exact shift_property c.type c.name
  | scalar => exact .nil
  | affectedCount => exact .nil

theorem inert_parameterClass (m : Method) : layout.Inert (parameterClass m) := by
  simp only [parameterClass, List.cons_append, List.nil_append]
  refine .cons (Leads.shift_braces (c := 'p') (by simp [Leads]) (by decide))
    (.block shift_open shift_close (.of_shift_eq_zero fun s hs => ?_) .nil)
  obtain ⟨p, -, rfl⟩ := List.mem_map.1 hs
  exact shift_property p.type p.fieldName

theorem inert_summary (m : Method) : layout.Inert (summary m) := by
  refine .of_shift_eq_zero fun s hs => ?_
  unfold summary at hs
  cases hdoc : m.doc with
  | none => simp [hdoc] at hs
  | some doc =>
    simp only [hdoc, List.mem_append, List.mem_singleton, List.mem_map] at hs
    obtain (rfl | ⟨line, -, rfl⟩) | rfl := hs <;>
      exact Leads.shift_braces (c := '/') (by simp [Leads]) (by decide)

theorem inert_bindings (m : Method) : layout.Inert (bindings m) := by
  have hend : layout.shift (.emit ("\x7d" ++ bindingEnd m)) = -1 := by
    rcases bindingEnd_eq_or m with h | h <;> rw [h] <;> decide
  have hlines : layout.Inert (.emit "if (parameters == null) return;" ::
      m.parameters.map fun p => .emit (bindingLine p)) := by
    refine .cons (Leads.shift_braces (c := 'i') (by simp [Leads]) (by decide))
      (.of_shift_eq_zero fun s hs => ?_)
    obtain ⟨p, -, rfl⟩ := List.mem_map.1 hs
    exact (leads_bindingLine p).shift_braces (by decide)
  unfold bindings
  split
  · exact .cons (Leads.shift_braces (c := 'p') (by simp [Leads]) (by decide)) .nil
  · exact .cons (Leads.shift_braces (c := 'p') (by simp [Leads]) (by decide))
      (.block shift_open hend hlines .nil)

/-- A column changes the depth where it is read by the way its name begins. -/
theorem shift_mappingLine (c : ResultColumn) {separator : String}
    (h : separator = "" ∨ separator = ",") :
    layout.shift (.emit (mappingLine c separator)) = pull c.name := by
  have hend : ∃ last, (optionalTypeName c.type ++ separator).toList.getLast? = some last ∧
      last ≠ '\x7d' := by
    rcases h with rfl | rfl
    · cases c.type <;> exact ⟨_, rfl, by decide⟩
    · exact ⟨',', by simp, by decide⟩
  obtain ⟨last, htype, hbrace⟩ := hend
  have hlast : (mappingLine c separator).toList.getLast? ≠ some '\x7d' := by
    rw [mappingLine, String.append_assoc, String.toList_append, List.getLast?_append, htype]
    simpa using hbrace
  rw [layout, shift_eq_pull hlast, mappingLine]
  simp only [String.append_assoc]
  exact pull_append (c := ' ') (by simp [Leads]) (by decide)

theorem shift_mappingLines (columns : List ResultColumn) :
    ((mappingLines columns).map .emit).map layout.shift = columns.map fun c => pull c.name := by
  induction columns using mappingLines.induct with
  | case1 => rfl
  | case2 c => simp [mappingLines, shift_mappingLine c (.inl rfl)]
  | case3 c rest hrest ih =>
    rw [mappingLines]
    · simpa [shift_mappingLine c (.inr rfl)] using ih
    · assumption

/-- The mapping of a method is carried out where its columns fit. -/
theorem sustains_mapping {depth : Int} {m : Method} {rest : List WriterStep} :
    layout.Sustains depth (mapping m ++ rest) ↔
      0 ≤ depth ∧ Fits 1 depth (pulls m) ∧ layout.Sustains (depth + (pulls m).sum) rest := by
  have hnone : layout.Sustains depth rest ↔
      0 ≤ depth ∧ Fits 1 depth [] ∧ layout.Sustains (depth + List.sum []) rest := by
    rw [fits_nil (by decide), List.sum_nil, add_zero]
    exact ⟨fun h => ⟨h.nonneg, h.nonneg, h⟩, fun h => h.2.2⟩
  unfold mapping pulls
  cases m.shape with
  | rowSequence columns =>
    have hname : layout.shift (.emit ("mapping : reader => new " ++ m.name ++ "Result()")) = 0 :=
      Leads.shift_braces (c := 'm') (by simp [Leads]) (by decide)
    simp only [List.cons_append, List.nil_append, List.append_assoc, ReturnShape.columns]
    rw [Layout.sustains_cons, hname, add_zero,
      sustains_block shift_open shift_close (shift_mappingLines columns), and_self_left]
  | scalar => exact hnone
  | affectedCount => exact hnone

theorem shift_region (procedure : String) : layout.shift (.emit ("#region " ++ procedure)) = 0 :=
  Leads.shift_braces (c := '#') (by simp [Leads]) (by decide)

theorem shift_signature (m : Method) : layout.shift (.emit (signature m)) = 0 :=
  (leads_signature m).shift_braces (by decide)

theorem shift_call (m : Method) : layout.shift (.emit (call m)) = 0 :=
  (leads_call m).shift_braces (by decide)

theorem shift_query (procedure : String) :
    layout.shift (.emit ("query : \"" ++ procedure ++ "\",")) = 0 :=
  Leads.shift_braces (c := 'q') (by simp [Leads]) (by decide)

/-- A method is carried out where its columns fit, three levels deeper. -/
theorem sustains_method {depth : Int} {m : Method} {rest : List WriterStep} :
    layout.Sustains depth (method m ++ rest) ↔
      0 ≤ depth ∧ Fits 3 depth (pulls m) ∧ layout.Sustains (depth + (pulls m).sum) rest := by
  have hend : layout.shift (.emit ");") = 0 ∧ layout.shift (.emit "#endregion") = 0 := by decide
  simp only [method, body, List.cons_append, List.nil_append, List.append_assoc,
    Layout.sustains_cons, shift_region, (inert_parameterClass m).sustains_append,
    (inert_summary m).sustains_append, shift_signature, shift_open, shift_call, Layout.shift_indent,
    shift_query,
    (inert_bindings m).sustains_append, sustains_mapping, Layout.shift_dedent, hend, shift_close,
    add_zero]
  -- of all that is closed after the columns, the brace of the body asks the most
  have hback : depth + 1 + 1 + (pulls m).sum + -1 + -1 = depth + (pulls m).sum := by omega
  rw [hback]
  constructor
  · rintro ⟨hdepth, -, -, -, -, -, -, hfits, -, -, -, hclosing, hrest⟩
    refine ⟨hdepth, ⟨fun p hp => ?_, hclosing⟩, hrest⟩
    have hline := hfits.lines p hp
    omega
  · rintro ⟨hdepth, hfits, hrest⟩
    have hclosing := hfits.closing
    have hinner : Fits 1 (depth + 1 + 1) (pulls m) := by
      refine ⟨fun p hp => ?_, by omega⟩
      have hline := hfits.lines p hp
      omega
    and_intros <;> first | assumption | omega

/-- The methods of a context are carried out where their columns fit one after another. -/
theorem sustains_methods {depth : Int} {ms : List Method} {rest : List WriterStep} :
    layout.Sustains depth
        ((ms.flatMap fun m => method m ++ [WriterStep.blank]) ++ rest) ↔
      0 ≤ depth ∧ Blocks 3 depth (ms.map pulls) ∧
        layout.Sustains (depth + (ms.map pulls).flatten.sum) rest := by
  induction ms generalizing depth with
  | nil =>
    simp only [List.flatMap_nil, List.nil_append, List.map_nil, List.flatten_nil, List.sum_nil,
      add_zero]
    exact ⟨fun h => ⟨h.nonneg, blocks_nil, h⟩, fun h => h.2.2⟩
  | cons m ms ih =>
    simp only [List.flatMap_cons, List.append_assoc, sustains_method, List.cons_append,
      List.nil_append, Layout.sustains_cons, Layout.shift_blank, add_zero, ih, List.map_cons,
      blocks_cons, List.flatten_cons, List.sum_append, add_assoc]
    constructor
    · rintro ⟨hdepth, hfits, -, -, hblocks, hrest⟩
      exact ⟨hdepth, ⟨hfits, hblocks⟩, hrest⟩
    · rintro ⟨hdepth, ⟨hfits, hblocks⟩, hrest⟩
      exact ⟨hdepth, hfits, hfits.closing, hfits.closing, hblocks, hrest⟩

/-- What stands before the methods of a context. -/
def opening (c : Context) : List WriterStep :=
  [.emit "using System;", .emit "using System.Collections.Generic;", .emit "using System.Linq;",
      .emit "using Dataflip;", .blank, .emit ("namespace " ++ c.namespaceName), .emit "\x7b",
      .emit ("public class " ++ c.name ++ " : DataflipContext"), .emit "\x7b",
      .emit ("public " ++ c.name ++ "(DataflipSettings settings) : base(settings)"),
      .emit "\x7b\x7d", .blank,
      .emit ("public " ++ c.name ++ "() : base(\"" ++ c.name ++ "\")"), .emit "\x7b\x7d", .blank,
      .emit "#region Result Classes"]
    ++ c.methods.flatMap resultClass ++ [.emit "#endregion", .blank]

theorem steps_eq (c : Context) :
    steps c = opening c ++
      ((c.methods.flatMap fun m => method m ++ [WriterStep.blank]) ++
        [.emit "\x7d", .emit "\x7d"]) := by
  simp [steps, contextClass, opening]

/-- Two blocks are open where the methods begin. -/
theorem sustains_opening {depth : Int} {c : Context} {rest : List WriterStep} :
    layout.drift (opening c) = 2 ∧
      (layout.Sustains depth (opening c ++ rest) ↔
        0 ≤ depth ∧ layout.Sustains (depth + 2) rest) := by
  have hnamespace : layout.shift (.emit ("namespace " ++ c.namespaceName)) = 0 :=
    Leads.shift_braces (c := 'n') (by simp [Leads]) (by decide)
  have hclass : layout.shift (.emit ("public class " ++ c.name ++ " : DataflipContext")) = 0 :=
    Leads.shift_braces (c := 'p') (by simp [Leads]) (by decide)
  have hsettings : layout.shift (.emit ("public " ++ c.name ++
      "(DataflipSettings settings) : base(settings)")) = 0 :=
    Leads.shift_braces (c := 'p') (by simp [Leads]) (by decide)
  have hplain : layout.shift (.emit ("public " ++ c.name ++ "() : base(\"" ++ c.name ++ "\")")) =
      0 :=
    Leads.shift_braces (c := 'p') (by simp [Leads]) (by decide)
  have hfixed : ∀ unit ∈ ["using System;", "using System.Collections.Generic;",
      "using System.Linq;", "using Dataflip;", "\x7b\x7d", "#region Result Classes", "#endregion"],
      layout.shift (.emit unit) = 0 := by decide
  simp only [List.forall_mem_cons] at hfixed
  have hresults : layout.Inert (c.methods.flatMap resultClass) :=
    .flatMap fun m _ => inert_resultClass m
  simp only [opening, List.cons_append, List.nil_append, List.append_assoc, Layout.drift_cons,
    Layout.drift_append, Layout.drift_nil, hresults.drift, Layout.sustains_cons, hfixed,
    Layout.shift_blank, hnamespace, shift_open, hclass, hsettings, hplain,
    hresults.sustains_append, add_zero, zero_add, add_assoc]
  have htwo : (1 + 1 : Int) = 2 := by decide
  simp only [htwo, and_self_left, true_and]
  constructor
  · rintro ⟨hdepth, -, -, hrest⟩
    exact ⟨hdepth, hrest⟩
  · rintro ⟨hdepth, hrest⟩
    exact ⟨hdepth, by omega, by omega, hrest⟩

/-- A context can be written as C# exactly if the columns of its methods leave the depth room. -/
theorem exists_render_iff (c : Context) :
    (∃ text, render c = .ok text) ↔ Room 3 2 (c.methods.map pulls) := by
  rw [render, Layout.exists_render_iff, steps_eq, sustains_opening.2, sustains_methods]
  simp only [Layout.sustains_cons, shift_close, Layout.sustains_nil, zero_add]
  -- the class and the namespace are closed last, so the methods have to leave both of them open
  constructor
  · rintro ⟨-, -, hblocks, -, -, hclosing⟩
    exact ⟨hblocks, by omega⟩
  · rintro ⟨hblocks, hclosing⟩
    exact ⟨le_refl 0, by decide, hblocks, by omega, by omega, by omega⟩

end CSharp

/-! ### Typings -/

namespace Typings

/-- How the fields of a method's result change the depth. -/
def columnPulls (camel : Bool) (m : Method) : List Int :=
  m.shape.columns.map fun c => pull (Naming.client camel c.name)

/-- How the fields of a method's parameters change the depth. -/
def parameterPulls (camel : Bool) (m : Method) : List Int :=
  m.parameters.map fun p => pull (Naming.client camel p.name)

/-- How the fields of the two classes of a method change the depth. -/
def pulls (camel : Bool) (m : Method) : List (List Int) :=
  [columnPulls camel m, parameterPulls camel m]

@[simp] theorem shift_open : layout.shift (.emit "\x7b") = 1 := by decide

@[simp] theorem shift_close : layout.shift (.emit "\x7d") = -1 := by decide

/-- A field changes the depth by the way its name begins. -/
theorem shift_field (camel : Bool) (name : String) (type : HostType) :
    layout.shift (field camel name type) = pull (Naming.client camel name) := by
  have hlast : (Naming.client camel name ++ ": " ++ typeName type ++ ";").toList.getLast? ≠
      some '\x7d' := by
    rw [String.toList_append, List.getLast?_append]
    simp
  rw [field, layout, shift_eq_pull hlast]
  simp only [String.append_assoc]
  exact pull_append (c := ':') (by simp [Leads]) (by decide)

/-- A class is carried out where its fields fit, whatever comment stands before them. -/
theorem sustains_class {depth : Int} {name : String} {comment fields rest : List WriterStep}
    {pulls : List Int} (hname : Leads 'e' name) (hcomment : layout.Inert comment)
    (h : fields.map layout.shift = pulls) :
    layout.Sustains depth
        (.emit name :: .emit "\x7b" :: (comment ++ (fields ++ .emit "\x7d" :: rest))) ↔
      0 ≤ depth ∧ Fits 1 depth pulls ∧ layout.Sustains (depth + pulls.sum) rest := by
  have hshift : layout.shift (.emit name) = 0 := hname.shift_braces (by decide)
  rw [Layout.sustains_cons, hshift, add_zero, Layout.sustains_cons,
    hcomment.sustains_append, ← Layout.sustains_cons, sustains_block shift_open shift_close h,
    and_self_left]

theorem inert_comment {text : String} (h : Leads '/' text) : layout.Inert [.emit text] :=
  .cons (h.shift_braces (by decide)) .nil

theorem sustains_resultClass {camel : Bool} {depth : Int} {m : Method} {rest : List WriterStep} :
    layout.Sustains depth (resultClass camel m ++ rest) ↔
      0 ≤ depth ∧ Fits 1 depth (columnPulls camel m) ∧
        layout.Sustains (depth + (columnPulls camel m).sum) rest := by
  have hname : Leads 'e' ("export class " ++ m.name ++ "_Result") := by simp [Leads]
  have hbasic : layout.Inert [.emit "/* Method returns a basic type. */"] :=
    inert_comment (by simp [Leads])
  have hnone : ([] : List WriterStep).map layout.shift = [] := rfl
  unfold resultClass columnPulls
  cases m.shape with
  | rowSequence columns =>
    have hfields : (columns.map fun c => field camel c.name c.type).map layout.shift =
        columns.map fun c => pull (Naming.client camel c.name) := by
      simp [shift_field]
    simpa [ReturnShape.columns] using sustains_class hname .nil hfields
  | scalar => simpa [ReturnShape.columns] using sustains_class hname hbasic hnone
  | affectedCount => simpa [ReturnShape.columns] using sustains_class hname hbasic hnone

theorem sustains_parameterClass {camel : Bool} {depth : Int} {m : Method}
    {rest : List WriterStep} :
    layout.Sustains depth (parameterClass camel m ++ rest) ↔
      0 ≤ depth ∧ Fits 1 depth (parameterPulls camel m) ∧
        layout.Sustains (depth + (parameterPulls camel m).sum) rest := by
  have hname : Leads 'e' ("export class " ++ m.name ++ "_Parameters") := by simp [Leads]
  have hcomment : layout.Inert
      (if m.parameters.isEmpty then [.emit "/* No parameters. */"] else []) := by
    split
    · exact inert_comment (by simp [Leads])
    · exact .nil
  have hfields : (m.parameters.map fun p => field camel p.name p.type).map layout.shift =
      parameterPulls camel m := by
    simp [shift_field, parameterPulls]
  simpa [parameterClass] using sustains_class hname hcomment hfields

/-- A method is carried out where the fields of its two classes fit one after another. -/
theorem sustains_method {camel : Bool} {depth : Int} {m : Method} {rest : List WriterStep} :
    layout.Sustains depth (method camel m ++ rest) ↔
      0 ≤ depth ∧ Blocks 1 depth (pulls camel m) ∧
        layout.Sustains (depth + (pulls camel m).flatten.sum) rest := by
  simp only [method, pulls, List.append_assoc, sustains_resultClass, sustains_parameterClass,
    blocks_cons, List.flatten_cons, List.flatten_nil, List.append_nil, List.sum_append, add_assoc]
  constructor
  · rintro ⟨hdepth, hresult, -, hparameters, hrest⟩
    exact ⟨hdepth, ⟨hresult, hparameters, blocks_nil⟩, hrest⟩
  · rintro ⟨hdepth, ⟨hresult, hparameters, -⟩, hrest⟩
    exact ⟨hdepth, hresult, hresult.closing, hparameters, hrest⟩

theorem sustains_methods {camel : Bool} {depth : Int} {ms : List Method}
    {rest : List WriterStep} :
    layout.Sustains depth (methods camel ms ++ rest) ↔
      0 ≤ depth ∧ Blocks 1 depth (ms.flatMap (pulls camel)) ∧
        layout.Sustains (depth + (ms.flatMap (pulls camel)).flatten.sum) rest := by
  induction ms using methods.induct generalizing depth with
  | case1 =>
    simp only [methods, List.nil_append, List.flatMap_nil, List.flatten_nil, List.sum_nil, add_zero]
    exact ⟨fun h => ⟨h.nonneg, blocks_nil, h⟩, fun h => h.2.2⟩
  | case2 m => simpa [methods] using sustains_method
  | case3 m ms hms ih =>
    rw [methods]
    · simp only [List.append_assoc, sustains_method, List.cons_append, List.nil_append,
        Layout.sustains_cons, Layout.shift_blank, add_zero, ih, List.flatMap_cons, blocks_append,
        List.flatten_append, List.sum_append, add_assoc]
      constructor
      · rintro ⟨hdepth, hfirst, -, -, hblocks, hrest⟩
        exact ⟨hdepth, ⟨hfirst, hblocks⟩, hrest⟩
      · rintro ⟨hdepth, ⟨hfirst, hblocks⟩, hrest⟩
        have hnext := hfirst.closing hdepth
        exact ⟨hdepth, hfirst, hnext, hnext, hblocks, hrest⟩
    · assumption

/-- A context can be written as typings exactly if the fields of its classes leave the depth
room. -/
theorem exists_render_iff (camel : Bool) (c : Context) :
    (∃ text, render camel c = .ok text) ↔ Room 1 1 (c.methods.flatMap (pulls camel)) := by
  have hnamespace : layout.shift (.emit ("export namespace " ++ c.name)) = 0 :=
    Leads.shift_braces (c := 'e') (by simp [Leads]) (by decide)
  rw [render, Layout.exists_render_iff]
  simp only [steps, List.cons_append, List.nil_append, Layout.sustains_cons, hnamespace, shift_open,
    sustains_methods, shift_close, Layout.sustains_nil, add_zero, zero_add]
  constructor
  · rintro ⟨-, -, -, hblocks, -, hclosing⟩
    exact ⟨hblocks, by omega⟩
  · rintro ⟨hblocks, hclosing⟩
    exact ⟨le_refl 0, le_refl 0, by decide, hblocks, by omega, by omega⟩

end Typings

/-! ### Bindings -/

namespace Bindings

theorem shift_markup {unit : String} (h : Leads '<' unit) : layout.shift (.emit unit) = 0 :=
  h.shift_braces (by decide)

theorem inert_result (camel : Bool) (m : Method) : layout.Inert (result camel m) := by
  unfold result
  cases m.shape with
  | rowSequence columns =>
    have hcells : layout.Inert (columns.map fun c => .emit (cell camel c)) := by
      refine .of_shift_eq_zero fun s hs => ?_
      obtain ⟨c, -, rfl⟩ := List.mem_map.1 hs
      exact shift_markup (by simp [Leads, cell])
    simp only [List.cons_append, List.nil_append]
    have hleads : Leads '<' (row m) := by
      unfold Leads row
      simp
    have htag : layout.shift (.emit "<table>") = 0 := shift_markup (by simp [Leads])
    have hrow : layout.Inert (.emit (row m) :: .indent ::
        ((columns.map fun c => .emit (cell camel c)) ++ .dedent :: [.emit "</tr>"])) :=
      .cons (shift_markup hleads) (.block rfl rfl hcells
        (.cons (shift_markup (by simp [Leads])) .nil))
    have htable : layout.Inert (.indent :: (_ ++ .dedent :: [.emit "</table>"])) :=
      .block rfl rfl hrow (.cons (shift_markup (by simp [Leads])) .nil)
    simpa using htable.cons htag
  | scalar => exact .cons (shift_markup (by simp [Leads])) .nil
  | affectedCount => exact .cons (shift_markup (by simp [Leads])) .nil

theorem inert_inputs (camel : Bool) (m : Method) : layout.Inert (inputs camel m) := by
  unfold inputs
  refine .append ?_ (.of_shift_eq_zero fun s hs => ?_)
  · split
    · exact .cons (shift_markup (by simp [Leads])) .nil
    · exact .nil
  · obtain ⟨p, -, rfl⟩ := List.mem_map.1 hs
    refine shift_markup ?_
    unfold Leads input
    simp

theorem inert_method (camel : Bool) (m : Method) : layout.Inert (method camel m) := by
  simp only [method, List.cons_append, List.nil_append, List.append_assoc]
  exact .cons (shift_markup (by simp [Leads])) (.append (inert_result camel m)
    (.cons (shift_markup (by simp [Leads])) (inert_inputs camel m)))

/-- Every context can be written as bindings. -/
theorem exists_render (camel : Bool) (c : Context) : ∃ text, render camel c = .ok text := by
  have hsteps : layout.Inert (steps camel c) :=
    .cons (shift_markup (by simp [Leads])) (.flatMap fun m _ => .cons rfl (inert_method camel m))
  exact Layout.exists_render_iff.2 (hsteps.sustains 0 (le_refl 0))

end Bindings

/-! ### All backends -/

/-- **Which contexts can be rendered.** Bindings always can be. C# can be exactly if the columns
that are read in the methods leave the depth room, and typings exactly if the fields of the classes
do; nothing else about a context matters. -/
theorem Backend.render_succeeds_iff (camel : Bool) (c : Context) :
    (∃ text, Backend.angular.render camel c = .ok text) ∧
    ((∃ text, Backend.csharp.render camel c = .ok text) ↔ Room 3 2 (c.methods.map CSharp.pulls)) ∧
    ((∃ text, Backend.typescript.render camel c = .ok text) ↔
      Room 1 1 (c.methods.flatMap (Typings.pulls camel))) :=
  ⟨Bindings.exists_render camel c, CSharp.exists_render_iff c, Typings.exists_render_iff camel c⟩

/-- The shop on a server that reports a column named by a closing brace: it is built from a valid
manifest, and neither C# nor typings can be rendered. -/
theorem not_rendered_shop :
    let server := shopServer [⟨"Id", "integer"⟩, ⟨"\x7d", "text"⟩]
    Manifest.read shopText "shop.toml" = .ok ⟨[shop]⟩ ∧
    ∃ context, (Build.context server shop).result = .ok context ∧
      Backend.csharp.render false context = .error ⟨"\x7d"⟩ ∧
      ∀ camel, Backend.typescript.render camel context = .error ⟨"\x7d"⟩ := by
  intro server
  refine ⟨read_shopText _, _, rfl, ?_, fun camel => ?_⟩
  · decide +kernel
  · cases camel <;> decide +kernel

end Sprocket
