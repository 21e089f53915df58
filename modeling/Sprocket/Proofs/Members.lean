import Mathlib.Data.List.Perm.Basic
import Sprocket.Proofs.Braces
import Sprocket.Proofs.Lines
import Sprocket.Proofs.Lossless
import Sprocket.Proofs.Validation

/-!
# The members of a context class

Which classes and methods a context class declares, read from its text, and when two of them have
the same name. Names of methods are only ever compared with one another, so a method can be named
like a class that is generated for a method, or like the context itself.

* `CSharp.declared`: the names that a text declares;
* `Context.Undivided`: contexts whose names stand on lines as one word;
* `CSharp.declared_eq`: what the text of a context declares;
* `Method.classNames`, `Context.Unclashing`: the classes of a method, and names that do not clash;
* `CSharp.declared_nodup_iff`: the names are different exactly if they do not clash.
-/

namespace Sprocket

/-! ### Words -/

namespace Text

/-- The pieces of a line between its blanks. -/
def words (line : String) : List String := (pieces ' ' line.toList).map String.ofList

theorem words_of_not_mem {a : String} (h : ' ' ∉ a.toList) : words a = [a] := by
  simp [words, pieces_of_not_mem h]

theorem words_append {a : String} (h : ' ' ∉ a.toList) (b : String) :
    words (a ++ " " ++ b) = a :: words b := by
  have hchars : (a ++ " " ++ b).toList = a.toList ++ ' ' :: b.toList := by simp
  rw [words, hchars, pieces_append h, List.map_cons, String.ofList_toList, words]

/-- A text without blanks belongs to the first word of what follows it. -/
theorem exists_words_append {a : String} (h : ' ' ∉ a.toList) (b : String) :
    ∃ first rest, words (a ++ b) = (a ++ first) :: rest := by
  obtain ⟨p, ps, hpieces⟩ := List.exists_cons_of_ne_nil (pieces_ne_nil ' ' b.toList)
  have happend : pieces ' ' (a.toList ++ b.toList) = (a.toList ++ p) :: ps := by
    revert h
    induction a.toList with
    | nil => simpa using hpieces
    | cons c s ih =>
      intro h
      rw [List.mem_cons, not_or] at h
      simp [pieces, Ne.symm h.1, ih h.2]
  refine ⟨String.ofList p, ps.map String.ofList, ?_⟩
  rw [words, String.toList_append, happend]
  simp

end Text

/-! ### Names -/

/-- The name of the class of a method's rows, if it returns rows. -/
def Method.resultName? (m : Method) : Option String :=
  match m.shape with
  | .rowSequence _ => some (m.name ++ "Result")
  | _ => none

/-- The names of the classes that are generated for a method: one for its rows, if it returns rows,
and one for its parameters. -/
def Method.classNames (m : Method) : List String :=
  m.resultName?.toList ++ [m.name ++ "Parameters"]

/-- A name that stands on a line as one word: it holds no blank, no brace and no bracket. Every
identifier is such a name, with marks or without. -/
structure Naming.Undivided (name : String) : Prop where
  nonempty : name ≠ ""
  chars : ∀ c ∈ name.toList, Text.isLayoutChar c = false ∧ c ≠ '('

/-- A method whose names stand on lines as one word each; the procedure has a name of one line. -/
structure Method.Undivided (m : Method) : Prop where
  name : Text.IsWord m.name
  procedure : '\n' ∉ m.procedure.toList
  parameters : ∀ p ∈ m.parameters, Naming.Undivided p.name
  columns : ∀ c ∈ m.shape.columns, Naming.Undivided c.name

/-- A context of such methods. -/
structure Context.Undivided (c : Context) : Prop where
  name : Text.IsWord c.name
  namespaceName : '\n' ∉ c.namespaceName.toList
  methods : ∀ m ∈ c.methods, m.Undivided

instance (name : String) : Decidable (Naming.Undivided name) :=
  have : Decidable (∀ c ∈ name.toList, Text.isLayoutChar c = false ∧ c ≠ '(') :=
    List.decidableBAll _ name.toList
  decidable_of_iff (name ≠ "" ∧ ∀ c ∈ name.toList, Text.isLayoutChar c = false ∧ c ≠ '(')
    ⟨fun h => ⟨h.1, h.2⟩, fun h => ⟨h.nonempty, h.chars⟩⟩

theorem Naming.Undivided.not_mem {name : String} (h : Naming.Undivided name) {c : Char}
    (hc : Text.isLayoutChar c = true ∨ c = '(') : c ∉ name.toList := by
  intro hmem
  obtain ⟨hlayout, hparen⟩ := h.chars c hmem
  rcases hc with hc | hc
  · rw [hlayout] at hc
    cases hc
  · exact hparen hc

theorem Method.Undivided.unbroken {m : Method} (h : m.Undivided) : m.Unbroken where
  name := h.name.not_mem (by decide)
  procedure := h.procedure
  parameters p hp := (h.parameters p hp).not_mem (.inl rfl)
  columns c hc := (h.columns c hc).not_mem (.inl rfl)

theorem Context.Undivided.unbroken {c : Context} (h : c.Undivided) : c.Unbroken where
  name := h.name.not_mem (by decide)
  namespaceName := h.namespaceName
  methods m hm := (h.methods m hm).unbroken

theorem Text.toNat_of_isWordChar {c : Char} (h : isWordChar c = true) :
    0x30 ≤ c.toNat ∧ c.toNat ≤ 0x7A := by
  rcases Identifier.isPart_iff.1 h with (⟨ha, hz⟩ | ⟨ha, hz⟩ | rfl) | ⟨ha, hz⟩
  · exact ⟨le_trans (by decide) ha, le_trans hz (by decide)⟩
  · exact ⟨le_trans (by decide) ha, le_trans hz (by decide)⟩
  · decide
  · exact ⟨ha, le_trans hz (by decide)⟩

theorem Text.isLayoutChar_of_isWordChar {c : Char} (h : isWordChar c = true) :
    isLayoutChar c = false := by
  by_contra hlayout
  rw [Bool.not_eq_false] at hlayout
  obtain ⟨range, hrange, hlow, hhigh⟩ := isLayoutChar_iff.1 hlayout
  -- between the blanks and the braces lie all letters, digits and the underscore
  have hbounds := toNat_of_isWordChar h
  have hmiss : ∀ range ∈ layoutRanges, range.2 < 0x30 ∨ 0x7A < range.1 := by decide
  rcases hmiss range hrange with h | h <;> omega

namespace CSharp

open Layout (units)
open Text (words unindent foundIn foundIn_append foundIn_flatMap foundIn_cons_none foundIn_cons_some
  foundIn_eq_nil)

/-! ### Reading declarations -/

/-- The name that a line declares: that of a class, where nothing follows it, or that of a method,
where its parameters do. -/
def declaredName? (line : String) : Option String :=
  match words line with
  | access :: kind :: name :: rest =>
    if access ≠ "public" then none
    else if kind = "class" then if rest = [] then some name else none
    else (Text.splitFirst '(' name.toList).map fun parts => String.ofList parts.1
  | _ => none

/-- The names of the classes and methods that the class of a context declares, read from its text. A
constructor declares none, nor does a property. -/
def declared (text : String) : List String := Text.found declaredName? text

theorem declaredName?_of_access {access : String} (hspace : ' ' ∉ access.toList)
    (haccess : access ≠ "public") (rest : String) :
    declaredName? (access ++ " " ++ rest) = none := by
  rw [declaredName?, Text.words_append hspace]
  split
  next h =>
    obtain ⟨rfl, -⟩ := List.cons.inj h
    rw [if_pos haccess]
  · rfl

theorem declaredName?_class {name : String} (h : ' ' ∉ name.toList) :
    declaredName? ("public class " ++ name) = some name := by
  have hline : "public class " ++ name = "public" ++ " " ++ ("class" ++ " " ++ name) := by
    rw [← String.toList_inj]
    simp
  rw [declaredName?, hline, Text.words_append (by decide), Text.words_append (by decide),
    Text.words_of_not_mem h]
  rfl

/-- The class of a context is no member of it: something follows its name. -/
theorem declaredName?_context {name : String} (h : ' ' ∉ name.toList) :
    declaredName? ("public class " ++ name ++ " : DataflipContext") = none := by
  have hline : "public class " ++ name ++ " : DataflipContext" =
      "public" ++ " " ++
        ("class" ++ " " ++ (name ++ " " ++ (":" ++ " " ++ "DataflipContext"))) := by
    rw [← String.toList_inj]
    simp
  rw [declaredName?, hline, Text.words_append (by decide), Text.words_append (by decide),
    Text.words_append h, Text.words_append (by decide)]
  rfl

/-- A line whose third word has no bracket behind a name declares no method. -/
theorem declaredName?_eq_none {access kind name : String} (haccess : ' ' ∉ access.toList)
    (hkind : ' ' ∉ kind.toList) (hclass : kind ≠ "class") (hname : ' ' ∉ name.toList)
    (hparen : '(' ∉ name.toList) (rest : String) :
    declaredName? (access ++ " " ++ (kind ++ " " ++ (name ++ " " ++ rest))) = none := by
  have hsplit := Text.splitFirst_eq_none_iff.2 hparen
  rw [declaredName?, Text.words_append haccess, Text.words_append hkind, Text.words_append hname]
  simp [hclass, hsplit]

theorem declaredName?_method {type name : String} (htype : ' ' ∉ type.toList)
    (hclass : type ≠ "class") (hname : ' ' ∉ name.toList) (hparen : '(' ∉ name.toList)
    (rest : String) :
    declaredName? ("public " ++ type ++ " " ++ name ++ "(" ++ rest) = some name := by
  have hline : "public " ++ type ++ " " ++ name ++ "(" ++ rest =
      "public" ++ " " ++ (type ++ " " ++ (name ++ "(" ++ rest)) := by
    rw [← String.toList_inj]
    simp
  have hopen : ' ' ∉ (name ++ "(").toList := by simp [hname]
  obtain ⟨first, others, hwords⟩ := Text.exists_words_append hopen rest
  have hsplit : Text.splitFirst '(' (name ++ "(" ++ first).toList =
      some (name.toList, first.toList) :=
    Text.splitFirst_eq_some_iff.2 ⟨by simp, hparen⟩
  rw [declaredName?, hline, Text.words_append (by decide), Text.words_append htype, hwords]
  simp only [ne_eq, not_true_eq_false, if_false, hclass, hsplit, Option.map_some,
    String.ofList_toList]

-- a constructor has no type in front of its name
example : declaredName? "public int Find(int id)" = some "Find" ∧
    declaredName? "public Shop(int id) : base(id)" = none := by decide +kernel

theorem declaredName?_of_leads {c : Char} {line : String} (h : Leads c line) (hspace : c ≠ ' ')
    (hc : c ≠ 'p') : declaredName? line = none := by
  obtain ⟨r, hline⟩ : ∃ r, line.toList = c :: r := List.head?_eq_some_iff.1 h
  obtain ⟨p, ps, hpieces⟩ := List.exists_cons_of_ne_nil (Text.pieces_ne_nil ' ' r)
  have hwords : words line = String.ofList (c :: p) :: ps.map String.ofList := by
    simp [words, hline, Text.pieces, hspace, hpieces]
  have haccess : String.ofList (c :: p) ≠ "public" := fun hpublic => by
    have hchars := congrArg String.toList hpublic
    simp only [String.toList_ofList, String.reduceToList, List.cons.injEq] at hchars
    exact hc hchars.1
  rw [declaredName?, hwords]
  split
  next hcons =>
    rw [if_pos ((List.cons.inj hcons).1 ▸ haccess)]
  · rfl

/-! ### Units -/

/-- A unit that declares nothing. -/
def Silent (unit : String) : Prop := declaredName? (unindent unit) = none

theorem Silent.of_leads {c : Char} {unit : String} (h : Leads c unit)
    (hblank : Text.isBlank c = false) (hc : c ≠ 'p') : Silent unit := by
  have hspace : c ≠ ' ' := fun hspace => by
    rw [hspace] at hblank
    cases hblank
  rw [Silent, Text.unindent_of_leads h hblank]
  exact declaredName?_of_leads h hspace hc

theorem silent_empty : Silent "" := rfl

/-- Lines that are the same in every context, by the characters that they begin with. -/
theorem declared_fixed {us : List String}
    (h : ∀ unit ∈ us, unit = "" ∨ ∃ c ∈ ['u', '#', '\x7b', '\x7d', ')'], Leads c unit) :
    foundIn declaredName? us = [] := by
  refine foundIn_eq_nil fun unit hunit => ?_
  rcases h unit hunit with rfl | ⟨c, hc, hleads⟩
  · exact silent_empty
  · have hfirst : Text.isBlank c = false ∧ c ≠ 'p' := by
      simp only [List.mem_cons, List.not_mem_nil, or_false] at hc
      rcases hc with rfl | rfl | rfl | rfl | rfl <;> decide
    exact Silent.of_leads hleads hfirst.1 hfirst.2

theorem silent_propertyLine (type : HostType) {name : String} (hspace : ' ' ∉ name.toList)
    (hparen : '(' ∉ name.toList) : Silent (propertyLine type name) := by
  have hline : propertyLine type name = "public" ++ " " ++ (optionalTypeName type ++ " " ++
      (name ++ " " ++ "\x7b get; set; \x7d")) := by
    rw [← String.toList_inj]
    simp [propertyLine]
  have hclass : optionalTypeName type ≠ "class" := by cases type <;> decide
  rw [Silent, Text.unindent_of_leads (leads_propertyLine type name) rfl, hline]
  exact declaredName?_eq_none (by decide) (space_not_mem_optionalTypeName type) hclass hspace
    hparen _

theorem silent_mappingLine {c : ResultColumn} (h : Naming.Undivided c.name) (separator : String) :
    Silent (mappingLine c separator) := by
  have hline : mappingLine c separator = c.name ++ " " ++ ("=" ++ " " ++
      ("reader[\"" ++ c.name ++ "\"]" ++ " " ++
        ("as " ++ optionalTypeName c.type ++ separator))) := by
    rw [← String.toList_inj]
    simp [mappingLine]
  obtain ⟨first, others, hname⟩ := List.exists_cons_of_ne_nil (l := c.name.toList)
    (by simpa using h.nonempty)
  have hleads : Leads first (mappingLine c separator) := by simp [Leads, mappingLine, hname]
  have hblank : Text.isBlank first = false := by
    have hlayout := (h.chars first (by simp [hname])).1
    simp only [Text.isLayoutChar, Bool.or_eq_false_iff] at hlayout
    exact hlayout.1.1
  have hspace : ' ' ∉ c.name.toList := h.not_mem (.inl rfl)
  have hparen : '(' ∉ c.name.toList := h.not_mem (.inr rfl)
  rw [Silent, Text.unindent_of_leads hleads hblank, hline]
  exact declaredName?_eq_none hspace (by decide) (by decide) (by simp [hspace])
    (by simp [hparen]) _

/-! ### Methods -/

variable {m : Method}

theorem declared_parameterClass (hm : m.Undivided) :
    foundIn declaredName? (units (parameterClass m)) = [m.name ++ "Parameters"] := by
  have hname : ' ' ∉ m.name.toList := hm.name.not_mem (by decide)
  have hspace : ' ' ∉ (m.name ++ "Parameters").toList := by simp [hname]
  have hclass : declaredName? (unindent ("public class " ++ m.name ++ "Parameters")) =
      some (m.name ++ "Parameters") := by
    rw [Text.unindent_of_leads (c := 'p') (by simp [Leads]) rfl, String.append_assoc]
    exact declaredName?_class hspace
  rw [units_parameterClass, foundIn_cons_some hclass, foundIn_eq_nil]
  simp only [List.forall_mem_cons, List.forall_mem_append, List.forall_mem_map]
  refine ⟨rfl, fun p hp => ?_, rfl, by simp⟩
  exact silent_propertyLine _ (not_mem_fieldName ((hm.parameters p hp).not_mem (.inl rfl)))
    (not_mem_fieldName ((hm.parameters p hp).not_mem (.inr rfl)))

theorem declared_summaryLines (doc : Option String) :
    foundIn declaredName? (summaryLines doc) = [] :=
  foundIn_eq_nil fun _ hline => Silent.of_leads (leads_summaryLines hline) rfl (by decide)

theorem declared_bindings (m : Method) : foundIn declaredName? (units (bindings m)) = [] := by
  have hnone : Silent ("parameters : _ => \x7b\x7d" ++ bindingEnd m) := by
    have hline : "parameters : _ => \x7b\x7d" ++ bindingEnd m =
        "parameters" ++ " " ++ (": _ => \x7b\x7d" ++ bindingEnd m) := by
      rw [← String.toList_inj]
      simp
    rw [Silent, Text.unindent_of_leads (c := 'p') (by simp [Leads]) rfl, hline]
    exact declaredName?_of_access (by decide) (by decide) _
  have hend : Silent ("\x7d" ++ bindingEnd m) :=
    .of_leads (c := '\x7d') (by simp [Leads]) rfl (by decide)
  refine foundIn_eq_nil ?_
  rw [units_bindings]
  split
  · exact List.forall_mem_singleton.2 hnone
  · simp only [List.forall_mem_cons, List.forall_mem_append, List.forall_mem_map]
    exact ⟨rfl, rfl, rfl, fun p _ => Silent.of_leads (leads_bindingLine p) rfl (by decide), hend,
      by simp⟩

theorem declared_mappingUnits (hm : m.Undivided) : foundIn declaredName? (mappingUnits m) = [] := by
  have hcolumns := hm.columns
  refine foundIn_eq_nil ?_
  unfold mappingUnits
  cases hshape : m.shape with
  | rowSequence columns =>
    rw [hshape] at hcolumns
    simp only [List.forall_mem_cons, List.forall_mem_append]
    refine ⟨Silent.of_leads (c := 'm') (by simp [Leads]) rfl (by decide), rfl,
      fun line hline => ?_, rfl, by simp⟩
    obtain ⟨c, hc, separator, -, rfl⟩ := exists_of_mem_mappingLines hline
    exact silent_mappingLine (hcolumns c hc) separator
  | scalar => simp
  | affectedCount => simp

theorem typeName_one_word (t : HostType) : ' ' ∉ (typeName t).toList ∧ typeName t ≠ "class" := by
  cases t <;> decide

theorem returnType_one_word (hname : ' ' ∉ m.name.toList) :
    ' ' ∉ (returnType m).toList ∧ returnType m ≠ "class" := by
  unfold returnType
  cases m.shape with
  | rowSequence =>
    refine ⟨by simp [hname], fun h => ?_⟩
    have hchars := congrArg String.toList h
    simp at hchars
  | scalar type => exact typeName_one_word type
  | affectedCount => exact (by decide : ' ' ∉ "int".toList ∧ "int" ≠ "class")

theorem declaredName?_signature (hm : m.Undivided) :
    declaredName? (unindent (signature m)) = some m.name := by
  have hspace : ' ' ∉ m.name.toList := hm.name.not_mem (by decide)
  obtain ⟨htype, hclass⟩ := returnType_one_word hspace
  rw [Text.unindent_of_leads (leads_signature m) rfl, signature, String.append_assoc]
  exact declaredName?_method htype hclass hspace (hm.name.not_mem (by decide)) _

/-- A method declares the class of its parameters and itself. -/
theorem declared_method (hm : m.Undivided) :
    foundIn declaredName? (units (method m)) = [m.name ++ "Parameters", m.name] := by
  have hregion : Silent ("#region " ++ m.procedure) :=
    .of_leads (c := '#') (by simp [Leads]) rfl (by decide)
  have hcall : Silent (call m) := .of_leads (leads_call m) rfl (by decide)
  have hquery : Silent ("query : \"" ++ m.procedure ++ "\",") :=
    .of_leads (c := 'q') (by simp [Leads]) rfl (by decide)
  have hopen : Silent "\x7b" := rfl
  have hends : foundIn declaredName? [");", "\x7d", "#endregion"] = [] :=
    declared_fixed (by simp [Leads])
  rw [units_method, foundIn_cons_none hregion, foundIn_append,
    declared_parameterClass hm, foundIn_append, declared_summaryLines, List.nil_append,
    foundIn_cons_some (declaredName?_signature hm), foundIn_cons_none hopen,
    foundIn_cons_none hcall, foundIn_cons_none hquery, foundIn_append,
    declared_bindings, foundIn_append, declared_mappingUnits hm, hends]
  rfl

theorem declared_resultClass (hm : m.Undivided) :
    foundIn declaredName? (units (resultClass m)) = m.resultName?.toList := by
  have hname : ' ' ∉ m.name.toList := hm.name.not_mem (by decide)
  have hspace : ' ' ∉ (m.name ++ "Result").toList := by simp [hname]
  have hclass : declaredName? (unindent ("public class " ++ m.name ++ "Result")) =
      some (m.name ++ "Result") := by
    rw [Text.unindent_of_leads (c := 'p') (by simp [Leads]) rfl, String.append_assoc]
    exact declaredName?_class hspace
  have hcolumns := hm.columns
  rw [units_resultClass, Method.resultName?]
  cases hshape : m.shape with
  | rowSequence columns =>
    rw [hshape] at hcolumns
    dsimp only
    rw [foundIn_cons_some hclass, foundIn_eq_nil, Option.toList_some]
    simp only [List.forall_mem_cons, List.forall_mem_append, List.forall_mem_map]
    refine ⟨rfl, fun c hc => ?_, rfl, rfl, by simp⟩
    exact silent_propertyLine _ ((hcolumns c hc).not_mem (.inl rfl))
      ((hcolumns c hc).not_mem (.inr rfl))
  | scalar => rfl
  | affectedCount => rfl

/-! ### Whole contexts -/

variable {c : Context}

/-- What a context class declares before its members: two constructors, which have no names. -/
theorem silent_opening (hname : ' ' ∉ c.name.toList) :
    Silent ("public class " ++ c.name ++ " : DataflipContext") ∧
      Silent ("public " ++ c.name ++ "(DataflipSettings settings) : base(settings)") ∧
      Silent ("public " ++ c.name ++ "() : base(\"" ++ c.name ++ "\")") := by
  have hclass : ∀ rest, c.name ++ "(" ++ rest ≠ "class" := fun rest h => by
    have hmem : '(' ∈ "class".toList := h ▸ by simp
    exact absurd hmem (by decide)
  refine ⟨?_, ?_, ?_⟩
  · rw [Silent, Text.unindent_of_leads (c := 'p') (by simp [Leads]) rfl]
    exact declaredName?_context hname
  · have hline : "public " ++ c.name ++ "(DataflipSettings settings) : base(settings)" =
        "public" ++ " " ++ (c.name ++ "(" ++ "DataflipSettings" ++ " " ++
          ("settings)" ++ " " ++ ": base(settings)")) := by
      rw [← String.toList_inj]
      simp
    rw [Silent, Text.unindent_of_leads (c := 'p') (by simp [Leads]) rfl, hline]
    exact declaredName?_eq_none (by decide) (by simp [hname]) (hclass _) (by decide) (by decide) _
  · have hline : "public " ++ c.name ++ "() : base(\"" ++ c.name ++ "\")" =
        "public" ++ " " ++ (c.name ++ "(" ++ ")" ++ " " ++
          (":" ++ " " ++ ("base(\"" ++ c.name ++ "\")"))) := by
      rw [← String.toList_inj]
      simp
    rw [Silent, Text.unindent_of_leads (c := 'p') (by simp [Leads]) rfl, hline]
    exact declaredName?_eq_none (by decide) (by simp [hname]) (hclass _) (by decide) (by decide) _

/-- The classes of rows are declared first, and then with each method the class of its
parameters. -/
theorem declared_steps (hc : c.Undivided) :
    foundIn declaredName? (units (steps c)) = (c.methods.flatMap fun m => m.resultName?.toList) ++
      c.methods.flatMap fun m => [m.name ++ "Parameters", m.name] := by
  obtain ⟨hclass, hsettings, hdefault⟩ := silent_opening (hc.name.not_mem (by decide))
  have hopening : foundIn declaredName? ["using System;", "using System.Collections.Generic;",
      "using System.Linq;", "using Dataflip;", ""] = [] := declared_fixed (by simp [Leads])
  have hnamespace : Silent ("namespace " ++ c.namespaceName) :=
    .of_leads (c := 'n') (by simp [Leads]) rfl (by decide)
  have hresults : (c.methods.flatMap fun m => foundIn declaredName? (units (resultClass m))) =
      c.methods.flatMap fun m => m.resultName?.toList :=
    List.flatMap_congr fun m hm => declared_resultClass (hc.methods m hm)
  have hmethods : (c.methods.flatMap fun m => foundIn declaredName? (units (method m) ++ [""])) =
      c.methods.flatMap fun m => [m.name ++ "Parameters", m.name] := by
    refine List.flatMap_congr fun m hm => ?_
    rw [foundIn_append, declared_method (hc.methods m hm)]
    rfl
  have hunits : units (steps c) = ["using System;", "using System.Collections.Generic;",
      "using System.Linq;", "using Dataflip;", ""] ++ (("namespace " ++ c.namespaceName) ::
        "\x7b" :: ("public class " ++ c.name ++ " : DataflipContext") :: "\x7b" ::
        ("public " ++ c.name ++ "(DataflipSettings settings) : base(settings)") :: "\x7b\x7d" ::
        "" :: ("public " ++ c.name ++ "() : base(\"" ++ c.name ++ "\")") :: (["\x7b\x7d", "",
        "#region Result Classes"] ++ ((c.methods.flatMap fun m => units (resultClass m)) ++
          (["#endregion", ""] ++ ((c.methods.flatMap fun m => units (method m) ++ [""]) ++
            ["\x7d", "\x7d"]))))) := by
    rw [units_steps, List.flatMap_map]
    rfl
  have hopen : Silent "\x7b" := rfl
  have hempty : Silent "\x7b\x7d" := rfl
  have hregion : foundIn declaredName? ["\x7b\x7d", "", "#region Result Classes"] = [] :=
    declared_fixed (by simp [Leads])
  have hbetween : foundIn declaredName? ["#endregion", ""] = [] := declared_fixed (by simp [Leads])
  have hclosing : foundIn declaredName? ["\x7d", "\x7d"] = [] := declared_fixed (by simp [Leads])
  rw [hunits, foundIn_append, hopening, List.nil_append, foundIn_cons_none hnamespace,
    foundIn_cons_none hopen, foundIn_cons_none hclass,
    foundIn_cons_none hopen, foundIn_cons_none hsettings,
    foundIn_cons_none hempty, foundIn_cons_none silent_empty,
    foundIn_cons_none hdefault, foundIn_append, hregion, List.nil_append,
    foundIn_append, foundIn_flatMap, hresults, foundIn_append, hbetween, List.nil_append,
    foundIn_append, foundIn_flatMap, hmethods, hclosing, List.append_nil]

/-- **What a context declares.** The text of a context declares the classes of its rows, and then
for each method the class of its parameters and the method. -/
theorem declared_eq (hc : c.Undivided) {text : String} (hrender : render c = .ok text) :
    declared text = (c.methods.flatMap fun m => m.resultName?.toList) ++
      c.methods.flatMap fun m => [m.name ++ "Parameters", m.name] := by
  rw [declared, Layout.found_of_render hrender (newline_not_mem_steps hc.unbroken)]
  exact declared_steps hc

end CSharp

/-! ### Clashes -/

/-- No method is named like its context, and no class of a method is named like the context or like
a method. -/
structure Context.Unclashing (c : Context) : Prop where
  methods : ∀ m ∈ c.methods, m.name ≠ c.name
  classes : ∀ m ∈ c.methods, ∀ name ∈ m.classNames,
    name ≠ c.name ∧ ∀ n ∈ c.methods, n.name ≠ name

instance (c : Context) : Decidable c.Unclashing :=
  decidable_of_iff ((∀ m ∈ c.methods, m.name ≠ c.name) ∧ ∀ m ∈ c.methods, ∀ name ∈ m.classNames,
      name ≠ c.name ∧ ∀ n ∈ c.methods, n.name ≠ name)
    ⟨fun h => ⟨h.1, h.2⟩, fun h => ⟨h.methods, h.classes⟩⟩

namespace Method

theorem mem_classNames_iff {m : Method} {name : String} :
    name ∈ m.classNames ↔
      m.resultName? = some name ∨ name = m.name ++ "Parameters" := by
  simp [classNames]

theorem resultName?_eq_some {m : Method} {name : String} (h : m.resultName? = some name) :
    name = m.name ++ "Result" := by
  unfold resultName? at h
  split at h
  · exact (Option.some.inj h).symm
  · cases h

/-- The two kinds of classes end in different letters. -/
theorem append_result_ne_append_parameters (s t : String) : s ++ "Result" ≠ t ++ "Parameters" := by
  intro h
  have hlast := congrArg (fun name => name.toList.getLast?) h
  simp at hlast

theorem nodup_classNames (m : Method) : m.classNames.Nodup := by
  unfold classNames
  cases hresult : m.resultName? with
  | none => simp
  | some name =>
    rw [resultName?_eq_some hresult]
    simp

/-- A class tells the name of its method. -/
theorem name_eq_of_mem_classNames {m n : Method} {name : String} (hm : name ∈ m.classNames)
    (hn : name ∈ n.classNames) : m.name = n.name := by
  rcases mem_classNames_iff.1 hm with hm | hm <;> rcases mem_classNames_iff.1 hn with hn | hn
  · have hsame := (resultName?_eq_some hm).symm.trans (resultName?_eq_some hn)
    exact (String.append_left_inj _).1 hsame
  · have hsame := (resultName?_eq_some hm).symm.trans hn
    exact absurd hsame (append_result_ne_append_parameters m.name n.name)
  · have hsame := (resultName?_eq_some hn).symm.trans hm
    exact absurd hsame (append_result_ne_append_parameters n.name m.name)
  · exact (String.append_left_inj _).1 (hm.symm.trans hn)

end Method

/-- The classes of methods of different names have different names. -/
theorem nodup_flatMap_classNames {ms : List Method} (h : (ms.map Method.name).Nodup) :
    (ms.flatMap Method.classNames).Nodup := by
  refine List.nodup_flatMap.2 ⟨fun m _ => m.nodup_classNames, ?_⟩
  refine (List.pairwise_map.1 h).imp fun {m n} hne => ?_
  intro name hm hn
  exact hne (Method.name_eq_of_mem_classNames hm hn)

namespace CSharp

variable {c : Context}

/-- What is declared are the classes of the methods and the methods. -/
theorem declared_perm (hc : c.Undivided) {text : String} (hrender : render c = .ok text) :
    (declared text).Perm (c.methods.flatMap Method.classNames ++ c.methods.map Method.name) := by
  rw [declared_eq hc hrender]
  have hclasses : ((c.methods.flatMap fun m => m.resultName?.toList) ++
      c.methods.flatMap fun m => [m.name ++ "Parameters"]).Perm
        (c.methods.flatMap Method.classNames) :=
    List.flatMap_append_perm _ _ _
  have hmembers : (c.methods.flatMap fun m => [m.name ++ "Parameters", m.name]).Perm
      ((c.methods.flatMap fun m => [m.name ++ "Parameters"]) ++ c.methods.map Method.name) := by
    rw [List.map_eq_flatMap]
    exact (List.flatMap_append_perm _ (fun m : Method => [m.name ++ "Parameters"])
      fun m => [m.name]).symm
  refine (hmembers.append_left _).trans ?_
  rw [← List.append_assoc]
  exact hclasses.append_right _

/-- Where methods have different names, the names declared are different exactly if they do not
clash with those of the generated classes and of the context. -/
theorem nodup_declared_iff (hc : c.Undivided) (hnames : (c.methods.map Method.name).Nodup)
    {text : String} (hrender : render c = .ok text) :
    (c.name :: declared text).Nodup ↔ c.Unclashing := by
  have hperm := declared_perm hc hrender
  rw [(hperm.cons c.name).nodup_iff, List.nodup_cons, List.nodup_append', List.mem_append, not_or]
  constructor
  · rintro ⟨⟨hclasses, hmethods⟩, -, -, hdisjoint⟩
    refine ⟨fun m hm hsame => hmethods (List.mem_map.2 ⟨m, hm, hsame⟩), fun m hm name hname => ?_⟩
    have hmem : name ∈ c.methods.flatMap Method.classNames := List.mem_flatMap.2 ⟨m, hm, hname⟩
    refine ⟨fun hsame => hclasses (hsame ▸ hmem), fun n hn hsame => ?_⟩
    exact hdisjoint hmem (List.mem_map.2 ⟨n, hn, hsame⟩)
  · rintro ⟨hmethods, hclasses⟩
    refine ⟨⟨fun hmem => ?_, fun hmem => ?_⟩, nodup_flatMap_classNames hnames, hnames, ?_⟩
    · obtain ⟨m, hm, hname⟩ := List.mem_flatMap.1 hmem
      exact (hclasses m hm _ hname).1 rfl
    · obtain ⟨m, hm, hname⟩ := List.mem_map.1 hmem
      exact hmethods m hm hname
    · intro name hclass hmethod
      obtain ⟨m, hm, hname⟩ := List.mem_flatMap.1 hclass
      obtain ⟨n, hn, hsame⟩ := List.mem_map.1 hmethod
      exact (hclasses m hm name hname).2 n hn hsame

end CSharp

/-! ### Contexts of valid manifests -/

/-- A remote system whose parameters and columns have names of one word, as identifiers are, with
marks or without. -/
structure Remote.Undivided (r : Remote) : Prop where
  parameters : ∀ p ∈ r.procedures, ∀ row ∈ p.parameters, Naming.Undivided row.name
  columns : ∀ p ∈ r.procedures, ∀ set ∈ p.resultSets, ∀ column ∈ set, Naming.Undivided column.name

instance (r : Remote) : Decidable r.Undivided :=
  decidable_of_iff ((∀ p ∈ r.procedures, ∀ row ∈ p.parameters, Naming.Undivided row.name) ∧
      ∀ p ∈ r.procedures, ∀ set ∈ p.resultSets, ∀ column ∈ set, Naming.Undivided column.name)
    ⟨fun h => ⟨h.1, h.2⟩, fun h => ⟨h.parameters, h.columns⟩⟩

namespace Remote

variable {r : Remote} {name : String}

theorem mem_of_procedure? {p : RemoteProcedure} (h : r.procedure? name = some p) :
    p ∈ r.procedures :=
  List.mem_reverse.1 (List.mem_of_find?_eq_some h)

theorem exists_of_introspect {rows : List WireColumn} (h : r.introspect name = .ok rows) :
    ∃ p ∈ r.procedures, rows = p.parameters := by
  unfold introspect at h
  split at h
  · cases h
  next p hp =>
    split at h
    · cases h
    · exact ⟨p, mem_of_procedure? hp, (Except.ok.inj h).symm⟩

theorem exists_of_execute {sets : List (List WireColumn)} (h : r.execute name = .ok sets) :
    ∃ p ∈ r.procedures, sets = p.resultSets := by
  unfold execute at h
  split at h
  · cases h
  next p hp =>
    split at h
    · cases h
    · cases h
    · exact ⟨p, mem_of_procedure? hp, (Except.ok.inj h).symm⟩

end Remote

/-- The columns of rows that were observed have the names that the remote system reports. -/
theorem ObservedShape.exists_column {dialect : Dialect} {sets : List (List WireColumn)}
    {shape : ReturnShape} (h : ObservedShape dialect sets shape) {c : ResultColumn}
    (hc : c ∈ shape.columns) : ∃ set ∈ sets, ∃ column ∈ set, c.name = column.name := by
  cases h with
  | noSet => cases hc
  | noColumn => cases hc
  | oneColumn => cases hc
  | manyColumns others _ typed =>
    obtain ⟨column, hcolumn, hname, -⟩ := exists_mem_of_forall₂ typed hc
    exact ⟨_, List.mem_cons_self, column, hcolumn, hname⟩

/-- A method says what an undivided remote system reports. -/
theorem MethodOf.undivided {r : Remote} {d : Declaration} {m : Method} (h : MethodOf r d m)
    (hr : r.Undivided) (hname : Text.IsWord d.methodName) (hbreak : '\n' ∉ d.name.toList) :
    m.Undivided where
  name := h.name ▸ hname
  procedure := h.procedure ▸ hbreak
  parameters p hp := by
    obtain ⟨rows, hrows, htyped⟩ := h.parameters
    obtain ⟨q, hq, rfl⟩ := Remote.exists_of_introspect hrows
    obtain ⟨row, hrow, hsame, -⟩ := exists_mem_of_forall₂ htyped hp
    exact hsame ▸ hr.parameters q hq row hrow
  columns c hc := by
    by_cases htrial : d.trial = []
    · cases hshape : m.shape with
      | rowSequence columns => exact absurd hshape ((h.declared htrial).not_rowSequence columns)
      | scalar => simp [hshape, ReturnShape.columns] at hc
      | affectedCount => simp [hshape, ReturnShape.columns] at hc
    · obtain ⟨sets, hsets, hobserved⟩ := h.tried htrial
      obtain ⟨q, hq, rfl⟩ := Remote.exists_of_execute hsets
      obtain ⟨set, hset, column, hcolumn, hsame⟩ := hobserved.exists_column hc
      exact hsame ▸ hr.columns q hq set hset column hcolumn

theorem Identifier.Usable.isWord {name : String} (h : Identifier.Usable name) :
    Text.IsWord name := by
  obtain ⟨⟨c, r, hname, hc, hr⟩, -⟩ := h
  refine ⟨fun hempty => by simp [hempty] at hname, fun d hd => ?_⟩
  rw [hname] at hd
  rcases List.mem_cons.1 hd with rfl | hd
  · exact Identifier.isPart_iff.2 (.inl hc)
  · exact Identifier.isPart_iff.2 (hr d hd)

/-- A namespace of usable segments is written on one line. -/
theorem newline_not_mem_namespaceName {config : ContextConfig} (h : config.WellFormed) :
    '\n' ∉ config.namespaceName.toList := by
  intro hmem
  have hdot : '\n' ≠ '.' := by decide
  obtain ⟨piece, hpiece, hnewline⟩ := Text.exists_mem_pieces hmem hdot
  have hword := (h.usable_of_mem_pieces hpiece).isWord.chars '\n' (by simpa using hnewline)
  exact absurd hword (by decide)

/-- A context that is built from a valid group, for an undivided remote system, has names of one
word. -/
theorem Context.undivided_of_built {r : Remote} (hr : r.Undivided) {config : ContextConfig}
    (hconfig : config.WellFormed) (hbreaks : ∀ d ∈ config.procedures, '\n' ∉ d.name.toList)
    {context : Context} (hbuild : (Build.context r config).result = .ok context) :
    context.Undivided := by
  obtain ⟨hnamespace, hname, hmethods⟩ := Build.context_describes hbuild
  refine ⟨hname ▸ hconfig.name.isWord, hnamespace ▸ newline_not_mem_namespaceName hconfig,
    fun m hm => ?_⟩
  obtain ⟨d, hd, hmethod⟩ := exists_mem_of_forall₂ hmethods hm
  exact hmethod.undivided hr (hconfig.methodNames d hd).isWord (hbreaks d hd)

/-- The methods of a context have the names that the declarations state. -/
theorem map_name_of_forall₂ {r : Remote} {ds : List Declaration} {ms : List Method}
    (h : List.Forall₂ (MethodOf r) ds ms) : ms.map Method.name = ds.map Declaration.methodName := by
  induction h with
  | nil => rfl
  | cons hfirst _ ih => rw [List.map_cons, List.map_cons, ih, hfirst.name, Declaration.methodName]

namespace CSharp

theorem sustains_of_undivided {c : Context} (hc : c.Undivided) : layout.Sustains 0 (steps c) := by
  refine Layout.exists_render_iff.1 ((exists_render_iff c).2 ?_)
  refine room_of_forall_eq_zero (fun pulls hpulls => ?_) (by decide) (by decide)
  obtain ⟨m, hm, rfl⟩ := List.mem_map.1 hpulls
  intro x hx
  obtain ⟨column, hcolumn, rfl⟩ := List.mem_map.1 hx
  refine pull_eq_zero fun first hfirst => ?_
  have hlayout := (((hc.methods m hm).columns column hcolumn).chars first
    (List.mem_of_mem_head? hfirst)).1
  constructor <;> rintro rfl <;> exact absurd hlayout (by decide)

/-- **Which names clash.** The group of a valid manifest is built into a context that has a C# text.
The classes and methods that this text declares have different names, all of them different from the
name of the context, exactly if no method is named like the context, and no class that is generated
for a method is named like the context or like a method. Nothing in a valid manifest rules that
out. -/
theorem declared_nodup_iff {source file : String} {m : Manifest}
    (hread : Manifest.read source file = .ok m) {config : ContextConfig}
    (hconfig : config ∈ m.contexts) (hbreaks : ∀ d ∈ config.procedures, '\n' ∉ d.name.toList)
    {r : Remote} (hr : r.Undivided) {context : Context}
    (hbuild : (Build.context r config).result = .ok context) :
    ∃ text, render context = .ok text ∧
      ((context.name :: declared text).Nodup ↔ context.Unclashing) := by
  have hvalid := (Manifest.wellFormed_of_read hread).contexts config hconfig
  have hundivided := Context.undivided_of_built hr hvalid hbreaks hbuild
  obtain ⟨text, hrender⟩ := Layout.exists_render_iff.2 (sustains_of_undivided hundivided)
  obtain ⟨-, -, hmethods⟩ := Build.context_describes hbuild
  have hnames : (context.methods.map Method.name).Nodup :=
    map_name_of_forall₂ hmethods ▸ hvalid.distinct
  exact ⟨text, hrender, nodup_declared_iff hundivided hnames hrender⟩

/-- The names in the text of the shop are different. -/
theorem declared_nodup_iff_shop :
    let server := shopServer [⟨"Id", "integer"⟩, ⟨"Name", "text"⟩]
    Manifest.read shopText "shop.toml" = .ok ⟨[shop]⟩ ∧ server.Undivided ∧
    ∃ context, (Build.context server shop).result = .ok context ∧ context.Unclashing ∧
      ∃ text, render context = .ok text ∧ (context.name :: declared text).Nodup := by
  intro server
  have hserver : server.Undivided := by decide
  obtain ⟨context, hbuild, hunclashing⟩ :
      ∃ context, (Build.context server shop).result = .ok context ∧ context.Unclashing :=
    ⟨_, rfl, by decide⟩
  obtain ⟨text, hrender, hiff⟩ := declared_nodup_iff (read_shopText "shop.toml")
    (List.mem_singleton.2 rfl) (by decide) hserver hbuild
  exact ⟨read_shopText _, hserver, context, hbuild, hunclashing, text, hrender,
    hiff.2 hunclashing⟩

/-! ### A clash -/

/-- The text of a manifest with two procedures, one of them named like the class of the other's
parameters. -/
def finderText : String :=
  "[[contexts]]\nname='Shop'\nnamespace='Acme'\ndatabase.url='db'\noutput.host='a.cs'\n" ++
    "[[contexts.procedures]]\nname='Find'\n[[contexts.procedures]]\nname='FindParameters'\n"

/-- The group of that manifest. -/
def finder : ContextConfig where
  name := "Shop"
  namespaceName := "Acme"
  database := ⟨some "db", none⟩
  output := ⟨"a.cs", none, false, none⟩
  procedures := [⟨"Find", none, none, none, []⟩, ⟨"FindParameters", none, none, none, []⟩]

/-- A server that knows both procedures. -/
def finderServer : Remote :=
  ⟨.postgres, none, [⟨"Find", [⟨"@Id", "integer"⟩], [], none, none, none⟩,
    ⟨"FindParameters", [⟨"@Id", "integer"⟩], [], none, none, none⟩]⟩

/-- What they are resolved to. -/
def finderContext : Context where
  namespaceName := "Acme"
  name := "Shop"
  methods := [⟨"Find", "Find", [⟨"@Id", .int32⟩], .affectedCount, none⟩,
    ⟨"FindParameters", "FindParameters", [⟨"@Id", .int32⟩], .affectedCount, none⟩]

set_option maxRecDepth 4000 in
/-- A valid manifest whose context class declares one name twice: for the class of the parameters of
`Find`, and for the method `FindParameters`. -/
theorem declared_twice_finder :
    Manifest.read finderText "finder.toml" = .ok ⟨[finder]⟩ ∧ finderServer.Undivided ∧
    (Build.context finderServer finder).result = .ok finderContext ∧
    ∃ text, render finderContext = .ok text ∧ ¬ (finderContext.name :: declared text).Nodup := by
  have hread : Manifest.read finderText "finder.toml" = .ok ⟨[finder]⟩ :=
    Manifest.read_of_decoded (by decide +kernel) rfl _
  have hserver : finderServer.Undivided := by decide
  have hbuild : (Build.context finderServer finder).result = .ok finderContext := rfl
  have hvalid := (Manifest.wellFormed_of_read hread).contexts finder (List.mem_singleton.2 rfl)
  have hundivided := Context.undivided_of_built hserver hvalid (by decide) hbuild
  obtain ⟨text, hrender⟩ := Layout.exists_render_iff.2 (sustains_of_undivided hundivided)
  refine ⟨hread, hserver, hbuild, text, hrender, fun hnodup => ?_⟩
  have hunclashing := (nodup_declared_iff hundivided (by decide) hrender).1 hnodup
  exact absurd hunclashing (by decide)

end CSharp

end Sprocket
