import Sprocket.Proofs.Rendering

/-!
# The lines of C#

A context is written as C# from units, and every unit is one line where the names hold no line
breaks.

* `CSharp.propertyLine`, `CSharp.summaryLines`, `CSharp.mappingUnits`: lines of several kinds;
* `CSharp.units_method`, `CSharp.units_resultClass`, `CSharp.units_steps`: the units of a method, of
  the class of its rows, and of a context;
* `Method.Unbroken`, `Context.Unbroken`: names without line breaks;
* `CSharp.newline_not_mem_steps`: the units of such a context are lines.
-/

namespace Sprocket

/-- A method whose names hold no line breaks. -/
structure Method.Unbroken (m : Method) : Prop where
  name : '\n' ∉ m.name.toList
  procedure : '\n' ∉ m.procedure.toList
  parameters : ∀ p ∈ m.parameters, '\n' ∉ p.name.toList
  columns : ∀ c ∈ m.shape.columns, '\n' ∉ c.name.toList

/-- A context whose names hold no line breaks. -/
structure Context.Unbroken (c : Context) : Prop where
  name : '\n' ∉ c.name.toList
  namespaceName : '\n' ∉ c.namespaceName.toList
  methods : ∀ m ∈ c.methods, m.Unbroken

namespace CSharp

open Layout (units)

/-! ### Units -/

/-- The text of a property. -/
def propertyLine (type : HostType) (name : String) : String :=
  "public " ++ optionalTypeName type ++ " " ++ name ++ " \x7b get; set; \x7d"

/-- The lines of a doc comment, with the marks around them. -/
def summaryLines : Option String → List String
  | none => []
  | some doc => "///<summary>" :: ((docLines doc).map ("///" ++ ·) ++ ["///</summary>"])

theorem units_summary (m : Method) : units (summary m) = summaryLines m.doc := by
  unfold summary
  cases m.doc <;> simp [summaryLines]

theorem units_parameterClass (m : Method) :
    units (parameterClass m) = ("public class " ++ m.name ++ "Parameters") :: "\x7b" ::
      ((m.parameters.map fun p => propertyLine p.type p.fieldName) ++ ["\x7d"]) := by
  simp [parameterClass, property, propertyLine]

theorem units_bindings (m : Method) :
    units (bindings m) =
      if m.parameters.isEmpty then ["parameters : _ => \x7b\x7d" ++ bindingEnd m]
      else "parameters : _ =>" :: "\x7b" :: "if (parameters == null) return;" ::
        (m.parameters.map bindingLine ++ ["\x7d" ++ bindingEnd m]) := by
  unfold bindings
  split <;> simp

/-- The lines that read a row. -/
def mappingUnits (m : Method) : List String :=
  match m.shape with
  | .rowSequence columns =>
    ("mapping : reader => new " ++ m.name ++ "Result()") :: "\x7b" ::
      (mappingLines columns ++ ["\x7d"])
  | _ => []

theorem units_mapping (m : Method) : units (mapping m) = mappingUnits m := by
  have hlines : ∀ lines : List String, units (lines.map .emit) = lines := fun lines => by
    simpa using Layout.units_map_emit lines id
  unfold mapping mappingUnits
  cases m.shape <;> simp [hlines]

theorem units_method (m : Method) :
    units (method m) = ("#region " ++ m.procedure) :: (units (parameterClass m) ++
      (summaryLines m.doc ++ (signature m :: "\x7b" :: call m ::
        ("query : \"" ++ m.procedure ++ "\",") ::
        (units (bindings m) ++ (mappingUnits m ++ [");", "\x7d", "#endregion"]))))) := by
  simp [method, body, units_summary, units_mapping]

theorem units_resultClass (m : Method) :
    units (resultClass m) =
      match m.shape with
      | .rowSequence columns => ("public class " ++ m.name ++ "Result") :: "\x7b" ::
          (columns.map (fun c => propertyLine c.type c.name) ++ ["\x7d", ""])
      | _ => [] := by
  unfold resultClass
  cases m.shape <;> simp [property, propertyLine]

theorem units_steps (c : Context) :
    units (steps c) =
      "using System;" :: "using System.Collections.Generic;" :: "using System.Linq;" ::
        "using Dataflip;" :: "" :: ("namespace " ++ c.namespaceName) :: "\x7b" ::
        ("public class " ++ c.name ++ " : DataflipContext") :: "\x7b" ::
        ("public " ++ c.name ++ "(DataflipSettings settings) : base(settings)") :: "\x7b\x7d" ::
        "" :: ("public " ++ c.name ++ "() : base(\"" ++ c.name ++ "\")") :: "\x7b\x7d" :: "" ::
        "#region Result Classes" :: (c.methods.flatMap (fun m => units (resultClass m)) ++
          "#endregion" :: "" :: ((c.methods.map fun m => units (method m)).flatMap (· ++ [""]) ++
            ["\x7d", "\x7d"])) := by
  simp [steps, contextClass, List.flatMap_map]

/-- The lines that read a row read one column each. -/
theorem exists_of_mem_mappingLines {columns : List ResultColumn} {line : String}
    (h : line ∈ mappingLines columns) :
    ∃ c ∈ columns, ∃ separator, (separator = "" ∨ separator = ",") ∧
      line = mappingLine c separator := by
  induction columns using mappingLines.induct with
  | case1 => cases h
  | case2 c => exact ⟨c, List.mem_cons_self, "", .inl rfl, List.mem_singleton.1 h⟩
  | case3 c rest hrest ih =>
    have hlines : mappingLines (c :: rest) = mappingLine c "," :: mappingLines rest := by
      rw [mappingLines]
      assumption
    rw [hlines] at h
    rcases List.mem_cons.1 h with rfl | h
    · exact ⟨c, List.mem_cons_self, ",", .inr rfl, rfl⟩
    · obtain ⟨d, hd, hline⟩ := ih h
      exact ⟨d, List.mem_cons_of_mem c hd, hline⟩

/-! ### First characters -/

theorem leads_propertyLine (type : HostType) (name : String) :
    Leads 'p' (propertyLine type name) := by
  simp [Leads, propertyLine]

theorem leads_summaryLines {doc : Option String} {line : String} (h : line ∈ summaryLines doc) :
    Leads '/' line := by
  cases doc with
  | none => cases h
  | some doc =>
    simp only [summaryLines, List.mem_cons, List.mem_append, List.mem_map, List.not_mem_nil,
      or_false] at h
    rcases h with rfl | ⟨rest, -, rfl⟩ | rfl <;> simp [Leads]

/-! ### Line breaks -/

variable {m : Method}

theorem newline_not_mem_propertyLine (type : HostType) {name : String} (h : '\n' ∉ name.toList) :
    '\n' ∉ (propertyLine type name).toList := by
  simp [propertyLine, newline_not_mem_optionalTypeName, h]

theorem newline_not_mem_summaryLines (doc : Option String) :
    ∀ line ∈ summaryLines doc, '\n' ∉ line.toList := by
  cases doc with
  | none => simp [summaryLines]
  | some doc =>
    simp only [summaryLines, List.forall_mem_cons, List.forall_mem_append, List.forall_mem_map]
    exact ⟨by simp, fun line hline => by simp [newline_not_mem_of_mem_docLines hline], by simp,
      by simp⟩

theorem newline_not_mem_parameterClass (hname : '\n' ∉ m.name.toList)
    (hparameters : ∀ p ∈ m.parameters, '\n' ∉ p.name.toList) :
    ∀ unit ∈ units (parameterClass m), '\n' ∉ unit.toList := by
  rw [units_parameterClass]
  simp only [List.forall_mem_cons, List.forall_mem_append, List.forall_mem_map]
  refine ⟨by simp [hname], by simp, fun p hp => ?_, by simp, by simp⟩
  exact newline_not_mem_propertyLine p.type (not_mem_fieldName (hparameters p hp))

theorem newline_not_mem_resultClass (hname : '\n' ∉ m.name.toList)
    (hcolumns : ∀ c ∈ m.shape.columns, '\n' ∉ c.name.toList) :
    ∀ unit ∈ units (resultClass m), '\n' ∉ unit.toList := by
  rw [units_resultClass]
  cases hshape : m.shape with
  | rowSequence columns =>
    rw [hshape] at hcolumns
    simp only [List.forall_mem_cons, List.forall_mem_append, List.forall_mem_map]
    exact ⟨by simp [hname], by simp, fun c hc => newline_not_mem_propertyLine c.type
      (hcolumns c hc), by decide, by simp, by simp⟩
  | scalar => simp
  | affectedCount => simp

theorem newline_not_mem_bindings (hparameters : ∀ p ∈ m.parameters, '\n' ∉ p.name.toList) :
    ∀ unit ∈ units (bindings m), '\n' ∉ unit.toList := by
  have hend := newline_not_mem_bindingEnd m
  rw [units_bindings]
  split
  · simp [hend]
  · simp only [List.forall_mem_cons, List.forall_mem_append, List.forall_mem_map]
    exact ⟨by simp, by simp, by simp, fun p hp => newline_not_mem_bindingLine (hparameters p hp),
      by simp [hend], by simp⟩

theorem newline_not_mem_mappingUnits (hname : '\n' ∉ m.name.toList)
    (hcolumns : ∀ c ∈ m.shape.columns, '\n' ∉ c.name.toList) :
    ∀ unit ∈ mappingUnits m, '\n' ∉ unit.toList := by
  unfold mappingUnits
  cases hshape : m.shape with
  | rowSequence columns =>
    rw [hshape] at hcolumns
    simp only [List.forall_mem_cons, List.forall_mem_append]
    refine ⟨by simp [hname], by simp, fun line hline => ?_, by simp, by simp⟩
    obtain ⟨c, hc, separator, hseparator, rfl⟩ := exists_of_mem_mappingLines hline
    have hc : '\n' ∉ c.name.toList := hcolumns c hc
    rcases hseparator with rfl | rfl <;>
      simp [mappingLine, hc, newline_not_mem_optionalTypeName]
  | scalar => simp
  | affectedCount => simp

theorem newline_not_mem_method (h : m.Unbroken) :
    ∀ unit ∈ units (method m), '\n' ∉ unit.toList := by
  rw [units_method]
  simp only [List.forall_mem_cons, List.forall_mem_append]
  exact ⟨by simp [h.procedure], newline_not_mem_parameterClass h.name h.parameters,
    newline_not_mem_summaryLines m.doc, newline_not_mem_signature h.name, by simp,
    newline_not_mem_call m, by simp [h.procedure], newline_not_mem_bindings h.parameters,
    newline_not_mem_mappingUnits h.name h.columns, by simp, by simp, by simp, by simp⟩

/-- The units of a context are lines. -/
theorem newline_not_mem_steps {c : Context} (h : c.Unbroken) :
    ∀ unit ∈ units (steps c), '\n' ∉ unit.toList := by
  have hresults : ∀ unit ∈ c.methods.flatMap (fun m => units (resultClass m)),
      '\n' ∉ unit.toList := by
    intro unit hunit
    obtain ⟨m, hm, hunit⟩ := List.mem_flatMap.1 hunit
    exact newline_not_mem_resultClass (h.methods m hm).name (h.methods m hm).columns unit hunit
  have hmethods : ∀ unit ∈ c.methods.flatMap (fun m => units (method m) ++ [""]),
      '\n' ∉ unit.toList := by
    intro unit hunit
    obtain ⟨m, hm, hunit⟩ := List.mem_flatMap.1 hunit
    rcases List.mem_append.1 hunit with hunit | hunit
    · exact newline_not_mem_method (h.methods m hm) unit hunit
    · rw [List.mem_singleton.1 hunit]
      decide
  rw [units_steps, List.flatMap_map]
  simp only [List.forall_mem_cons, List.forall_mem_append]
  and_intros <;>
    first
    | exact hresults
    | exact hmethods
    | simp [h.name, h.namespaceName]

end CSharp

end Sprocket
