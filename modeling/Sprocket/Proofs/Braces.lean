import Sprocket.Proofs.Levels
import Sprocket.Proofs.Nesting

/-!
# Balanced braces

The braces of generated code match, and two that match are indented alike.

* `Context.Tidy`: names of one line that do not begin like indentation;
* `Layout.PlainUnit`: units that are no part of the nesting, by the character that they begin with;
* `CSharp.nests_steps`, `Typings.nests_steps`: lines, blocks and calls, one inside another;
* `Backend.nesting_balanced`: the depth of methods and the nesting of lines, for every context whose
  names begin neither with a brace nor with a blank.
-/

namespace Sprocket

/-! ### Names -/

/-- A text that does not begin like indentation. -/
def Naming.Unindented (s : List Char) : Prop := ∀ c ∈ s.head?, Text.isBlank c = false

/-- A name of one line that begins with no blank, neither as it stands nor without its marks. -/
structure Naming.Tidy (name : String) : Prop where
  newline : '\n' ∉ name.toList
  first : Unindented name.toList
  firstUnmarked : Unindented (unmarked name.toList)

/-- A method all of whose names are tidy. -/
structure Method.Tidy (m : Method) : Prop where
  name : Naming.Tidy m.name
  procedure : Naming.Tidy m.procedure
  parameters : ∀ p ∈ m.parameters, Naming.Tidy p.name
  columns : ∀ c ∈ m.shape.columns, Naming.Tidy c.name

/-- A context all of whose names are of one line and begin with no blank. -/
structure Context.Tidy (c : Context) : Prop where
  namespaceName : Naming.Tidy c.namespaceName
  name : Naming.Tidy c.name
  methods : ∀ m ∈ c.methods, m.Tidy

instance (s : List Char) : Decidable (Naming.Unindented s) := Option.decidableForallMem s.head?

instance (name : String) : Decidable (Naming.Tidy name) :=
  decidable_of_iff ('\n' ∉ name.toList ∧ Naming.Unindented name.toList ∧
      Naming.Unindented (Naming.unmarked name.toList))
    ⟨fun h => ⟨h.1, h.2.1, h.2.2⟩, fun h => ⟨h.newline, h.first, h.firstUnmarked⟩⟩

instance (m : Method) : Decidable m.Tidy :=
  decidable_of_iff (Naming.Tidy m.name ∧ Naming.Tidy m.procedure ∧
      (∀ p ∈ m.parameters, Naming.Tidy p.name) ∧ ∀ c ∈ m.shape.columns, Naming.Tidy c.name)
    ⟨fun h => ⟨h.1, h.2.1, h.2.2.1, h.2.2.2⟩, fun h =>
      ⟨h.name, h.procedure, h.parameters, h.columns⟩⟩

instance (c : Context) : Decidable c.Tidy :=
  decidable_of_iff (Naming.Tidy c.namespaceName ∧ Naming.Tidy c.name ∧ ∀ m ∈ c.methods, m.Tidy)
    ⟨fun h => ⟨h.1, h.2.1, h.2.2⟩, fun h => ⟨h.namespaceName, h.name, h.methods⟩⟩

/-! ### Plain lines -/

/-- A line is plain by its end, its length and its first character. -/
theorem LineRole.ofLine_eq_plain {line : List Char} (hlength : 2 < (Text.trimStart line).length)
    (hfirst : (Text.trimStart line).head? ≠ some '\x7d')
    (hlast : (Text.trimStart line).getLast? ≠ some '(') : ofLine line = plain := by
  have hopening : Text.trimStart line ≠ ['\x7b'] := fun h => by simp [h] at hlength
  have hend : Text.trimStart line ≠ ");".toList := fun h => by simp [h] at hlength
  rw [ofLine, if_neg hopening, if_neg hfirst, if_neg fun h => hlast h.2, if_neg hend]

/-- A unit is plain by its first character alone, if that is not the one of a brace, a blank or a
part of a call. -/
theorem Leads.plainUnit {i : Indent} {unit : String} {c : Char} (h : Leads c unit)
    (hc : Text.isLayoutChar c = false ∧ c ≠ 'r' ∧ c ≠ ')') (newline : '\n' ∉ unit.toList) :
    (Layout.braces i).PlainUnit unit := by
  obtain ⟨r, hunit⟩ : ∃ r, unit.toList = c :: r := List.head?_eq_some_iff.1 h
  simp only [Text.isLayoutChar, Bool.or_eq_false_iff, beq_eq_false_iff_ne] at hc
  obtain ⟨⟨⟨hblank, hopen⟩, hclose⟩, hreturn, hend⟩ := hc
  refine ⟨newline, ?_, h.shift_braces ⟨hopen, hclose⟩⟩
  have htrim : Text.trimStart unit.toList = c :: r := by
    rw [hunit, Text.trimStart, List.dropWhile_cons, if_neg (by simp [hblank])]
  simp [LineRole.ofLine, htrim, hopen, hclose, Ne.symm hreturn, hend]

theorem LineRole.ofLine_eq_call {line : List Char} (hfirst : "return ".toList <+: line)
    (hlast : line.getLast? = some '(') : ofLine line = call := by
  obtain ⟨rest, rfl⟩ := hfirst
  have htrim : Text.trimStart ("return ".toList ++ rest) = "return ".toList ++ rest := rfl
  rw [ofLine, htrim, if_neg (by simp), if_neg (by simp), if_pos ⟨by simp, hlast⟩]

theorem Text.getLast?_trimStart {s : List Char} (h : Text.trimStart s ≠ []) :
    (Text.trimStart s).getLast? = s.getLast? := by
  obtain ⟨last, hlast⟩ := List.getLast?_isSome.2 h |> Option.isSome_iff_exists.1
  have hsplit : s.takeWhile Text.isBlank ++ Text.trimStart s = s := List.takeWhile_append_dropWhile
  rw [← hsplit, List.getLast?_append, hsplit, hlast]
  rfl

/-- A line that a name begins is plain, also if the name is empty. -/
theorem LineRole.ofLine_name_append {name rest core : List Char} {mark : Char}
    (hname : ∀ c ∈ name.head?, Text.isLayoutChar c = false)
    (hrest : Text.trimStart rest = mark :: core) (hmark : mark ≠ '\x7d') (hcore : 2 ≤ core.length)
    (hlast : rest.getLast? ≠ some '(') : ofLine (name ++ rest) = plain := by
  have hlast' : (mark :: core).getLast? = rest.getLast? := by
    rw [← hrest]
    exact Text.getLast?_trimStart (by simp [hrest])
  -- a name keeps the blanks behind it; without one they are taken for indentation
  cases name with
  | nil =>
    rw [List.nil_append]
    exact ofLine_eq_plain (by simpa [hrest, Nat.lt_succ_iff] using hcore)
      (by simpa [hrest] using hmark) (by rwa [hrest, hlast'])
  | cons a name =>
    have ha : Text.isLayoutChar a = false := hname a rfl
    simp only [Text.isLayoutChar, Bool.or_eq_false_iff, beq_eq_false_iff_ne] at ha
    have htrim : Text.trimStart (a :: name ++ rest) = a :: name ++ rest := by
      rw [List.cons_append, Text.trimStart, List.dropWhile_cons, if_neg (by simp [ha])]
    have hlonger : (mark :: core).length ≤ rest.length :=
      hrest ▸ (List.dropWhile_sublist _).length_le
    rw [List.length_cons] at hlonger
    refine ofLine_eq_plain ?_ ?_ ?_ <;> rw [htrim]
    · rw [List.length_append]
      omega
    · simpa using ha.2
    · rw [List.getLast?_append, ← hlast', List.getLast?_cons]
      rwa [← hlast', List.getLast?_cons] at hlast

/-! ### C# -/

namespace CSharp

/-- The reading of a column is a plain line, although it begins with the name of the column. -/
theorem plainUnit_mappingLine {c : ResultColumn} {separator : String} (h : Naming.Tidy c.name)
    (hbrace : Naming.Unbraced c.name.toList) (hseparator : separator = "" ∨ separator = ",") :
    layout.PlainUnit (mappingLine c separator) := by
  -- a name may begin like a call, but the line ends in a type or a comma
  have hend : ∃ last, (optionalTypeName c.type ++ separator).toList.getLast? = some last ∧
      last ≠ '(' := by
    rcases hseparator with rfl | rfl
    · cases c.type <;> exact ⟨_, rfl, by decide⟩
    · exact ⟨',', by simp, by decide⟩
  have hname : ∀ a ∈ c.name.toList.head?, Text.isLayoutChar a = false := fun a ha => by
    simp [Text.isLayoutChar, h.first a ha, hbrace a ha]
  constructor
  · have hseparator' : '\n' ∉ separator.toList := by rcases hseparator with rfl | rfl <;> decide
    simp [mappingLine, h.newline, newline_not_mem_optionalTypeName, hseparator']
  · obtain ⟨last, hlast, hparen⟩ := hend
    have hsplit : (mappingLine c separator).toList = c.name.toList ++
        (' ' :: '=' :: (" reader[\"".toList ++ c.name.toList ++ "\"] as ".toList) ++
          (optionalTypeName c.type ++ separator).toList) := by
      simp [mappingLine]
    rw [hsplit]
    refine LineRole.ofLine_name_append hname rfl (by decide) (by simp) ?_
    rw [List.getLast?_append, hlast]
    simpa using hparen
  · rw [shift_mappingLine c hseparator, pull_eq_zero hbrace]

theorem plainUnit_mappingLines {columns : List ResultColumn}
    (h : ∀ c ∈ columns, Naming.Tidy c.name)
    (hbrace : ∀ c ∈ columns, Naming.Unbraced c.name.toList) :
    ∀ line ∈ mappingLines columns, layout.PlainUnit line := by
  induction columns using mappingLines.induct with
  | case1 => simp [mappingLines]
  | case2 c =>
    simpa [mappingLines] using plainUnit_mappingLine (h c (by simp)) (hbrace c (by simp)) (.inl rfl)
  | case3 c rest hrest ih =>
    rw [List.forall_mem_cons] at h hbrace
    rw [mappingLines, List.forall_mem_cons]
    · exact ⟨plainUnit_mappingLine h.1 hbrace.1 (.inr rfl), ih h.2 hbrace.2⟩
    · assumption

variable {inCall : Bool} {m : Method}

/-- The properties of a class are plain lines. -/
theorem nests_properties {α : Type} {as : List α} (type : α → HostType) {name : α → String}
    (h : ∀ a ∈ as, '\n' ∉ (name a).toList) :
    layout.Nests inCall (as.map fun a => property (type a) (name a)) := by
  refine .units fun a ha => Leads.plainUnit (c := 'p') (by simp [Leads]) (by decide) ?_
  simp [h a ha, newline_not_mem_optionalTypeName]

theorem nests_resultClass (h : m.Tidy) : layout.Nests inCall (resultClass m) := by
  unfold resultClass
  cases hshape : m.shape with
  | rowSequence columns =>
    have hcolumns : ∀ c ∈ columns, '\n' ∉ c.name.toList := fun c hc =>
      (h.columns c (by rwa [hshape])).newline
    have hname : layout.PlainUnit ("public class " ++ m.name ++ "Result") :=
      Leads.plainUnit (c := 'p') (by simp [Leads]) (by decide) (by simp [h.name.newline])
    simp only [List.cons_append, List.nil_append]
    exact .unit hname (.block (.inl rfl) (nests_properties _ hcolumns) (.blank .nil))
  | scalar => exact .nil
  | affectedCount => exact .nil

theorem nests_parameterClass (h : m.Tidy) : layout.Nests inCall (parameterClass m) := by
  have hname : layout.PlainUnit ("public class " ++ m.name ++ "Parameters") :=
    Leads.plainUnit (c := 'p') (by simp [Leads]) (by decide) (by simp [h.name.newline])
  have hfields : ∀ p ∈ m.parameters, '\n' ∉ p.fieldName.toList := fun p hp =>
    not_mem_fieldName (h.parameters p hp).newline
  simp only [parameterClass, List.cons_append, List.nil_append]
  exact .unit hname (.block (.inl rfl) (nests_properties _ hfields) .nil)

/-- The lines of a doc comment are plain, whatever it says. -/
theorem nests_summary : layout.Nests inCall (summary m) := by
  unfold summary
  cases m.doc with
  | none => exact .nil
  | some doc =>
    have hline : ∀ line ∈ docLines doc, layout.PlainUnit ("///" ++ line) := fun line hline =>
      Leads.plainUnit (c := '/') (by simp [Leads]) (by decide)
        (by simp [newline_not_mem_of_mem_docLines hline])
    exact .append (.unit (by decide) (.units hline))
      (.unit (by decide) .nil)

theorem plainUnit_bindingLine {p : Parameter} (h : Naming.Tidy p.name) :
    layout.PlainUnit (bindingLine p) :=
  (leads_bindingLine p).plainUnit (by decide) (newline_not_mem_bindingLine h.newline)

theorem nests_bindings (h : m.Tidy) : layout.Nests inCall (bindings m) := by
  have hend := bindingEnd_eq_or m
  unfold bindings
  split
  · have hempty : layout.PlainUnit ("parameters : _ => \x7b\x7d" ++ bindingEnd m) := by
      refine Leads.plainUnit (c := 'p') (by simp [Leads]) (by decide) ?_
      rcases hend with hend | hend <;> rw [hend] <;> decide
    exact .unit hempty .nil
  · have hclosing : "\x7d" ++ bindingEnd m = "\x7d" ∨ "\x7d" ++ bindingEnd m = "\x7d," := by
      rcases hend with hend | hend <;> rw [hend]
      · exact .inr rfl
      · exact .inl rfl
    have hlines : layout.Nests inCall (.emit "if (parameters == null) return;" ::
        m.parameters.map fun p => .emit (bindingLine p)) :=
      .unit (by decide)
        (.units fun p hp => plainUnit_bindingLine (h.parameters p hp))
    exact .unit (by decide) (.block hclosing hlines .nil)

theorem nests_mapping (h : m.Tidy) (hbrace : m.Unbraced) : layout.Nests inCall (mapping m) := by
  unfold mapping
  cases hshape : m.shape with
  | rowSequence columns =>
    have hname : layout.PlainUnit ("mapping : reader => new " ++ m.name ++ "Result()") :=
      Leads.plainUnit (c := 'm') (by simp [Leads]) (by decide) (by simp [h.name.newline])
    have hlines : ∀ line ∈ mappingLines columns, layout.PlainUnit line :=
      plainUnit_mappingLines (fun c hc => h.columns c (by rwa [hshape])) fun c hc =>
        hbrace.columns c (by rwa [hshape])
    exact .unit hname (.block (.inl rfl) (.units hlines) .nil)
  | scalar => exact .nil
  | affectedCount => exact .nil

theorem role_call (m : Method) : LineRole.ofLine (call m).toList = .call := by
  unfold call
  cases m.shape <;>
    exact LineRole.ofLine_eq_call (by simp) (by simp [List.getLast?_cons])

theorem plainUnit_signature (h : m.Tidy) : layout.PlainUnit (signature m) :=
  (leads_signature m).plainUnit (by decide) (newline_not_mem_signature h.name.newline)

/-- The body of a method is a block around a call. -/
theorem nests_body (h : m.Tidy) (hbrace : m.Unbraced) : layout.Nests false (body m) := by
  have hquery : layout.PlainUnit ("query : \"" ++ m.procedure ++ "\",") :=
    Leads.plainUnit (c := 'q') (by simp [Leads]) (by decide) (by simp [h.procedure.newline])
  have hcall : layout.Nests false (.emit (call m) :: .indent ::
      ((.emit ("query : \"" ++ m.procedure ++ "\",") :: (bindings m ++ mapping m)) ++
        .dedent :: .emit ");" :: [])) :=
    .call (newline_not_mem_call m) (role_call m) (shift_call m)
      (.unit hquery ((nests_bindings h).append (nests_mapping h hbrace))) .nil
  simpa [body] using Layout.Nests.unit (plainUnit_signature h) (.block (.inl rfl) hcall .nil)

theorem nests_method (h : m.Tidy) (hbrace : m.Unbraced) : layout.Nests false (method m) := by
  have hregion : layout.PlainUnit ("#region " ++ m.procedure) :=
    Leads.plainUnit (c := '#') (by simp [Leads]) (by decide) (by simp [h.procedure.newline])
  have hend : layout.Nests false [.emit "#endregion"] := .unit (by decide) .nil
  exact .append (.append (.append (.append (.unit hregion .nil) (nests_parameterClass h))
    nests_summary) (nests_body h hbrace)) hend

theorem nests_contextClass {c : Context} (h : c.Tidy) (hbrace : c.Unbraced) :
    layout.Nests false (contextClass c) := by
  have hname := h.name.newline
  have hclass : layout.PlainUnit ("public class " ++ c.name ++ " : DataflipContext") :=
    Leads.plainUnit (c := 'p') (by simp [Leads]) (by decide) (by simp [hname])
  have hsettings : layout.PlainUnit ("public " ++ c.name ++
      "(DataflipSettings settings) : base(settings)") :=
    Leads.plainUnit (c := 'p') (by simp [Leads]) (by decide) (by simp [hname])
  have hplain : layout.PlainUnit ("public " ++ c.name ++ "() : base(\"" ++ c.name ++ "\")") :=
    Leads.plainUnit (c := 'p') (by simp [Leads]) (by decide) (by simp [hname])
  have hbraces : layout.PlainUnit "\x7b\x7d" := by decide
  have hregion : layout.PlainUnit "#region Result Classes" := by decide
  have hend : layout.PlainUnit "#endregion" := by decide
  have hresults : layout.Nests false (c.methods.flatMap resultClass) :=
    .flatMap fun m hm => nests_resultClass (h.methods m hm)
  have hmethods : layout.Nests false (c.methods.flatMap fun m => method m ++ [.blank]) :=
    .flatMap fun m hm => .append (nests_method (h.methods m hm) (hbrace m hm)) (.blank .nil)
  have hinner : layout.Nests false (.emit ("public " ++ c.name ++
      "(DataflipSettings settings) : base(settings)") :: .emit "\x7b\x7d" :: .blank ::
      .emit ("public " ++ c.name ++ "() : base(\"" ++ c.name ++ "\")") :: .emit "\x7b\x7d" ::
      .blank :: .emit "#region Result Classes" :: (c.methods.flatMap resultClass ++
        .emit "#endregion" :: .blank :: c.methods.flatMap fun m => method m ++ [.blank])) :=
    .unit hsettings (.unit hbraces (.blank (.unit hplain (.unit hbraces (.blank (.unit hregion
      (.append hresults (.unit hend (.blank hmethods)))))))))
  simpa [contextClass] using Layout.Nests.unit hclass (.block (.inl rfl) hinner .nil)

/-- The steps of a context write lines, blocks and calls, one inside another. -/
theorem nests_steps {c : Context} (h : c.Tidy) (hbrace : c.Unbraced) :
    layout.Nests false (steps c) := by
  have husing : ∀ unit ∈ ["using System;", "using System.Collections.Generic;",
      "using System.Linq;", "using Dataflip;"], layout.PlainUnit unit := by decide
  have hnamespace : layout.PlainUnit ("namespace " ++ c.namespaceName) :=
    Leads.plainUnit (c := 'n') (by simp [Leads]) (by decide) (by simp [h.namespaceName.newline])
  have hblock := Layout.Nests.block (.inl rfl) (nests_contextClass h hbrace) (.nil)
  simpa [steps] using (Layout.Nests.units husing).append (.blank (.unit hnamespace hblock))

end CSharp

/-! ### Typings -/

namespace Typings

/-- A field is a plain line, although it begins with a name, and whatever casing does to that. -/
theorem plainUnit_field {name : String} (h : Naming.Tidy name)
    (hbrace : Naming.Unbraced (Naming.unmarked name.toList)) (camel : Bool) (type : HostType) :
    layout.PlainUnit (Naming.client camel name ++ ": " ++ typeName type ++ ";") := by
  have htype : '\n' ∉ (typeName type).toList := by cases type <;> decide
  have hnewline : '\n' ∉ (Naming.client camel name).toList := by
    rw [Naming.client, String.toList_ofList]
    exact fun hmem => h.newline
      (List.mem_of_mem_filter (Naming.mem_of_mem_clientChars hmem (by decide)))
  have hname : ∀ a ∈ (Naming.client camel name).toList.head?, Text.isLayoutChar a = false := by
    intro a ha
    rw [Naming.client, String.toList_ofList] at ha
    by_contra hlayout
    have hfirst := Naming.head?_of_head?_clientChars ha (by simpa using hlayout)
    simp [Text.isLayoutChar, h.firstUnmarked a hfirst, hbrace a hfirst] at hlayout
  have hsplit : (Naming.client camel name ++ ": " ++ typeName type ++ ";").toList =
      (Naming.client camel name).toList ++ (':' :: ' ' :: (typeName type).toList ++ [';']) := by
    simp
  refine ⟨by simp [hnewline, htype], ?_, ?_⟩
  · rw [hsplit]
    exact LineRole.ofLine_name_append hname rfl (by decide) (by simp)
      (by simp [List.getLast?_cons])
  · exact shift_field_eq_zero hbrace

variable {inCall : Bool} {m : Method}

theorem nests_class {name : String} {inner : List WriterStep} (hname : layout.PlainUnit name)
    (h : layout.Nests inCall inner) :
    layout.Nests inCall ([.emit name, .emit "\x7b"] ++ inner ++ [.emit "\x7d"]) :=
  .unit hname (.block (.inl rfl) h .nil)

theorem nests_method (h : m.Tidy) (hbrace : m.Unbraced) (camel : Bool) :
    layout.Nests inCall (method camel m) := by
  have hname : ∀ rest, '\n' ∉ rest.toList →
      layout.PlainUnit ("export class " ++ m.name ++ rest) := fun rest hrest =>
    Leads.plainUnit (c := 'e') (by simp [Leads]) (by decide) (by simp [h.name.newline, hrest])
  have hbasic : layout.PlainUnit "/* Method returns a basic type. */" := by decide
  refine .append (nests_class (hname "_Result" (by decide)) ?_) ?_
  · cases hshape : m.shape with
    | rowSequence columns =>
      exact .units fun c hc => plainUnit_field (h.columns c (by rwa [hshape]))
        (hbrace.unmarkedColumns c (by rwa [hshape])) camel c.type
    | scalar => exact .unit hbasic .nil
    | affectedCount => exact .unit hbasic .nil
  · have hnone : layout.PlainUnit "/* No parameters. */" := by decide
    rw [parameterClass, List.append_assoc [_, _]]
    refine nests_class (hname "_Parameters" (by decide)) (.append ?_ (.units fun p hp =>
      plainUnit_field (h.parameters p hp) (hbrace.unmarkedParameters p hp) camel p.type))
    split
    · exact .unit hnone .nil
    · exact .nil

theorem nests_methods {ms : List Method} (h : ∀ m ∈ ms, m.Tidy) (hbrace : ∀ m ∈ ms, m.Unbraced)
    (camel : Bool) : layout.Nests false (methods camel ms) := by
  induction ms using methods.induct with
  | case1 => exact .nil
  | case2 m => exact nests_method (h m List.mem_cons_self) (hbrace m List.mem_cons_self) camel
  | case3 m ms hms ih =>
    rw [List.forall_mem_cons] at h hbrace
    rw [methods_cons camel m (by simpa using hms)]
    exact .append (.append (nests_method h.1 hbrace.1 camel) (.blank .nil)) (ih h.2 hbrace.2)

/-- The steps of a context write lines and blocks, one inside another. -/
theorem nests_steps {c : Context} (h : c.Tidy) (hbrace : c.Unbraced) (camel : Bool) :
    layout.Nests false (steps camel c) := by
  have hnamespace : layout.PlainUnit ("export namespace " ++ c.name) :=
    Leads.plainUnit (c := 'e') (by simp [Leads]) (by decide) (by simp [h.name.newline])
  exact .unit hnamespace (.block (.inl rfl) (nests_methods h.methods hbrace camel) .nil)

end Typings

/-! ### Texts -/

/-- Steps that are nested are rendered to nested lines. -/
theorem Layout.Nests.nested_lines {i : Indent} {steps : List WriterStep} {text : String}
    (h : (Layout.braces i).Nests false steps)
    (hrender : (Layout.braces i).render steps = .ok text) :
    Nested i.text.toList false 0 (Text.lines text.toList) := by
  obtain ⟨-, rfl⟩ := Layout.render_eq_ok_iff.1 hrender
  rw [String.toList_ofList]
  exact (h.isNestedText 0).nested_lines

/-- **Generated nesting is balanced.** If no column and no parameter begins like a brace, every
backend writes every method at one and the same level and closes all that it opens; bindings are
written so in any case. If no name begins with a blank or goes on after its line besides, the braces
of C# and of typings match one another, and two that match are indented alike: by the number of
pairs around them, and by one more among the arguments of the runtime call. -/
theorem Backend.nesting_balanced (camel : Bool) (c : Context) :
    Backend.angular.Levels camel c ∧
    (c.Unbraced → (∀ b : Backend, b.Levels camel c) ∧
      (c.Tidy → ∀ text,
        (Backend.csharp.render camel c = .ok text →
          Nested "    ".toList false 0 (Text.lines text.toList)) ∧
        (Backend.typescript.render camel c = .ok text →
          Nested "  ".toList false 0 (Text.lines text.toList)))) := by
  refine ⟨Bindings.levels camel c, fun hbrace => ⟨fun b => ?_, fun htidy text => ⟨?_, ?_⟩⟩⟩
  · cases b with
    | csharp => exact CSharp.levels hbrace camel
    | typescript => exact Typings.levels hbrace camel
    | angular => exact Bindings.levels camel c
  · exact (CSharp.nests_steps htidy hbrace).nested_lines
  · exact (Typings.nests_steps htidy hbrace camel).nested_lines

/-- A context with a method of each shape, with and without parameters. -/
def stockContext : Context where
  namespaceName := "Acme"
  name := "Stock"
  methods := [⟨"Find", "find", [⟨"@Id", .int32⟩], .rowSequence [⟨"Id", .int32⟩, ⟨"Name", .string⟩],
      some "Finds\none."⟩,
    ⟨"Total", "stock.total", [], .scalar .decimal, none⟩,
    ⟨"Touch", "touch", [], .affectedCount, none⟩]

/-- The texts of that context are nested, and its methods stand at their levels. -/
theorem Backend.nesting_balanced_stock :
    stockContext.Unbraced ∧ stockContext.Tidy ∧
    (∀ b : Backend, b.Levels true stockContext) ∧
    (∃ text, Backend.csharp.render true stockContext = .ok text ∧
      Nested "    ".toList false 0 (Text.lines text.toList)) ∧
    ∃ text, Backend.typescript.render true stockContext = .ok text ∧
      Nested "  ".toList false 0 (Text.lines text.toList) := by
  have hbrace : stockContext.Unbraced := by decide
  have htidy : stockContext.Tidy := by decide
  obtain ⟨-, hall⟩ := nesting_balanced true stockContext
  obtain ⟨hlevels, hnested⟩ := hall hbrace
  obtain ⟨host, hhost, -⟩ := (hlevels .csharp).renders
  obtain ⟨typings, htypings, -⟩ := (hlevels .typescript).renders
  exact ⟨hbrace, htidy, hlevels, ⟨host, hhost, (hnested htidy host).1 hhost⟩,
    typings, htypings, (hnested htidy typings).2 htypings⟩

end Sprocket
