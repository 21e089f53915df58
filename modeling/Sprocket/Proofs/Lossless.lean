import Mathlib.Data.List.Nodup
import Sprocket.Proofs.Units
import Sprocket.Text.Ascii

/-!
# C# loses nothing

Where its names are plain, a context can be told from its C# text: everything about it stands in a
place of its own, whatever the doc comments say.

* `Text.IsWord`, `Text.IsDotted`, `Text.IsMarked`: plain names;
* `Text.trimmedLines`: the lines of a doc, as far as they count;
* `Method.Plain`, `Context.Plain`: methods and contexts of such names;
* `Method.Alike`: methods that differ at most in how the lines of their docs are laid out;
* `method_alike_of_units_eq`: a method is told from its units;
* `render_eq_of_alike`: contexts that are alike have the same text;
* `exists_render_eq_ok_iff_alike`: a context is told from its text.
-/

namespace Sprocket

/-! ### Plain names -/

namespace Text

/-- One or more ASCII letters, digits and underscores. -/
structure IsWord (s : String) : Prop where
  nonempty : s ≠ ""
  chars : ∀ c ∈ s.toList, isWordChar c = true

/-- One or more ASCII letters, digits, underscores and dots. -/
structure IsDotted (s : String) : Prop where
  nonempty : s ≠ ""
  chars : ∀ c ∈ s.toList, isWordChar c = true ∨ c = '.'

/-- A word, with any number of marks in front of it. -/
def IsMarked (s : String) : Prop :=
  ∃ n word, s.toList = List.replicate n '@' ++ word.toList ∧ IsWord word

theorem IsWord.of_all {s : String} (h : s ≠ "") (hall : s.toList.all isWordChar = true) :
    IsWord s := ⟨h, List.all_eq_true.1 hall⟩

theorem IsDotted.of_all {s : String} (h : s ≠ "")
    (hall : (s.toList.all fun c => isWordChar c || c == '.') = true) : IsDotted s :=
  ⟨h, fun c hc => by simpa using List.all_eq_true.1 hall c hc⟩

theorem IsWord.not_mem {s : String} (h : IsWord s) {c : Char} (hc : isWordChar c = false) :
    c ∉ s.toList := fun hmem => by
  simp [h.chars c hmem] at hc

theorem IsDotted.not_mem {s : String} (h : IsDotted s) {c : Char} (hc : isWordChar c = false)
    (hdot : c ≠ '.') : c ∉ s.toList := fun hmem => by
  rcases h.chars c hmem with hword | rfl
  · simp [hword] at hc
  · exact hdot rfl

theorem IsMarked.not_mem {s : String} (h : IsMarked s) {c : Char} (hc : isWordChar c = false)
    (hmark : c ≠ '@') : c ∉ s.toList := by
  obtain ⟨n, word, hs, hword⟩ := h
  rw [hs, List.mem_append, not_or]
  exact ⟨fun hmem => hmark (List.eq_of_mem_replicate hmem), hword.not_mem hc⟩

/-- The lines of a text, each without the blanks around it. -/
def trimmedLines (s : String) : List (List Char) := (lines s.toList).map trim

end Text

open Text

/-- A method whose names are plain. -/
structure Method.Plain (m : Method) : Prop where
  name : IsWord m.name
  procedure : IsDotted m.procedure
  parameters : ∀ p ∈ m.parameters, IsMarked p.name
  columns : ∀ c ∈ m.shape.columns, IsWord c.name

/-- A context whose names are plain. -/
structure Context.Plain (c : Context) : Prop where
  name : IsWord c.name
  namespaceName : IsDotted c.namespaceName
  methods : ∀ m ∈ c.methods, m.Plain

theorem Method.Plain.unbroken {m : Method} (h : m.Plain) : m.Unbroken where
  name := h.name.not_mem (by decide)
  procedure := h.procedure.not_mem (by decide) (by decide)
  parameters p hp := (h.parameters p hp).not_mem (by decide) (by decide)
  columns c hc := (h.columns c hc).not_mem (by decide)

theorem Context.Plain.unbroken {c : Context} (h : c.Plain) : c.Unbroken where
  name := h.name.not_mem (by decide)
  namespaceName := h.namespaceName.not_mem (by decide) (by decide)
  methods m hm := (h.methods m hm).unbroken

/-- Methods that are the same, but for blanks around the lines of their docs. -/
structure Method.Alike (m n : Method) : Prop where
  name : m.name = n.name
  procedure : m.procedure = n.procedure
  parameters : m.parameters = n.parameters
  shape : m.shape = n.shape
  doc : m.doc.map trimmedLines = n.doc.map trimmedLines

namespace CSharp

open Layout (units)

/-! ### Types -/

theorem typeName_injective : Function.Injective typeName := fun t u h =>
  List.inj_on_of_nodup_map (f := typeName) (by decide) t.mem_all u.mem_all h

theorem optionalTypeName_injective : Function.Injective optionalTypeName := fun t u h =>
  List.inj_on_of_nodup_map (f := optionalTypeName) (by decide) t.mem_all u.mem_all h

theorem space_not_mem_optionalTypeName (t : HostType) : ' ' ∉ (optionalTypeName t).toList := by
  cases t <;> decide

/-! ### Lines -/

/-- A property tells its type and its name. -/
theorem propertyLine_inj {t u : HostType} {name name' : String}
    (h : propertyLine t name = propertyLine u name') : t = u ∧ name = name' := by
  simp only [propertyLine, String.append_assoc, String.append_right_inj] at h
  have hchars := congrArg String.toList h
  simp only [String.toList_append, String.reduceToList, List.cons_append, List.nil_append] at hchars
  obtain ⟨htype, hrest⟩ := append_cons_inj (space_not_mem_optionalTypeName t)
    (space_not_mem_optionalTypeName u) hchars
  refine ⟨optionalTypeName_injective (String.toList_injective htype), ?_⟩
  exact String.toList_injective (List.append_cancel_right hrest)

/-- The binding of a parameter tells the name of the parameter. -/
theorem bindingLine_inj {p q : Parameter} (hp : IsMarked p.name) (hq : IsMarked q.name)
    (h : bindingLine p = bindingLine q) : p.name = q.name := by
  have hchars := congrArg String.toList h
  unfold bindingLine at hchars
  simp only [String.append_assoc, String.toList_append, List.append_cancel_left_eq] at hchars
  simp only [String.reduceToList, List.cons_append, List.nil_append] at hchars
  have hquote : ∀ {s : String}, IsMarked s → '"' ∉ s.toList := fun hs =>
    hs.not_mem (by decide) (by decide)
  obtain ⟨hname, -⟩ := append_cons_inj (hquote hp) (hquote hq) hchars
  exact String.toList_injective hname

/-- The reading of a column tells the column. -/
theorem mappingLine_inj {c d : ResultColumn} (hc : IsWord c.name) (hd : IsWord d.name)
    {separator : String} (h : mappingLine c separator = mappingLine d separator) : c = d := by
  simp only [mappingLine, String.append_assoc] at h
  have hchars := congrArg String.toList h
  simp only [String.toList_append, String.reduceToList, List.cons_append, List.nil_append] at hchars
  have hspace : ∀ {s : String}, IsWord s → ' ' ∉ s.toList := fun hs => hs.not_mem (by decide)
  obtain ⟨hname, -⟩ := append_cons_inj (hspace hc) (hspace hd) hchars
  have hsame : c.name = d.name := String.toList_injective hname
  rw [hsame] at h
  simp only [String.append_right_inj, String.append_left_inj] at h
  have htype := optionalTypeName_injective h
  cases c
  cases d
  simp_all

/-! ### Methods -/

/-- The lines of a doc comment are the trimmed lines of the doc. -/
theorem docLines_eq_iff {doc doc' : String} :
    docLines doc = docLines doc' ↔ trimmedLines doc = trimmedLines doc' := by
  have hlines : ∀ s, docLines s = (trimmedLines s).map String.ofList := fun s => by
    rw [docLines, trimmedLines, List.map_map]
    rfl
  have hinj : Function.Injective String.ofList := fun _ _ => String.ofList_inj.1
  rw [hlines, hlines, (List.map_injective_iff.2 hinj).eq_iff]

/-- The summary tells the trimmed lines of the doc, if there is one. -/
theorem trimmedLines_eq_of_summaryLines_eq {doc doc' : Option String}
    (h : summaryLines doc = summaryLines doc') :
    doc.map trimmedLines = doc'.map trimmedLines := by
  cases doc with
  | none =>
    cases doc' with
    | none => rfl
    | some => cases h
  | some =>
    cases doc' with
    | none => cases h
    | some =>
      have hlines := List.append_cancel_right (List.cons.inj h).2
      have hinj : Function.Injective ("///" ++ · : String → String) := fun _ _ heq =>
        (String.append_right_inj _).1 heq
      have htrimmed := docLines_eq_iff.1 (List.map_injective_iff.2 hinj hlines)
      rw [Option.map_some, Option.map_some, htrimmed]

theorem parameters_eq {ps qs : List Parameter} (hp : ∀ p ∈ ps, IsMarked p.name)
    (hq : ∀ q ∈ qs, IsMarked q.name)
    (hproperties : (ps.map fun p => propertyLine p.type p.fieldName) =
      qs.map fun q => propertyLine q.type q.fieldName)
    (hbindings : ps.map bindingLine = qs.map bindingLine) : ps = qs := by
  induction ps generalizing qs with
  | nil =>
    cases qs with
    | nil => rfl
    | cons => cases hproperties
  | cons p ps ih =>
    cases qs with
    | nil => cases hproperties
    | cons q qs =>
      obtain ⟨hfirst, hps⟩ := List.forall_mem_cons.1 hp
      obtain ⟨hfirst', hqs⟩ := List.forall_mem_cons.1 hq
      obtain ⟨hproperty, hproperties⟩ := List.cons.inj hproperties
      obtain ⟨hbinding, hbindings⟩ := List.cons.inj hbindings
      obtain ⟨htype, -⟩ := propertyLine_inj hproperty
      have hname := bindingLine_inj hfirst hfirst' hbinding
      rw [ih hps hqs hproperties hbindings]
      cases p
      cases q
      simp_all

theorem length_mappingLines (columns : List ResultColumn) :
    (mappingLines columns).length = columns.length := by
  induction columns using mappingLines.induct with
  | case1 => rfl
  | case2 => rfl
  | case3 c rest hrest ih => simp [mappingLines, ih]

theorem columns_eq {cs ds : List ResultColumn} (hc : ∀ c ∈ cs, IsWord c.name)
    (hd : ∀ d ∈ ds, IsWord d.name) (h : mappingLines cs = mappingLines ds) : cs = ds := by
  -- with as many columns on both sides, the same separator stands in each place
  have hlength : cs.length = ds.length := by
    rw [← length_mappingLines, h, length_mappingLines]
  induction cs generalizing ds with
  | nil => exact (List.length_eq_zero_iff.1 hlength.symm).symm
  | cons c cs ih =>
    cases ds with
    | nil => cases hlength
    | cons d ds =>
      obtain ⟨hfirst, hcs⟩ := List.forall_mem_cons.1 hc
      obtain ⟨hfirst', hds⟩ := List.forall_mem_cons.1 hd
      have hrest : cs.length = ds.length := Nat.succ.inj hlength
      cases cs with
      | nil =>
        obtain rfl := List.length_eq_zero_iff.1 hrest.symm
        rw [mappingLine_inj hfirst hfirst' (List.cons.inj h).1]
      | cons c' cs =>
        cases ds with
        | nil => cases hrest
        | cons d' ds =>
          obtain ⟨hline, hlines⟩ := List.cons.inj h
          rw [mappingLine_inj hfirst hfirst' hline, ih hcs hds hlines hrest]

theorem call_eq {m n : Method} (h : call m = call n) :
    m.shape.kind = n.shape.kind ∧ m.shape.scalarType? = n.shape.scalarType? := by
  -- only the calls for single values can be the same without being the same constant
  have hchars := congrArg String.toList h
  unfold call at hchars
  cases hm : m.shape <;> cases hn : n.shape <;>
    simp [hm, hn, ReturnShape.kind, ReturnShape.scalarType?] at hchars ⊢
  exact typeName_injective (String.toList_injective hchars)

theorem bindingEnd_eq {m n : Method} (h : m.shape.kind = n.shape.kind) :
    bindingEnd m = bindingEnd n := by
  unfold bindingEnd
  cases hm : m.shape <;> cases hn : n.shape <;> simp [hm, hn, ReturnShape.kind] at h ⊢

/-- The lines of a method from its bindings on tell its parameters, where those of the parameter
class and the runtime call are known. -/
theorem bindings_eq {m n : Method} (hm : m.Plain) (hn : n.Plain)
    (hproperties : (m.parameters.map fun p => propertyLine p.type p.fieldName) =
      n.parameters.map fun p => propertyLine p.type p.fieldName)
    (hkind : m.shape.kind = n.shape.kind) {rest rest' : List String}
    (h : units (bindings m) ++ rest = units (bindings n) ++ rest') :
    m.parameters = n.parameters ∧ rest = rest' := by
  -- the parameter classes are equally long, so both methods have parameters or neither has
  have hlength : m.parameters.length = n.parameters.length := by
    simpa using congrArg List.length hproperties
  rw [units_bindings, units_bindings, bindingEnd_eq hkind] at h
  by_cases hempty : m.parameters.isEmpty = true
  · have hm : m.parameters = [] := List.isEmpty_iff.1 hempty
    have hn : n.parameters = [] := by
      rw [hm] at hlength
      exact List.length_eq_zero_iff.1 hlength.symm
    simp only [hm, hn, List.isEmpty_nil, if_true, List.singleton_append, List.cons.injEq,
      true_and] at h
    exact ⟨hm.trans hn.symm, h⟩
  · have hempty' : ¬ n.parameters.isEmpty = true := by
      rw [List.isEmpty_iff_length_eq_zero] at hempty ⊢
      omega
    rw [if_neg hempty, if_neg hempty'] at h
    simp only [List.cons_append, List.append_assoc, List.nil_append, List.cons.injEq,
      true_and] at h
    have hend : ∀ k : Method, "\x7d" ++ bindingEnd n ∉ k.parameters.map bindingLine := by
      intro k hmem
      obtain ⟨p, -, hp⟩ := List.mem_map.1 hmem
      have hleads := leads_bindingLine p
      rw [hp] at hleads
      exact absurd (hleads.unique (d := '\x7d') (by simp [Leads])) (by decide)
    obtain ⟨hbindings, hrest⟩ := append_cons_inj (hend m) (hend n) h
    exact ⟨parameters_eq hm.parameters hn.parameters hproperties hbindings, hrest⟩

/-- The runtime call and the lines of the mapping tell the shape. -/
theorem shape_eq {m n : Method} (hm : m.Plain) (hn : n.Plain) (hcall : call m = call n)
    (hmapping : mappingUnits m = mappingUnits n) : m.shape = n.shape := by
  obtain ⟨hkind, hscalar⟩ := call_eq hcall
  have hcolumns := hm.columns
  have hcolumns' := hn.columns
  unfold mappingUnits at hmapping
  cases hshape : m.shape <;> cases hshape' : n.shape <;>
    simp [hshape, hshape', ReturnShape.kind, ReturnShape.scalarType?] at hkind hscalar ⊢
  · rw [hshape] at hcolumns
    rw [hshape'] at hcolumns'
    simp only [hshape, hshape', List.cons.injEq, List.append_cancel_right_eq] at hmapping
    exact columns_eq hcolumns hcolumns' hmapping.2.2
  · exact hscalar

/-- A method is told from its units. -/
theorem method_alike_of_units_eq {m n : Method} (hm : m.Plain) (hn : n.Plain)
    (h : units (method m) = units (method n)) : m.Alike n := by
  rw [units_method, units_method, units_parameterClass, units_parameterClass] at h
  simp only [List.cons_append, List.append_assoc, List.nil_append, List.cons.injEq,
    String.append_right_inj, String.append_left_inj, true_and] at h
  obtain ⟨hprocedure, hname, hrest⟩ := h
  -- the parameter class ends with its first closing brace
  have hclose : ∀ k : Method,
      "\x7d" ∉ k.parameters.map fun p => propertyLine p.type p.fieldName := by
    intro k hmem
    obtain ⟨p, -, hp⟩ := List.mem_map.1 hmem
    have hleads := leads_propertyLine p.type p.fieldName
    rw [hp] at hleads
    exact absurd (hleads.unique (d := '\x7d') (by simp [Leads])) (by decide)
  obtain ⟨hproperties, hrest⟩ := append_cons_inj (hclose m) (hclose n) hrest
  -- the doc comment ends where a line begins with no slash
  have hsignature : ∀ (k : Method) (rest : List String),
      ∀ line ∈ (signature k :: rest).head?, ¬ Leads '/' line := by
    rintro k rest line ⟨⟩ hleads
    exact absurd ((leads_signature k).unique hleads) (by decide)
  obtain ⟨hdoc, hrest⟩ := append_inj_of_span (Leads '/') (fun _ => leads_summaryLines)
    (fun _ => leads_summaryLines) (hsignature m _) (hsignature n _) hrest
  simp only [List.cons.injEq, true_and] at hrest
  obtain ⟨-, hcall, -, hrest⟩ := hrest
  obtain ⟨hparameters, hrest⟩ := bindings_eq hm hn hproperties (call_eq hcall).1 hrest
  exact ⟨hname, hprocedure, hparameters, shape_eq hm hn hcall (List.append_cancel_right hrest),
    trimmedLines_eq_of_summaryLines_eq hdoc⟩

/-! ### One line each -/

@[simp] theorem layout_indent_char : layout.indent.char = ' ' := rfl

/-- A line that holds something and is written as one line. -/
structure Solid (line : String) : Prop where
  newline : '\n' ∉ line.toList
  first : ∃ c ∈ line.toList.head?, c ≠ ' '

theorem Solid.oneLine {line : String} (h : Solid line) : layout.OneLine line := by
  obtain ⟨c, hc, hspace⟩ := h.first
  refine ⟨h.newline, fun hhead => hspace ?_⟩
  rw [hhead, Option.mem_some_iff] at hc
  exact hc.symm

theorem Solid.ne_empty {line : String} (h : Solid line) : line ≠ "" := by
  rintro rfl
  obtain ⟨c, hc, -⟩ := h.first
  cases hc

/-- A line that reads a column begins with its name. -/
theorem first_mappingLine {c : ResultColumn} (h : IsWord c.name) (separator : String) :
    ∃ first ∈ (mappingLine c separator).toList.head?, first ≠ ' ' := by
  have hspace : ' ' ∉ c.name.toList := h.not_mem (by decide)
  obtain ⟨first, rest, hchars⟩ := List.exists_cons_of_ne_nil (l := c.name.toList)
    (by simpa using h.nonempty)
  rw [hchars, List.mem_cons, not_or] at hspace
  exact ⟨first, by simp [mappingLine, hchars], Ne.symm hspace.1⟩

theorem first_parameterClass (m : Method) :
    ∀ line ∈ units (parameterClass m), ∃ c ∈ line.toList.head?, c ≠ ' ' := by
  rw [units_parameterClass]
  simp only [List.forall_mem_cons, List.forall_mem_append, List.forall_mem_map]
  exact ⟨by simp, by simp, fun p _ => ⟨_, leads_propertyLine p.type p.fieldName, by decide⟩,
    by simp, by simp⟩

theorem first_bindings (m : Method) :
    ∀ line ∈ units (bindings m), ∃ c ∈ line.toList.head?, c ≠ ' ' := by
  rw [units_bindings]
  split
  · simp
  · simp only [List.forall_mem_cons, List.forall_mem_append, List.forall_mem_map]
    exact ⟨by simp, by simp, by simp, fun p _ => ⟨_, leads_bindingLine p, by decide⟩, by simp,
      by simp⟩

theorem first_mappingUnits {m : Method} (hm : m.Plain) :
    ∀ line ∈ mappingUnits m, ∃ c ∈ line.toList.head?, c ≠ ' ' := by
  have hcolumns := hm.columns
  unfold mappingUnits
  cases hshape : m.shape with
  | rowSequence columns =>
    rw [hshape] at hcolumns
    simp only [List.forall_mem_cons, List.forall_mem_append]
    refine ⟨by simp, by simp, fun line hline => ?_, by simp, by simp⟩
    obtain ⟨c, hc, separator, -, rfl⟩ := exists_of_mem_mappingLines hline
    exact first_mappingLine (hcolumns c hc) separator
  | scalar => simp
  | affectedCount => simp

theorem first_method {m : Method} (hm : m.Plain) :
    ∀ line ∈ units (method m), ∃ c ∈ line.toList.head?, c ≠ ' ' := by
  rw [units_method]
  simp only [List.forall_mem_cons, List.forall_mem_append]
  exact ⟨by simp, first_parameterClass m, fun _ hline => ⟨_, leads_summaryLines hline, by decide⟩,
    ⟨_, leads_signature m, by decide⟩, by simp, ⟨_, leads_call m, by decide⟩, by simp,
    first_bindings m, first_mappingUnits hm, by simp, by simp, by simp, by simp⟩

theorem solid_method {m : Method} (hm : m.Plain) : ∀ line ∈ units (method m), Solid line :=
  fun line hline => ⟨newline_not_mem_method hm.unbroken line hline, first_method hm line hline⟩

/-! ### Contexts -/

theorem head?_resultClass (m : Method) :
    ∀ line ∈ units (resultClass m), line.toList.head? ≠ some ' ' := by
  rw [units_resultClass]
  cases m.shape with
  | rowSequence columns =>
    simp only [List.forall_mem_cons, List.forall_mem_append, List.forall_mem_map]
    exact ⟨by simp, by simp, fun c _ => by simp [propertyLine], by simp, by simp, by simp⟩
  | scalar => simp
  | affectedCount => simp

/-- No line of a result class ends the region of the result classes. -/
theorem endregion_not_mem_resultClass (m : Method) : "#endregion" ∉ units (resultClass m) := by
  rw [units_resultClass]
  cases m.shape with
  | rowSequence columns =>
    intro hmem
    simp only [List.mem_cons, List.mem_append, List.mem_map, List.not_mem_nil, or_false] at hmem
    rcases hmem with h | h | ⟨c, -, h⟩ | h | h
    · exact absurd (congrArg String.toList h) (by simp)
    · exact absurd h (by decide)
    · have hleads := leads_propertyLine c.type c.name
      rw [h] at hleads
      exact absurd (hleads.unique (d := '#') (by simp [Leads])) (by decide)
    · exact absurd h (by decide)
    · exact absurd h (by decide)
  | scalar => simp
  | affectedCount => simp

theorem oneLine_steps {c : Context} (hc : c.Plain) :
    ∀ line ∈ units (steps c), layout.OneLine line := by
  have hresults : ∀ line ∈ c.methods.flatMap (fun m => units (resultClass m)),
      line.toList.head? ≠ some ' ' := by
    intro line hline
    obtain ⟨m, -, hline⟩ := List.mem_flatMap.1 hline
    exact head?_resultClass m line hline
  have hmethods : ∀ line ∈ c.methods.flatMap (fun m => units (method m) ++ [""]),
      line.toList.head? ≠ some ' ' := by
    intro line hline
    obtain ⟨m, hm, hline⟩ := List.mem_flatMap.1 hline
    rcases List.mem_append.1 hline with hline | hline
    · exact (solid_method (hc.methods m hm) line hline).oneLine.first
    · rw [List.mem_singleton.1 hline]
      decide
  refine fun line hline => ⟨newline_not_mem_steps hc.unbroken line hline, ?_⟩
  revert line
  rw [units_steps, List.flatMap_map]
  simp only [List.forall_mem_cons, List.forall_mem_append]
  and_intros <;>
    first
    | exact hresults
    | exact hmethods
    | simp

/-- Methods that are alike are written alike. -/
theorem method_eq_of_alike {m n : Method} (h : m.Alike n) :
    resultClass m = resultClass n ∧ method m = method n := by
  obtain ⟨name, procedure, parameters, shape, doc⟩ := m
  obtain ⟨name', procedure', parameters', shape', doc'⟩ := n
  obtain ⟨hname, hprocedure, hparameters, hshape, hdoc⟩ := h
  dsimp only at hname hprocedure hparameters hshape hdoc
  subst hname hprocedure hparameters hshape
  have hsummary : summary ⟨name, procedure, parameters, shape, doc⟩ =
      summary ⟨name, procedure, parameters, shape, doc'⟩ := by
    unfold summary
    cases doc with
    | none =>
      cases doc' with
      | none => rfl
      | some => cases hdoc
    | some =>
      cases doc' with
      | none => cases hdoc
      | some =>
        rw [Option.map_some, Option.map_some, Option.some.injEq] at hdoc
        dsimp only
        rw [docLines_eq_iff.2 hdoc]
  unfold method
  rw [hsummary]
  exact ⟨rfl, rfl⟩

theorem methods_eq_of_alike {ms ns : List Method} (h : List.Forall₂ Method.Alike ms ns) :
    ms.flatMap resultClass = ns.flatMap resultClass ∧
      (ms.flatMap fun m => method m ++ [WriterStep.blank]) =
        ns.flatMap fun n => method n ++ [WriterStep.blank] := by
  induction h with
  | nil => exact ⟨rfl, rfl⟩
  | cons hfirst _ ih =>
    obtain ⟨hresult, hmethod⟩ := method_eq_of_alike hfirst
    simp only [List.flatMap_cons, hresult, hmethod, ih, and_self]

/-- Contexts that are alike have the same text. -/
theorem render_eq_of_alike {c d : Context} (hnamespace : c.namespaceName = d.namespaceName)
    (hname : c.name = d.name) (hmethods : List.Forall₂ Method.Alike c.methods d.methods) :
    render c = render d := by
  obtain ⟨hresults, hblocks⟩ := methods_eq_of_alike hmethods
  unfold render steps contextClass
  rw [hnamespace, hname, hresults, hblocks]

/-- Contexts of plain names that have the same text are alike. -/
theorem context_alike_of_render_eq {c d : Context} (hc : c.Plain) (hd : d.Plain) {text : String}
    (hrender : render c = .ok text) (hrender' : render d = .ok text) :
    c.namespaceName = d.namespaceName ∧ c.name = d.name ∧
      List.Forall₂ Method.Alike c.methods d.methods := by
  have hunits := Layout.units_eq_of_render_eq (oneLine_steps hc) (oneLine_steps hd) hrender hrender'
  rw [units_steps, units_steps] at hunits
  simp only [List.cons.injEq, true_and, String.append_right_inj, String.append_left_inj] at hunits
  obtain ⟨hnamespace, hname, -, -, hrest⟩ := hunits
  -- the region of the result classes ends with the first line that ends a region
  have hregion : ∀ k : Context,
      "#endregion" ∉ k.methods.flatMap fun m => units (resultClass m) := by
    intro k hmem
    obtain ⟨m, -, hm⟩ := List.mem_flatMap.1 hmem
    exact endregion_not_mem_resultClass m hm
  obtain ⟨-, hrest⟩ := append_cons_inj (hregion c) (hregion d) hrest
  -- a method ends with its first empty line: even an empty line of a doc begins with slashes
  have hblocks := List.append_cancel_right (List.cons.inj hrest).2
  have hsolid : ∀ {k : Context}, k.Plain →
      ∀ block ∈ k.methods.map fun m => units (method m), "" ∉ block := by
    rintro k hk _ hblock hempty
    obtain ⟨m, hm, rfl⟩ := List.mem_map.1 hblock
    exact (solid_method (hk.methods m hm) _ hempty).ne_empty rfl
  have hmethods := eq_of_flatMap_append_mark (hsolid hc) (hsolid hd) hblocks
  exact ⟨hnamespace, hname, forall₂_of_map_eq hmethods fun m hm n hn =>
    method_alike_of_units_eq (hc.methods m hm) (hd.methods n hn)⟩

/-- A context of plain names can be rendered: no column name begins like a delimiter. -/
theorem exists_render_of_plain {c : Context} (hc : c.Plain) : ∃ text, render c = .ok text := by
  refine (exists_render_iff c).2 (room_of_forall_eq_zero ?_ (by decide) (by decide))
  simp only [List.mem_map, pulls]
  rintro _ ⟨m, hm, rfl⟩ _ hx
  obtain ⟨column, hcolumn, rfl⟩ := List.mem_map.1 hx
  have hword := (hc.methods m hm).columns column hcolumn
  refine pull_eq_zero fun first hfirst => ?_
  have hfirst := hword.chars first (List.mem_of_mem_head? hfirst)
  constructor <;> rintro rfl <;> simp [isWordChar] at hfirst

/-- **Nothing is lost.** A context of plain names has a C# text. Another such context has the same
text exactly if it has the same namespace and the same name, and as many methods, which are the same
one by one but for the blanks around the lines of their docs. -/
theorem exists_render_eq_ok_iff_alike {c d : Context} (hc : c.Plain) (hd : d.Plain) :
    ∃ text, render c = .ok text ∧
      (render d = .ok text ↔ c.namespaceName = d.namespaceName ∧ c.name = d.name ∧
        List.Forall₂ Method.Alike c.methods d.methods) := by
  obtain ⟨text, htext⟩ := exists_render_of_plain hc
  refine ⟨text, htext, context_alike_of_render_eq hc hd htext, ?_⟩
  rintro ⟨hnamespace, hname, hmethods⟩
  rw [← render_eq_of_alike hnamespace hname hmethods, htext]

/-- A context of one method with a given doc comment. -/
def documented (doc : String) : Context where
  namespaceName := "Acme.Shop"
  name := "Shop"
  methods := [⟨"Find", "dbo.Find", [⟨"@Id", .int32⟩, ⟨"@@Id", .int64⟩],
    .rowSequence [⟨"Id", .int32⟩, ⟨"Name", .string⟩], some doc⟩]

theorem plain_documented (doc : String) : (documented doc).Plain := by
  have hword : IsWord "Id" ∧ IsWord "Name" ∧ IsWord "Find" ∧ IsWord "Shop" :=
    ⟨.of_all (by decide) (by rfl), .of_all (by decide) (by rfl), .of_all (by decide) (by rfl),
      .of_all (by decide) (by rfl)⟩
  have hdotted : IsDotted "dbo.Find" ∧ IsDotted "Acme.Shop" :=
    ⟨.of_all (by decide) (by rfl), .of_all (by decide) (by rfl)⟩
  refine ⟨hword.2.2.2, hdotted.2, List.forall_mem_singleton.2 ⟨hword.2.2.1, hdotted.1, ?_, ?_⟩⟩
  · exact List.forall_mem_cons.2 ⟨⟨1, "Id", by simp, hword.1⟩,
      List.forall_mem_singleton.2 ⟨2, "Id", by simp [List.replicate], hword.1⟩⟩
  · exact List.forall_mem_cons.2 ⟨hword.1, List.forall_mem_singleton.2 hword.2.1⟩

/-- Two contexts that differ in the blanks of a doc comment have the same text, and a third one,
with other lines in it, has another. -/
theorem exists_render_eq_ok_iff_alike_documented :
    let c := documented "\x7d\n#end"
    let d := documented "\x7d \n\t#end"
    let e := documented "\x7d#end"
    (c.Plain ∧ d.Plain ∧ e.Plain) ∧ (∃ text, render c = .ok text ∧ render d = .ok text) ∧
      ∃ text, render c = .ok text ∧ render e ≠ .ok text := by
  intro c d e
  have hlines : trimmedLines "\x7d\n#end" = trimmedLines "\x7d \n\t#end" := by decide +kernel
  have hother : trimmedLines "\x7d\n#end" ≠ trimmedLines "\x7d#end" := by decide +kernel
  have hc : c.Plain := plain_documented _
  refine ⟨⟨hc, plain_documented _, plain_documented _⟩, ?_, ?_⟩
  · obtain ⟨text, htext, hiff⟩ :=
      exists_render_eq_ok_iff_alike hc (plain_documented "\x7d \n\t#end")
    exact ⟨text, htext, hiff.2 ⟨rfl, rfl, .cons ⟨rfl, rfl, rfl, rfl, congrArg some hlines⟩ .nil⟩⟩
  · obtain ⟨text, htext, hiff⟩ := exists_render_eq_ok_iff_alike hc (plain_documented "\x7d#end")
    refine ⟨text, htext, fun hsame => ?_⟩
    obtain ⟨-, -, hmethods⟩ := hiff.1 hsame
    cases hmethods with
    | cons hfirst _ => exact hother (Option.some.inj hfirst.doc)

end CSharp

end Sprocket
