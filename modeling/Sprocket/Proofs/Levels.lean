import Sprocket.Proofs.Casing
import Sprocket.Proofs.Rendering

/-!
# Levels

The depth that methods are written at. Names that begin with a brace aside, it is the same for every
method of a context, whatever stands in the methods before it.

* `Context.Unbraced`: names that are not taken for braces;
* `Layout.Reaches`: the depth that steps lead to;
* `Backend.Levels`: every method is written at the level of the backend, and the end is at depth 0;
* `CSharp.levels`, `Typings.levels`, `Bindings.levels`: when each backend does so.
-/

namespace Sprocket

/-! ### Names -/

/-- A text that begins with no brace. -/
def Naming.Unbraced (s : List Char) : Prop := ∀ c ∈ s.head?, c ≠ '\x7b' ∧ c ≠ '\x7d'

/-- No column begins with a brace, and none does without its marks; nor does a parameter. -/
structure Method.Unbraced (m : Method) : Prop where
  columns : ∀ c ∈ m.shape.columns, Naming.Unbraced c.name.toList
  unmarkedColumns : ∀ c ∈ m.shape.columns, Naming.Unbraced (Naming.unmarked c.name.toList)
  unmarkedParameters : ∀ p ∈ m.parameters, Naming.Unbraced (Naming.unmarked p.name.toList)

/-- A context whose columns and parameters do not begin like a brace. -/
def Context.Unbraced (c : Context) : Prop := ∀ m ∈ c.methods, m.Unbraced

instance (s : List Char) : Decidable (Naming.Unbraced s) :=
  Option.decidableForallMem s.head?

instance (m : Method) : Decidable m.Unbraced :=
  decidable_of_iff ((∀ c ∈ m.shape.columns, Naming.Unbraced c.name.toList) ∧
      (∀ c ∈ m.shape.columns, Naming.Unbraced (Naming.unmarked c.name.toList)) ∧
      ∀ p ∈ m.parameters, Naming.Unbraced (Naming.unmarked p.name.toList))
    ⟨fun h => ⟨h.1, h.2.1, h.2.2⟩, fun h => ⟨h.columns, h.unmarkedColumns, h.unmarkedParameters⟩⟩

instance (c : Context) : Decidable c.Unbraced :=
  inferInstanceAs (Decidable (∀ m ∈ c.methods, m.Unbraced))

theorem Naming.Unbraced.client {name : String} (h : Unbraced (unmarked name.toList))
    (camel : Bool) : Unbraced (client camel name).toList := by
  intro c hc
  rw [Naming.client, String.toList_ofList] at hc
  constructor <;> rintro rfl
  · exact (h _ (head?_of_head?_clientChars hc (by decide))).1 rfl
  · exact (h _ (head?_of_head?_clientChars hc (by decide))).2 rfl

/-! ### Depth -/

namespace Layout

variable {l : Layout}

/-- Steps can be carried out from nothing, and lead to a depth. -/
def Reaches (l : Layout) (steps : List WriterStep) (depth : Nat) : Prop :=
  ∃ w, (Writer.empty l).run steps = .ok w ∧ w.depth = depth

theorem reaches_of_drift {steps : List WriterStep} {depth : Nat} (h : l.Sustains 0 steps)
    (hdrift : l.drift steps = depth) : l.Reaches steps depth := by
  refine ⟨_, Writer.run_eq_ok (w := .empty l) h, ?_⟩
  change (((0 : Nat) : Int) + l.drift steps).toNat = depth
  omega

theorem drift_flatMap_eq_zero {α : Type} {as : List α} {steps : α → List WriterStep}
    (h : ∀ a ∈ as, l.drift (steps a) = 0) : l.drift (as.flatMap steps) = 0 := by
  induction as with
  | nil => rfl
  | cons a rest ih =>
    obtain ⟨ha, hrest⟩ := List.forall_mem_cons.1 h
    rw [List.flatMap_cons, drift_append, ha, ih hrest, add_zero]

end Layout

namespace CSharp

theorem drift_mapping (m : Method) : layout.drift (mapping m) = (pulls m).sum := by
  unfold mapping pulls
  cases m.shape with
  | rowSequence columns =>
    have hname : layout.shift (.emit ("mapping : reader => new " ++ m.name ++ "Result()")) = 0 :=
      Leads.shift_braces (c := 'm') (by simp [Leads]) (by decide)
    have hlines : layout.drift ((mappingLines columns).map .emit) =
        (columns.map fun c => pull c.name).sum := by
      rw [Layout.drift, shift_mappingLines]
    simp [hname, hlines, ReturnShape.columns]
  | scalar => rfl
  | affectedCount => rfl

/-- A method changes the depth by what its columns do where they are read. -/
theorem drift_method (m : Method) : layout.drift (method m) = (pulls m).sum := by
  have hend : layout.shift (.emit ");") = 0 ∧ layout.shift (.emit "#endregion") = 0 := by decide
  simp only [method, body, List.cons_append, List.nil_append, Layout.drift_cons,
    Layout.drift_append, Layout.drift_nil, shift_region, (inert_parameterClass m).drift,
    (inert_summary m).drift, shift_signature, shift_open, shift_call, Layout.shift_indent,
    shift_query, (inert_bindings m).drift, drift_mapping, Layout.shift_dedent, hend, shift_close]
  omega

theorem forall_pulls_eq_zero {m : Method} (h : m.Unbraced) : ∀ x ∈ pulls m, x = 0 := by
  intro x hx
  obtain ⟨c, hc, rfl⟩ := List.mem_map.1 hx
  exact pull_eq_zero (h.columns c hc)

theorem drift_method_eq_zero {m : Method} (h : m.Unbraced) : layout.drift (method m) = 0 := by
  rw [drift_method, List.sum_eq_zero (forall_pulls_eq_zero h)]

/-- What stands before a method that comes after others. -/
def before (c : Context) (others : List Method) : List WriterStep :=
  opening c ++ others.flatMap fun m => method m ++ [.blank]

theorem exists_steps_eq {c : Context} {others after : List Method} {m : Method}
    (h : c.methods = others ++ m :: after) :
    ∃ rest, steps c = before c others ++ (method m ++ rest) := by
  refine ⟨.blank :: ((after.flatMap fun m => method m ++ [WriterStep.blank]) ++
    [.emit "\x7d", .emit "\x7d"]), ?_⟩
  simp [steps_eq, h, before]

theorem sustains_steps {c : Context} (h : c.Unbraced) : layout.Sustains 0 (steps c) := by
  refine Layout.exists_render_iff.1 ((exists_render_iff c).2 ?_)
  refine room_of_forall_eq_zero (fun pulls hpulls => ?_) (by decide) (by decide)
  obtain ⟨m, hm, rfl⟩ := List.mem_map.1 hpulls
  exact forall_pulls_eq_zero (h m hm)

end CSharp

namespace Typings

/-- The steps of a class. -/
theorem inert_class {name : String} {inner : List WriterStep} (hname : Leads 'e' name)
    (h : layout.Inert inner) :
    layout.Inert ([.emit name, .emit "\x7b"] ++ inner ++ [.emit "\x7d"]) :=
  .cons (hname.shift_braces (by decide)) (.block shift_open shift_close h .nil)

theorem shift_field_eq_zero {camel : Bool} {name : String} {type : HostType}
    (h : Naming.Unbraced (Naming.unmarked name.toList)) :
    layout.shift (field camel name type) = 0 := by
  rw [shift_field, pull_eq_zero (h.client camel)]

theorem inert_method {m : Method} (h : m.Unbraced) (camel : Bool) :
    layout.Inert (method camel m) := by
  refine .append (inert_class (by simp [Leads]) ?_) ?_
  · cases hshape : m.shape with
    | rowSequence columns =>
      refine .of_shift_eq_zero fun s hs => ?_
      obtain ⟨c, hc, rfl⟩ := List.mem_map.1 hs
      exact shift_field_eq_zero (h.unmarkedColumns c (by rwa [hshape]))
    | scalar => exact inert_comment (by simp [Leads])
    | affectedCount => exact inert_comment (by simp [Leads])
  · rw [parameterClass, List.append_assoc [_, _]]
    refine inert_class (by simp [Leads]) (.append ?_ (.of_shift_eq_zero fun s hs => ?_))
    · split
      · exact inert_comment (by simp [Leads])
      · exact .nil
    · obtain ⟨p, hp, rfl⟩ := List.mem_map.1 hs
      exact shift_field_eq_zero (h.unmarkedParameters p hp)

theorem methods_cons (camel : Bool) (m : Method) {ms : List Method} (h : ms ≠ []) :
    methods camel (m :: ms) = method camel m ++ [.blank] ++ methods camel ms := by
  obtain ⟨m', ms, rfl⟩ := List.exists_cons_of_ne_nil h
  rfl

theorem inert_methods {ms : List Method} (h : ∀ m ∈ ms, m.Unbraced) (camel : Bool) :
    layout.Inert (methods camel ms) := by
  induction ms using methods.induct with
  | case1 => exact .nil
  | case2 m => exact inert_method (h m List.mem_cons_self) camel
  | case3 m ms hms ih =>
    obtain ⟨hm, hrest⟩ := List.forall_mem_cons.1 h
    rw [methods_cons camel m (by simpa using hms)]
    exact .append (.append (inert_method hm camel) (.cons rfl .nil)) (ih hrest)

/-- An empty line stands behind every method but the last one. -/
theorem exists_methods_append_cons (camel : Bool) (before : List Method) (m : Method)
    (after : List Method) :
    ∃ rest, methods camel (before ++ m :: after) =
      (before.flatMap fun m => method camel m ++ [WriterStep.blank]) ++
        (method camel m ++ rest) := by
  induction before with
  | nil =>
    cases after with
    | nil => exact ⟨[], (List.append_nil _).symm⟩
    | cons m' after =>
      rw [List.nil_append, methods_cons camel m (by simp), List.append_assoc]
      exact ⟨_, rfl⟩
  | cons first before ih =>
    obtain ⟨rest, hrest⟩ := ih
    rw [List.cons_append, methods_cons camel first (by simp), hrest, List.flatMap_cons]
    exact ⟨rest, (List.append_assoc ..).symm⟩

end Typings

namespace Backend

/-- The layout of a backend's artifacts. -/
def layout : Backend → Layout
  | csharp => CSharp.layout
  | typescript => Typings.layout
  | angular => Bindings.layout

/-- The steps by which a backend writes a context. -/
def steps (b : Backend) (camel : Bool) (c : Context) : List WriterStep :=
  match b with
  | csharp => CSharp.steps c
  | typescript => Typings.steps camel c
  | angular => Bindings.steps camel c

/-- The block of a method. -/
def method (b : Backend) (camel : Bool) (m : Method) : List WriterStep :=
  match b with
  | csharp => CSharp.method m
  | typescript => Typings.method camel m
  | angular => Bindings.method camel m

/-- What a backend writes of a context before the block that comes after those of `others`. -/
def before (b : Backend) (camel : Bool) (c : Context) (others : List Method) : List WriterStep :=
  match b with
  | csharp => CSharp.before c others
  | typescript =>
    [.emit ("export namespace " ++ c.name), .emit "\x7b"]
      ++ others.flatMap fun m => Typings.method camel m ++ [.blank]
  | angular =>
    .emit ("<!-- Angular bindings for " ++ c.name ++ " -->")
      :: (others.flatMap fun m => .blank :: Bindings.method camel m) ++ [.blank]

/-- The depth of the blocks of methods. -/
def level : Backend → Nat
  | csharp => 2
  | typescript => 1
  | angular => 0

theorem render_eq (b : Backend) (camel : Bool) (c : Context) :
    b.render camel c = b.layout.render (b.steps camel c) := by
  cases b <;> rfl

/-- A backend writes the block of every method at its level, and leaves nothing open at the end. -/
structure Levels (b : Backend) (camel : Bool) (c : Context) : Prop where
  renders : ∃ text, b.render camel c = .ok text ∧ b.layout.render (b.steps camel c) = .ok text
  closed : b.layout.Reaches (b.steps camel c) 0
  methods : ∀ others m after, c.methods = others ++ m :: after →
    (∃ rest, b.steps camel c = b.before camel c others ++ (b.method camel m ++ rest)) ∧
      b.layout.Reaches (b.before camel c others) b.level ∧
      b.layout.Reaches (b.before camel c others ++ b.method camel m) b.level

variable {b : Backend} {camel : Bool} {c : Context}

theorem exists_steps_eq (b : Backend) (camel : Bool) {others after : List Method} {m : Method}
    (h : c.methods = others ++ m :: after) :
    ∃ rest, b.steps camel c = b.before camel c others ++ (b.method camel m ++ rest) := by
  cases b with
  | csharp => exact CSharp.exists_steps_eq h
  | typescript =>
    obtain ⟨rest, hrest⟩ := Typings.exists_methods_append_cons camel others m after
    refine ⟨rest ++ [.emit "\x7d"], ?_⟩
    rw [steps, Typings.steps, h, hrest]
    simp only [before, method, List.append_assoc]
  | angular =>
    refine ⟨after.flatMap fun m => .blank :: Bindings.method camel m, ?_⟩
    simp [steps, Bindings.steps, h, before, method]

/-- Blocks that leave the depth as it is are all at the level of what stands before the first. -/
theorem levels_of_drift (hsustains : b.layout.Sustains 0 (b.steps camel c))
    (hsteps : b.layout.drift (b.steps camel c) = 0)
    (hbefore : ∀ others ⊆ c.methods, b.layout.drift (b.before camel c others) = b.level)
    (hmethod : ∀ m ∈ c.methods, b.layout.drift (b.method camel m) = 0) : b.Levels camel c where
  renders := by
    obtain ⟨text, htext⟩ := Layout.exists_render_iff.2 hsustains
    exact ⟨text, (render_eq b camel c).trans htext, htext⟩
  closed := Layout.reaches_of_drift hsustains hsteps
  methods others m after h := by
    obtain ⟨rest, hsplit⟩ := exists_steps_eq b camel h
    have hm : m ∈ c.methods := by simp [h]
    have hothers : others ⊆ c.methods := h ▸ List.subset_append_left others _
    rw [hsplit, ← List.append_assoc, Layout.sustains_append] at hsustains
    refine ⟨⟨rest, hsplit⟩, Layout.reaches_of_drift (Layout.sustains_append.1 hsustains.1).1
      (hbefore others hothers), Layout.reaches_of_drift hsustains.1 ?_⟩
    rw [Layout.drift_append, hbefore others hothers, hmethod m hm, add_zero]

end Backend

theorem CSharp.levels {c : Context} (h : c.Unbraced) (camel : Bool) :
    Backend.csharp.Levels camel c := by
  have hothers : ∀ others ⊆ c.methods,
      layout.drift (others.flatMap fun m => method m ++ [WriterStep.blank]) = 0 := by
    refine fun others hsub => Layout.drift_flatMap_eq_zero fun m hm => ?_
    rw [Layout.drift_append, drift_method_eq_zero (h m (hsub hm))]
    rfl
  refine Backend.levels_of_drift (sustains_steps h) ?_ (fun others hsub => ?_)
    fun m hm => drift_method_eq_zero (h m hm)
  · change layout.drift (steps c) = 0
    rw [steps_eq, Layout.drift_append, Layout.drift_append,
      hothers c.methods (List.Subset.refl _), (@sustains_opening 0 c []).1]
    decide
  · change layout.drift (opening c ++ _) = 2
    rw [Layout.drift_append, hothers others hsub, (@sustains_opening 0 c []).1]
    rfl

theorem Typings.levels {c : Context} (h : c.Unbraced) (camel : Bool) :
    Backend.typescript.Levels camel c := by
  have hnamespace : layout.shift (.emit ("export namespace " ++ c.name)) = 0 :=
    Leads.shift_braces (c := 'e') (by simp [Leads]) (by decide)
  have hsteps : layout.Inert (steps camel c) :=
    .cons hnamespace (.block shift_open shift_close (inert_methods h camel) .nil)
  refine Backend.levels_of_drift (hsteps.sustains 0 (le_refl 0)) hsteps.drift
    (fun others hsub => ?_) fun m hm => (inert_method (h m hm) camel).drift
  have hothers : layout.Inert (others.flatMap fun m => method camel m ++ [WriterStep.blank]) :=
    .flatMap fun m hm => .append (inert_method (h m (hsub hm)) camel) (.cons rfl .nil)
  change layout.drift ([.emit ("export namespace " ++ c.name), .emit "\x7b"] ++ _) = 1
  rw [Layout.drift_append, hothers.drift, Layout.drift_cons, hnamespace]
  decide

theorem Bindings.levels (camel : Bool) (c : Context) : Backend.angular.Levels camel c := by
  have hblocks : ∀ ms : List Method,
      layout.Inert (.emit ("<!-- Angular bindings for " ++ c.name ++ " -->") ::
        ms.flatMap fun m => .blank :: method camel m) := fun ms =>
    .cons (shift_markup (by simp [Leads])) (.flatMap fun m _ => .cons rfl (inert_method camel m))
  exact Backend.levels_of_drift ((hblocks c.methods).sustains 0 (le_refl 0))
    (hblocks c.methods).drift (fun others _ => ((hblocks others).append (.cons rfl .nil)).drift)
    fun m _ => (inert_method camel m).drift

end Sprocket
