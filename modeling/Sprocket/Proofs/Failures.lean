import Sprocket.Proofs.Build
import Sprocket.Proofs.Validation

/-!
# How a build fails

The build of a group from a valid manifest can fail for two reasons only: the remote system does
not resolve a procedure, or a declared return type is no known token. Either way the error names
the first declaration that cannot be resolved.

* `BuildError.procedure?`: the procedure an error names;
* `FailureOf`: what can go wrong with a declaration that has its names;
* `Resolvable`: nothing does;
* `ShapeKind.Fits`: what a single type and result columns say of a shape;
* `method_eq_error`, `methods_eq_error`: the failures of one declaration, and of a list of them;
* `context_of_read`: the same of the groups of a manifest that was read.
-/

namespace Sprocket

/-- The procedure an error names as the one that cannot be resolved. -/
def BuildError.procedure? : BuildError → Option String
  | .returnType procedure _ => some procedure
  | .resolution e => some e.procedure
  | .configuration _ => none
  | .method _ => none

/-- The errors that can come of a declaration which has a name and a method name: a return type
that is no known token, or an error of resolution. -/
inductive FailureOf (r : Remote) (d : Declaration) : BuildError → Prop
  | unknownReturn {token : String} (untried : d.trial = []) (declared : d.returns = some token)
      (unknown : TokenType.ofToken? token.toList = none) :
      FailureOf r d (.returnType d.name (.unknownToken token))
  | shape {e : ResolutionError} (tried : d.trial ≠ [])
      (failed : (Resolution.shapeByTrial r d.name d.trial).result = .error e) :
      FailureOf r d (.resolution e)
  | parameters {e : ResolutionError}
      (failed : (Resolution.parameters r d.name).result = .error e) :
      FailureOf r d (.resolution e)

/-- A declaration can be resolved: the remote system can be reached, the sample arguments can be
bound, and there is a method that says what the remote system reports. -/
structure Resolvable (r : Remote) (d : Declaration) : Prop where
  reachable : r.connectFailure = none
  bound : ∀ e ∈ d.trial, ∃ b, TrialBinding.ofExpression e = .ok b
  described : ∃ m, MethodOf r d m

/-- What the type of a single value and the result columns are in a shape of a kind. -/
def ShapeKind.Fits : ShapeKind → ReturnShape → Prop
  | .scalar, shape => shape.scalarType? ≠ none ∧ shape.columns = []
  | .rowSequence, shape => shape.scalarType? = none ∧ 2 ≤ shape.columns.length
  | .affectedCount, shape => shape.scalarType? = none ∧ shape.columns = []

/-! ### Names of errors -/

namespace TrialBinding

theorem procedure_of_bindAll_error {procedure : String} {expressions : List String}
    {e : ResolutionError} (h : bindAll procedure expressions = .error e) :
    e.procedure = procedure := by
  rw [bindAll_eq_mapM, mapM_eq_error_iff] at h
  obtain ⟨-, expression, -, -, -, hfailed⟩ := h
  obtain ⟨cause, -, rfl⟩ := mapError_eq_error_iff.1 hfailed
  rfl

end TrialBinding

namespace Resolution

variable {r : Remote} {dialect : Dialect} {procedure : String} {e : ResolutionError}

theorem procedure_of_columnType_error {column : WireColumn}
    (h : columnType dialect procedure column = .error e) : e.procedure = procedure := by
  unfold columnType at h
  cases ht : dialect.hostType column.wireType <;> rw [ht] at h <;> cases h
  rfl

theorem procedure_of_typed_error {α : Type} {build : String → HostType → α}
    {columns : List WireColumn} (h : typed dialect procedure build columns = .error e) :
    e.procedure = procedure := by
  rw [typed_eq_mapM, mapM_eq_error_iff] at h
  obtain ⟨-, column, -, -, -, hfailed⟩ := h
  exact procedure_of_columnType_error (map_eq_error_iff.1 hfailed)

theorem procedure_of_shapeOfColumns_error {columns : List WireColumn}
    (h : shapeOfColumns dialect procedure columns = .error e) : e.procedure = procedure := by
  unfold shapeOfColumns at h
  split at h
  · cases h
  · exact procedure_of_columnType_error (map_eq_error_iff.1 h)
  · exact procedure_of_typed_error (map_eq_error_iff.1 h)

/-- A failed introspection names the procedure it was asked about. -/
theorem procedure_of_parameters_error (h : (parameters r procedure).result = .error e) :
    e.procedure = procedure := by
  rw [parameters, ← Trace.bind_eq, Trace.result_bind_eq_error_iff] at h
  obtain hasked | ⟨rows, -, htyped⟩ := h
  · obtain ⟨cause, -, rfl⟩ := Trace.result_relabel_eq_error_iff.1 hasked
    rfl
  · exact procedure_of_typed_error htyped

theorem procedure_of_shapeOf_error {bindings : List TrialBinding}
    (h : (shapeOf r procedure bindings).result = .error e) : e.procedure = procedure := by
  rw [shapeOf, ← Trace.bind_eq, Trace.result_bind_eq_error_iff] at h
  obtain hasked | ⟨sets, -, hshape⟩ := h
  · obtain ⟨cause, -, rfl⟩ := Trace.result_relabel_eq_error_iff.1 hasked
    rfl
  · exact procedure_of_shapeOfColumns_error hshape

/-- A failed trial names the procedure that was tried. -/
theorem procedure_of_shapeByTrial_error {expressions : List String}
    (h : (shapeByTrial r procedure expressions).result = .error e) : e.procedure = procedure := by
  rw [shapeByTrial, ← Trace.bind_eq, Trace.result_bind_eq_error_iff] at h
  obtain hbound | ⟨bindings, -, hshape⟩ := h
  · exact TrialBinding.procedure_of_bindAll_error hbound
  · exact procedure_of_shapeOf_error hshape

end Resolution

/-- Whatever goes wrong with a declaration, the error names its procedure. -/
theorem FailureOf.procedure_eq {r : Remote} {d : Declaration} {e : BuildError}
    (h : FailureOf r d e) : e.procedure? = some d.name := by
  cases h with
  | unknownReturn => rfl
  | shape _ failed =>
    exact congrArg some (Resolution.procedure_of_shapeByTrial_error failed)
  | parameters failed =>
    exact congrArg some (Resolution.procedure_of_parameters_error failed)

/-! ### Shapes -/

/-- A shape whose rows have at least two columns fits one kind and no other. -/
theorem ReturnShape.existsUnique_fits {shape : ReturnShape}
    (h : ∀ columns, shape = .rowSequence columns → 2 ≤ columns.length) :
    ∃! kind : ShapeKind, kind.Fits shape := by
  refine ⟨shape.kind, ?_, ?_⟩
  · cases shape with
    | rowSequence columns => exact ⟨rfl, h columns rfl⟩
    | scalar type => exact ⟨Option.some_ne_none type, rfl⟩
    | affectedCount => exact ⟨rfl, rfl⟩
  · intro kind hkind
    cases shape with
    | rowSequence columns =>
      have htwo := h columns rfl
      cases kind with
      | rowSequence => rfl
      | scalar => exact absurd rfl hkind.1
      | affectedCount =>
        obtain rfl : columns = [] := hkind.2
        simp at htwo
    | scalar type =>
      cases kind with
      | scalar => rfl
      | rowSequence => cases hkind.1
      | affectedCount => cases hkind.1
    | affectedCount =>
      cases kind with
      | affectedCount => rfl
      | scalar => exact absurd rfl hkind.1
      | rowSequence => simp [ShapeKind.Fits, ReturnShape.columns] at hkind

/-- The shape of a described method has two columns or more where it has rows. -/
theorem MethodOf.two_le {r : Remote} {d : Declaration} {m : Method} (h : MethodOf r d m)
    (columns : List ResultColumn) (hc : m.shape = .rowSequence columns) : 2 ≤ columns.length := by
  by_cases htrial : d.trial = []
  · exact absurd hc ((h.declared htrial).not_rowSequence columns)
  · obtain ⟨sets, -, observed⟩ := h.tried htrial
    exact observed.two_le columns hc

namespace Build

variable {r : Remote} {d : Declaration} {e : BuildError}

/-! ### Failures of one declaration -/

theorem shapeByDeclaration_eq_error (untried : d.trial = [])
    (h : shapeByDeclaration d = .error e) : FailureOf r d e := by
  unfold shapeByDeclaration at h
  cases hreturns : d.returns with
  | none =>
    rw [hreturns] at h
    cases h
  | some token =>
    unfold TokenType.ofToken at h
    cases htoken : TokenType.ofToken? token.toList with
    | some type => simp [hreturns, htoken] at h
    | none =>
      simp only [hreturns, htoken, Except.error.injEq] at h
      exact h ▸ .unknownReturn untried hreturns htoken

theorem shapeByTrial_eq_error (tried : d.trial ≠ [])
    (h : (shapeByTrial r d).result = .error e) : FailureOf r d e := by
  have hrest : (do
      let bindings ← resolving (.ofExcept (TrialBinding.bindAll d.name d.trial))
      announce (.trialExecuting d.name bindings.length)
      resolving (Resolution.shapeOf r d.name bindings) : Run ReturnShape).result = .error e := by
    unfold shapeByTrial at h
    cases hreturns : d.returns with
    | none => simpa [hreturns] using h
    | some token => simpa [hreturns] using h
  rw [Trace.result_bind_eq_error_iff] at hrest
  -- binding and calling are the two parts of a trial
  obtain hbound | ⟨bindings, hbound, hcalled⟩ := hrest
  · obtain ⟨cause, hcause, rfl⟩ := Trace.result_relabel_eq_error_iff.1 hbound
    refine .shape tried ?_
    rw [Resolution.shapeByTrial_of_error hcause, Trace.fail_result]
  · rw [announce, Trace.tell_bind_result] at hcalled
    obtain ⟨cause, hcause, rfl⟩ := Trace.result_relabel_eq_error_iff.1 hcalled
    refine .shape tried ?_
    rw [Resolution.shapeByTrial_of_ok (resolving_eq_ok_iff.1 hbound), hcause]

theorem shape_eq_error (h : (shape r d).result = .error e) : FailureOf r d e := by
  unfold shape Declaration.isTrial at h
  by_cases htrial : d.trial = []
  · exact shapeByDeclaration_eq_error htrial (by simpa [htrial] using h)
  · exact shapeByTrial_eq_error htrial (by simpa [htrial] using h)

/-- A shape that was found has two columns or more where it has rows. -/
theorem two_le_of_shape {found : ReturnShape} (h : (shape r d).result = .ok found)
    (columns : List ResultColumn) (hc : found = .rowSequence columns) : 2 ≤ columns.length := by
  obtain ⟨tried, declared⟩ := shape_eq_ok_iff.1 h
  by_cases htrial : d.trial = []
  · exact absurd hc ((declared htrial).not_rowSequence columns)
  · obtain ⟨-, -, sets, -, observed⟩ := tried htrial
    exact observed.two_le columns hc

/-- A declaration with its names fails by its shape or by its parameters: what was resolved always
makes a method. -/
theorem method_eq_error (hmethod : d.methodName ≠ "") (hname : d.name ≠ "")
    (h : (method r d).result = .error e) : FailureOf r d e := by
  simp only [method, announce, Trace.tell_bind_result, Trace.result_bind_eq_error_iff,
    Trace.ofExcept_result, Trace.pure_eq] at h
  obtain hshape | ⟨found, hfound, hparameters | ⟨parameters, -, hmake | ⟨m, -, hdone⟩⟩⟩ := h
  · exact shape_eq_error hshape
  · obtain ⟨cause, hcause, rfl⟩ := Trace.result_relabel_eq_error_iff.1 hparameters
    exact .parameters hcause
  · have hmade : Method.make d.methodName d.name parameters found d.doc =
        .ok ⟨d.methodName, d.name, parameters, found, d.doc⟩ :=
      Method.make_eq_ok_iff.2 ⟨hmethod, hname, two_le_of_shape hfound, rfl⟩
    rw [hmade] at hmake
    cases hmake
  · cases hdone

/-- A declaration with its names is built into a method exactly if it can be resolved. -/
theorem exists_method_iff (hmethod : d.methodName ≠ "") (hname : d.name ≠ "") :
    (∃ m, (method r d).result = .ok m) ↔ Resolvable r d := by
  simp only [method_eq_ok_iff]
  constructor
  · rintro ⟨m, -, -, reachable, bound, hm⟩
    exact ⟨reachable, bound, m, hm⟩
  · rintro ⟨reachable, bound, m, hm⟩
    exact ⟨m, hmethod, hname, reachable, bound, hm⟩

/-! ### Failures of a list of declarations -/

/-- The build of declarations with names fails with the error of the first one whose method cannot
be built. -/
theorem methods_eq_error {context : String} {number : Nat} {ds : List Declaration}
    (hnames : ∀ d ∈ ds, Text.allBlank d.name = false)
    (h : (methods r context number ds).result = .error e) :
    ∃ before d after, ds = before ++ d :: after ∧
      (∀ p ∈ before, ∃ m, (method r p).result = .ok m) ∧ (method r d).result = .error e := by
  obtain ⟨before, ms, d, after, rfl, hbefore, ⟨hblank, -, -⟩ | ⟨-, hd, -⟩⟩ :=
    methods_events_of_error h
  · have hnamed := hnames d (by simp)
    rw [hblank] at hnamed
    cases hnamed
  · refine ⟨before, d, after, rfl, fun p hp => ?_, hd⟩
    obtain ⟨m, -, hm⟩ := exists_mem_of_forall₂ hbefore.flip hp
    exact ⟨m, hm⟩

end Build

/-! ### Valid manifests -/

namespace Identifier

/-- Only characters that are not blank begin an identifier. -/
theorem IsStart.not_isBlank {c : Char} (h : IsStart c) : Text.isBlank c = false := by
  have hrange : 65 ≤ c.toNat ∧ c.toNat ≤ 122 := by
    simp only [IsStart, Char.le_def, UInt32.le_iff_toNat_le] at h
    rcases h with ⟨hlow, hhigh⟩ | ⟨hlow, hhigh⟩ | rfl
    · exact ⟨hlow, Nat.le_trans hhigh (by decide)⟩
    · exact ⟨Nat.le_trans (by decide) hlow, hhigh⟩
    · decide
  simp only [Text.isBlank, Text.blankRanges, List.any_cons, List.any_nil]
  simp
  omega

theorem Usable.allBlank_eq_false {name : String} (h : Usable name) :
    Text.allBlank name = false := by
  obtain ⟨c, r, hname, hc, -⟩ := h.1
  simp [Text.allBlank, hname, hc.not_isBlank]

end Identifier

namespace ContextConfig.WellFormed

variable {config : ContextConfig}

/-- A well-formed group has a name and a namespace. -/
theorem named (h : config.WellFormed) :
    Text.allBlank config.name = false ∧ Text.allBlank config.namespaceName = false := by
  refine ⟨h.name.allBlank_eq_false, ?_⟩
  obtain ⟨piece, hpiece⟩ := List.exists_mem_of_ne_nil _
    (Text.pieces_ne_nil '.' config.namespaceName.toList)
  obtain ⟨c, r, hchars, hc, -⟩ := (h.usable_of_mem_pieces hpiece).1
  have hmem : c ∈ config.namespaceName.toList := by
    refine Text.mem_of_mem_pieces hpiece ?_
    rw [String.toList_ofList] at hchars
    simp [hchars]
  rw [Text.allBlank, List.all_eq_false]
  exact ⟨c, hmem, by simp [hc.not_isBlank]⟩

theorem name_ne_empty (h : config.WellFormed) {d : Declaration} (hd : d ∈ config.procedures) :
    d.name ≠ "" := Text.ne_empty_of_not_allBlank (h.procedureNames d hd)

theorem methodName_ne_empty (h : config.WellFormed) {d : Declaration}
    (hd : d ∈ config.procedures) : d.methodName ≠ "" :=
  Text.ne_empty_of_not_allBlank (h.methodNames d hd).allBlank_eq_false

end ContextConfig.WellFormed

namespace Build

/-- **Failures of a valid manifest.** Whatever the remote system is, the build of a group of a
manifest that was read fails exactly where a declaration cannot be resolved. The error is that of
the first such declaration and names it; it is an unknown return type or an error of resolution.
Otherwise every method has its two names, and its shape is of exactly one kind. -/
theorem context_of_read {source file : String} {m : Manifest}
    (h : Manifest.read source file = .ok m) {config : ContextConfig} (hc : config ∈ m.contexts)
    (r : Remote) :
    (∀ e, (Build.context r config).result = .error e →
      ∃ before d after, config.procedures = before ++ d :: after ∧
        (∀ p ∈ before, Resolvable r p) ∧ ¬ Resolvable r d ∧ FailureOf r d e ∧
        e.procedure? = some d.name) ∧
    ∀ context, (Build.context r config).result = .ok context →
      (∀ d ∈ config.procedures, Resolvable r d) ∧
      ∀ method ∈ context.methods, method.name ≠ "" ∧ method.procedure ≠ "" ∧
        ∃! kind : ShapeKind, kind.Fits method.shape := by
  have hformed := (Manifest.wellFormed_of_read h).contexts config hc
  obtain ⟨hname, hnamespace⟩ := hformed.named
  constructor
  · intro e he
    rw [context_result config hname hnamespace, map_eq_error_iff] at he
    obtain ⟨before, d, after, hsplit, hbefore, hd⟩ := methods_eq_error hformed.procedureNames he
    have hmem : ∀ p, p ∈ before ∨ p = d → p ∈ config.procedures := by
      rintro p (hp | rfl) <;> simp [*]
    have hnames : ∀ p, p ∈ before ∨ p = d → p.methodName ≠ "" ∧ p.name ≠ "" := fun p hp =>
      ⟨hformed.methodName_ne_empty (hmem p hp), hformed.name_ne_empty (hmem p hp)⟩
    have hdnames := hnames d (.inr rfl)
    have hfailure := method_eq_error hdnames.1 hdnames.2 hd
    refine ⟨before, d, after, hsplit, fun p hp => ?_, fun hresolvable => ?_, hfailure,
      hfailure.procedure_eq⟩
    · have hpnames := hnames p (.inl hp)
      exact (exists_method_iff hpnames.1 hpnames.2).1 (hbefore p hp)
    · obtain ⟨found, hfound⟩ := (exists_method_iff hdnames.1 hdnames.2).2 hresolvable
      rw [hfound] at hd
      cases hd
  · intro context hcontext
    obtain ⟨-, ms, hms, rfl⟩ := context_eq_ok_iff.1 hcontext
    obtain ⟨hadmissible, hdescribed⟩ := methods_eq_ok_iff.1 hms
    refine ⟨fun d hd => ?_, fun method hmethod => ?_⟩
    · obtain ⟨found, -, hfound⟩ := exists_mem_of_forall₂ hdescribed.flip hd
      exact ⟨(hadmissible d hd).reachable, (hadmissible d hd).bound, found, hfound⟩
    · obtain ⟨d, hd, hdescribes⟩ := exists_mem_of_forall₂ hdescribed hmethod
      refine ⟨?_, ?_, ReturnShape.existsUnique_fits hdescribes.two_le⟩
      · rw [hdescribes.name]
        exact hformed.methodName_ne_empty hd
      · rw [hdescribes.procedure]
        exact hformed.name_ne_empty hd

end Build

/-! ### Manifests that are read -/

/-- A text is read where its document holds a manifest that is valid. -/
theorem Manifest.read_of_decoded {text : String} {m : Manifest}
    (hdecoded : (Toml.read? text).bind (fun es => (Manifest.ofEntries es).toOption) = some m)
    (hvalid : m.validate text = .ok ()) (file : String) : Manifest.read text file = .ok m := by
  obtain ⟨entries, hentries, hmanifest⟩ := Option.bind_eq_some_iff.1 hdecoded
  rw [Manifest.read, mapError_eq_ok_iff]
  unfold Manifest.readCause
  cases hm : Manifest.ofEntries entries with
  | error e => simp [hm, Except.toOption] at hmanifest
  | ok m' =>
    obtain rfl : m' = m := by simpa [hm, Except.toOption] using hmanifest
    simp [hentries, hm, hvalid]

/-! ### A shop -/

/-- The text of a manifest of one group: a procedure that is introspected only, and one that is
tried. -/
def shopText : String :=
  "[[contexts]]\nname='Shop'\nnamespace='Acme'\ndatabase.url='db'\n" ++
    "output.host='a.cs'\noutput.typings='a.d.ts'\noutput.bindings='a.html'\n" ++
    "[[contexts.procedures]]\nname='Touch'\n[[contexts.procedures]]\nname='Find'\ntrial=['n:5']\n"

/-- The group of that manifest. -/
def shop : ContextConfig where
  name := "Shop"
  namespaceName := "Acme"
  database := ⟨some "db", none⟩
  output := ⟨"a.cs", some "a.d.ts", false, some "a.html"⟩
  procedures := [⟨"Touch", none, none, none, []⟩, ⟨"Find", none, none, none, ["n:5"]⟩]

/-- A server of the shop, which answers `Find` with one result set. -/
def shopServer (columns : List WireColumn) : Remote :=
  ⟨.postgres, none, [⟨"Touch", [⟨"@Id", "integer"⟩], [], none, none, none⟩,
    ⟨"Find", [], [columns], none, none, none⟩]⟩

/-- What the shop is resolved to where `Find` gives rows of two columns. -/
def shopContext : Context where
  namespaceName := "Acme"
  name := "Shop"
  methods := [⟨"Touch", "Touch", [⟨"@Id", .int32⟩], .affectedCount, none⟩,
    ⟨"Find", "Find", [], .rowSequence [⟨"Id", .int32⟩, ⟨"Name", .string⟩], none⟩]

set_option maxRecDepth 4000 in
theorem read_shopText (file : String) : Manifest.read shopText file = .ok ⟨[shop]⟩ :=
  Manifest.read_of_decoded (by decide +kernel) rfl file

/-- A column of a type that is not known is the first thing that cannot be resolved. -/
theorem Build.context_of_read_shop :
    let r := shopServer [⟨"Id", "integer"⟩, ⟨"Place", "geometry"⟩]
    let e := BuildError.resolution ⟨"Find", .typeMapping (.unknownWireType .postgres "geometry")⟩
    Manifest.read shopText "shop.toml" = .ok ⟨[shop]⟩ ∧ shop ∈ [shop] ∧
    (Build.context r shop).result = .error e ∧
    ∃ before d after, shop.procedures = before ++ d :: after ∧
      (∀ p ∈ before, Resolvable r p) ∧ ¬ Resolvable r d ∧ FailureOf r d e ∧
      e.procedure? = some d.name := by
  intro r e
  have hfailed : (Build.context r shop).result = .error e := rfl
  exact ⟨read_shopText _, List.mem_cons_self, hfailed,
    (context_of_read (read_shopText "shop.toml") List.mem_cons_self r).1 e hfailed⟩

end Sprocket
