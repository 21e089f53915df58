import Sprocket.Proofs.Generation
import Sprocket.Proofs.Levels
import Sprocket.Proofs.Sessions
import Sprocket.Report.Check

/-!
# What a check foretells

The report on a manifest is made without a database, from the declarations alone. Where all groups
of the manifest are built, it says beforehand what building and rendering them comes to.

* `Check.Foretells`: what is said of a declaration is what comes of it;
* `Check.ArtifactFor`, `Check.forall₂_outputs_iff`: the outputs that are listed stand for the
  artifacts;
* `Check.Foretold`: what is said of a group is what comes of it;
* `Check.report_foretells`: a whole report.
-/

namespace Sprocket

namespace Check

open Build (contacts)
open SessionEvent (attempts calls)

/-! ### Plans -/

/-- Different plans have different words. -/
theorem Plan.words_injective : Function.Injective Plan.words := by
  intro p q h
  have hchars := congrArg String.toList h
  cases p with
  | trial n =>
    cases q with
    | trial k =>
      simp only [words, String.toList_append, List.append_cancel_left_eq,
        List.append_cancel_right_eq, Nat.toString_eq_ofList_toDigits, String.toList_ofList]
        at hchars
      have hnumber := congrArg (fun digits => Nat.ofDigitChars 10 digits 0) hchars
      simp only [Nat.ofDigitChars_ten_toDigits] at hnumber
      rw [hnumber]
    | scalar => simp [words] at hchars
    | affectedCount => simp [words] at hchars
  | scalar token =>
    cases q with
    | trial => simp [words] at hchars
    | scalar token' =>
      simp only [words, String.append_right_inj] at h
      rw [h]
    | affectedCount => simp [words] at hchars
  | affectedCount =>
    cases q with
    | trial => simp [words] at hchars
    | scalar => simp [words] at hchars
    | affectedCount => rfl

/-- What is said of a declaration tells its plan. -/
theorem resolution_eq_iff {d : Declaration} (p : Plan) :
    (entry d).resolution = p.words ↔ plan d = p := Plan.words_injective.eq_iff

/-! ### Declarations -/

/-- What a report says of a declaration is what comes of building it: a trial stands for one call
with as many arguments, the words for a type or a count for the shape of a method that is found
without a call. -/
structure Foretells (r : Remote) (d : Declaration) (m : Method) : Prop where
  procedure : (entry d).procedure = m.procedure
  method : (entry d).method = m.name
  carried : attempts (contacts (Build.method r d)) = calls (contacts (Build.method r d))
  trial : ∀ n, (entry d).resolution = "trial with " ++ toString n ++ " argument(s)" ↔
    ∃ bindings, bindings.length = n ∧
      calls (contacts (Build.method r d)) = [(m.procedure, bindings)]
  scalar : ∀ token, (entry d).resolution = "scalar " ++ token ↔
    calls (contacts (Build.method r d)) = [] ∧ d.returns = some token ∧
      ∃ type, TokenType.ofToken token = .ok type ∧ m.shape = .scalar type.host
  scalarOfShape : calls (contacts (Build.method r d)) = [] → ∀ type, m.shape = .scalar type →
    ∃ token, (entry d).resolution = "scalar " ++ token
  affectedCount : (entry d).resolution = "affected count" ↔
    calls (contacts (Build.method r d)) = [] ∧ m.shape = .affectedCount

variable {r : Remote}

/-- What building a declaration comes to under each of the plans. -/
theorem plan_cases {d : Declaration} {m : Method} (h : (Build.method r d).result = .ok m) :
    (∃ bindings, plan d = .trial bindings.length ∧
      calls (contacts (Build.method r d)) = [(m.procedure, bindings)]) ∨
    (∃ token type, plan d = .scalar token ∧ d.returns = some token ∧
      TokenType.ofToken token = .ok type ∧ calls (contacts (Build.method r d)) = [] ∧
      m.shape = .scalar type.host) ∨
    plan d = .affectedCount ∧ calls (contacts (Build.method r d)) = [] ∧
      m.shape = .affectedCount := by
  obtain ⟨-, -, -, -, hm⟩ := Build.method_eq_ok_iff.1 h
  have hsessions := Build.method_contacts_of_ok h
  generalize contacts (Build.method r d) = events at hsessions
  cases hsessions with
  | @tried htrial bindings hbound =>
    refine .inl ⟨bindings, ?_, ?_⟩
    · rw [plan, if_pos htrial, hbound.length_eq]
    · rw [hm.procedure]
      rfl
  | stated htrial =>
    have hnil : d.trial = [] := by simpa [Declaration.isTrial] using htrial
    have hdeclared := hm.declared hnil
    cases hreturns : d.returns with
    | some token =>
      rw [hreturns] at hdeclared
      generalize m.shape = shape at hdeclared
      cases hdeclared with
      | @token _ type known =>
        have hplan : plan d = .scalar token := by simp [plan, htrial, hreturns]
        exact .inr (.inl ⟨token, type, hplan, rfl, known, rfl, rfl⟩)
    | none =>
      rw [hreturns] at hdeclared
      generalize m.shape = shape at hdeclared
      cases hdeclared with
      | noToken =>
        have hplan : plan d = .affectedCount := by simp [plan, htrial, hreturns]
        exact .inr (.inr ⟨hplan, rfl, rfl⟩)

/-- What is said of a declaration is what comes of building it. -/
theorem foretells_of_ok {d : Declaration} {m : Method} (h : (Build.method r d).result = .ok m) :
    Foretells r d m := by
  obtain ⟨-, -, -, -, hm⟩ := Build.method_eq_ok_iff.1 h
  have hcarried := (Build.method_contacts_of_ok h).attempts_eq_calls
  have htrial : ∀ n, (entry d).resolution = "trial with " ++ toString n ++ " argument(s)" ↔
      plan d = .trial n := fun n => resolution_eq_iff (.trial n)
  have hscalar : ∀ token, (entry d).resolution = "scalar " ++ token ↔ plan d = .scalar token :=
    fun token => resolution_eq_iff (.scalar token)
  have hcount : (entry d).resolution = "affected count" ↔ plan d = .affectedCount :=
    resolution_eq_iff .affectedCount
  obtain ⟨bindings, hplan, hcalls⟩ | ⟨token, type, hplan, hreturns, hknown, hcalls, hshape⟩ |
    ⟨hplan, hcalls, hshape⟩ := plan_cases h
  · refine ⟨hm.procedure.symm, hm.name.symm, hcarried, fun n => ?_, fun token => ?_, ?_, ?_⟩
    · rw [htrial, hplan, hcalls]
      simp
    · rw [hscalar, hplan, hcalls]
      simp
    · simp [hcalls]
    · rw [hcount, hplan, hcalls]
      simp
  · refine ⟨hm.procedure.symm, hm.name.symm, hcarried, fun n => ?_, fun token' => ?_, ?_, ?_⟩
    · rw [htrial, hplan, hcalls]
      simp
    · rw [hscalar, hplan, hcalls, hreturns, hshape]
      constructor
      · rintro ⟨⟩
        exact ⟨rfl, rfl, type, hknown, rfl⟩
      · rintro ⟨-, ⟨⟩, -⟩
        rfl
    · exact fun _ _ _ => ⟨token, (hscalar token).2 hplan⟩
    · rw [hcount, hplan, hshape]
      simp
  · refine ⟨hm.procedure.symm, hm.name.symm, hcarried, fun n => ?_, fun token => ?_, ?_, ?_⟩
    · rw [htrial, hplan, hcalls]
      simp
    · rw [hscalar, hplan, hshape]
      simp
    · simp [hshape]
    · rw [hcount, hplan, hcalls, hshape]
      simp

/-! ### Warnings -/

/-- The warning about a procedure whose declared return type is ignored. -/
def ignoredWarning (context procedure : String) : String :=
  "'" ++ procedure ++ "' in context '" ++ context ++
    "' sets both 'trial' and 'returns'; 'returns' is ignored"

/-- The procedures whose declared return types a build calls ignored, in order. -/
def ignored {α : Type} (t : Build.Run α) : List String := t.events.filterMap BuildEvent.ignored?

theorem ignored_resolving {α : Type} (t : Trace SessionEvent ResolutionError α) :
    ignored (Build.resolving t) = [] := by
  rw [ignored, Build.resolving, Trace.relabel_events, List.filterMap_map]
  exact List.filterMap_eq_nil_iff.2 fun _ _ => rfl

section

variable {α β : Type}

theorem ignored_announce_bind (step : Progress) (f : Unit → Build.Run β) :
    ignored (Build.announce step >>= f) = ignored (f ()) := rfl

theorem ignored_bind_of_quiet {f : α → Build.Run β} (hf : ∀ a, ignored (f a) = [])
    (t : Build.Run α) : ignored (t >>= f) = ignored t := Trace.kept_bind_of_quiet hf t

end

/-- Finding a shape calls a return type ignored exactly if there are sample arguments besides. -/
theorem ignored_shape (r : Remote) (d : Declaration) :
    ignored (Build.shape r d) = if d.isTrial && d.returns.isSome then [d.name] else [] := by
  have hcall : ignored (do
      let bindings ← Build.resolving (.ofExcept (TrialBinding.bindAll d.name d.trial))
      Build.announce (.trialExecuting d.name bindings.length)
      Build.resolving (Resolution.shapeOf r d.name bindings)) = [] := by
    rw [ignored_bind_of_quiet, ignored_resolving]
    intro bindings
    rw [ignored_announce_bind, ignored_resolving]
  unfold Build.shape
  cases htrial : d.isTrial with
  | false => rfl
  | true =>
    unfold Build.shapeByTrial
    cases hreturns : d.returns with
    | none => exact hcall
    | some token => exact congrArg (d.name :: ·) hcall

/-- The rest of a method calls nothing ignored. -/
theorem ignored_method (r : Remote) (d : Declaration) :
    ignored (Build.method r d) = if d.isTrial && d.returns.isSome then [d.name] else [] := by
  unfold Build.method
  rw [ignored_announce_bind, ignored_bind_of_quiet, ignored_shape]
  intro shape
  rw [ignored_announce_bind, ignored_announce_bind, ignored_bind_of_quiet, ignored_resolving]
  intro parameters
  rw [ignored_announce_bind, ignored_bind_of_quiet]
  · rfl
  · exact fun _ => rfl

/-! ### Groups -/

/-- A group of declarations that is built is seen as its declarations are, one after another, and
calls ignored what they do. -/
theorem methods_events {context : String} {number : Nat} {ds : List Declaration}
    {ms : List Method} (h : (Build.methods r context number ds).result = .ok ms) :
    List.Forall₂ (fun d m => (Build.method r d).result = .ok m) ds ms ∧
      contacts (Build.methods r context number ds) =
        (ds.flatMap fun d => contacts (Build.method r d)) ∧
      ignored (Build.methods r context number ds) =
        ds.flatMap fun d => ignored (Build.method r d) := by
  obtain ⟨hmethods, hevents⟩ := Build.methods_events_of_ok h
  refine ⟨hmethods, ?_, ?_⟩
  · rw [contacts, hevents, List.filterMap_flatMap]
    rfl
  · rw [ignored, hevents, List.filterMap_flatMap]
    rfl

/-- What a report warns of in a group is what its build calls ignored. -/
theorem contextWarnings_eq (r : Remote) (config : ContextConfig) :
    contextWarnings config =
      (config.procedures.flatMap fun d => ignored (Build.method r d)).map
        (ignoredWarning config.name) := by
  rw [contextWarnings]
  induction config.procedures with
  | nil => rfl
  | cons d rest ih =>
    rw [List.flatMap_cons, List.map_append, ← ih, ignored_method, List.filterMap_cons, warning?]
    by_cases h : (d.isTrial && d.returns.isSome) = true
    · rw [if_pos h, if_pos h]
      rfl
    · rw [if_neg h, if_neg h]
      rfl

/-! ### Outputs -/

/-- What a report calls the artifacts of a backend. -/
def kind : Backend → String
  | .csharp => "host"
  | .typescript => "typings"
  | .angular => "bindings"

/-- The kind of an output tells the backend that writes it. -/
theorem kind_injective : Function.Injective kind := by
  intro b b' h
  cases b <;> cases b' <;> first | rfl | simp [kind] at h

/-- An artifact is what an output of a report stands for: it is of the kind that is reported, under
the path that is reported, and holds what its backend renders. -/
structure ArtifactFor (context : Context) (camel : Bool) (root : String)
    (output : String × String) (a : Artifact) : Prop where
  kind : kind a.backend = output.1
  path : a.path = Files.Path.join root output.2
  content : a.backend.render camel context = .ok a.content

section

variable {context : Context} {root : String}

theorem artifactFor_iff (b : Backend) {camel : Bool} {path : String} {a : Artifact} :
    ArtifactFor context camel root (kind b, path) a ↔ ArtifactOf context camel root b path a := by
  constructor
  · rintro ⟨hkind, hpath, hcontent⟩
    have hbackend : a.backend = b := kind_injective hkind
    exact ⟨hbackend, hpath, hbackend ▸ hcontent⟩
  · rintro ⟨hbackend, hpath, hcontent⟩
    exact ⟨congrArg kind hbackend, hpath, hbackend ▸ hcontent⟩

theorem forall₂_optional_iff (b : Backend) {camel : Bool} {path : Option String}
    {artifacts : List Artifact} :
    List.Forall₂ (ArtifactFor context camel root) (path.toList.map fun path => (kind b, path))
        artifacts ↔
      ∃ a, Option.Rel (ArtifactOf context camel root b) path a ∧ artifacts = a.toList := by
  cases path with
  | none =>
    constructor
    · rintro ⟨⟩
      exact ⟨none, .none, rfl⟩
    · rintro ⟨_, ⟨⟩, rfl⟩
      exact .nil
  | some path =>
    constructor
    · rintro (_ | ⟨ha, ⟨⟩⟩)
      exact ⟨some _, .some ((artifactFor_iff b).1 ha), rfl⟩
    · rintro ⟨_, ⟨ha⟩, rfl⟩
      exact .cons ((artifactFor_iff b).2 ha) .nil

/-- **Outputs and artifacts.** The outputs that are listed for a group stand, one by one, for the
artifacts of its context. -/
theorem forall₂_outputs_iff {output : OutputConfig} {artifacts : List Artifact} :
    List.Forall₂ (ArtifactFor context output.camelCase root) (outputs output) artifacts ↔
      ArtifactsOf context output root artifacts := by
  have hhost : ∀ {a}, ArtifactFor context output.camelCase root ("host", output.host) a ↔
      ArtifactOf context output.camelCase root .csharp output.host a :=
    artifactFor_iff .csharp
  have htypings : ∀ {as}, List.Forall₂ (ArtifactFor context output.camelCase root)
      (output.typings.toList.map fun path => ("typings", path)) as ↔
        ∃ a, Option.Rel (ArtifactOf context output.camelCase root .typescript) output.typings a ∧
          as = a.toList := forall₂_optional_iff .typescript
  have hbindings : ∀ {as}, List.Forall₂ (ArtifactFor context output.camelCase root)
      (output.bindings.toList.map fun path => ("bindings", path)) as ↔
        ∃ a, Option.Rel (ArtifactOf context output.camelCase root .angular) output.bindings a ∧
          as = a.toList := forall₂_optional_iff .angular
  simp only [outputs, List.forall₂_cons_left_iff, forall₂_append_left_iff, hhost, htypings,
    hbindings]
  constructor
  · rintro ⟨host, _, hhost, ⟨_, _, ⟨typings, htypings, rfl⟩, ⟨bindings, hbindings, rfl⟩, rfl⟩, rfl⟩
    exact .intro hhost htypings hbindings
  · rintro ⟨hhost, htypings, hbindings⟩
    exact ⟨_, _, hhost, ⟨_, _, ⟨_, htypings, rfl⟩, ⟨_, hbindings, rfl⟩, rfl⟩, rfl⟩

end

/-- Where no name is taken for a brace, there is an artifact for every output. -/
theorem exists_renderAll {context : Context} (h : context.Unbraced) (output : OutputConfig)
    (root : String) :
    ∃ artifacts, (Artifact.renderAll context output root).result = .ok artifacts := by
  simp only [Generation.artifacts_eq_ok_iff]
  refine exists_artifactsOf_iff.2 fun b _ _ => ?_
  cases b with
  | csharp =>
    obtain ⟨text, htext, -⟩ := (CSharp.levels h output.camelCase).renders
    exact ⟨text, htext⟩
  | typescript =>
    obtain ⟨text, htext, -⟩ := (Typings.levels h output.camelCase).renders
    exact ⟨text, htext⟩
  | angular =>
    obtain ⟨text, htext, -⟩ := (Bindings.levels output.camelCase context).renders
    exact ⟨text, htext⟩

/-! ### Reports -/

/-- What a report says of a group is what comes of building and rendering it. -/
structure Foretold (r : Remote) (config : ContextConfig) (context : Context) : Prop where
  name : (summary config).name = context.name
  namespaceName : (summary config).namespaceName = context.namespaceName
  procedures : (summary config).entries.map Entry.procedure = context.methods.map Method.procedure
  methods : (summary config).entries.map Entry.method = context.methods.map Method.name
  declarations : List.Forall₂ (Foretells r) config.procedures context.methods
  contacts : contacts (Build.context r config) =
    config.procedures.flatMap fun d => contacts (Build.method r d)
  artifacts : ∀ root artifacts,
    (Artifact.renderAll context config.output root).result = .ok artifacts ↔
      List.Forall₂ (ArtifactFor context config.output.camelCase root) (summary config).outputs
        artifacts
  written : ∀ root artifacts,
    (Artifact.renderAll context config.output root).result = .ok artifacts ↔
      ArtifactsOf context config.output root artifacts
  rendered : context.Unbraced → ∀ root,
    ∃ artifacts, (Artifact.renderAll context config.output root).result = .ok artifacts

/-- What is said of a group is what comes of it, and its build calls ignored what is warned of. -/
theorem foretold_of_ok {r : Remote} {config : ContextConfig} {context : Context}
    (h : (Build.context r config).result = .ok context) :
    Foretold r config context ∧
      contextWarnings config =
        (ignored (Build.context r config)).map (ignoredWarning config.name) := by
  obtain ⟨⟨hname, hnamespace⟩, ms, hms, rfl⟩ := Build.context_eq_ok_iff.1 h
  obtain ⟨hmethods, hcontacts, hignored⟩ := methods_events hms
  have hdeclarations : List.Forall₂ (Foretells r) config.procedures ms :=
    hmethods.imp fun _ _ => foretells_of_ok
  have hentries : ∀ {field : Entry → String} {name : Method → String},
      (∀ d m, Foretells r d m → field (entry d) = name m) →
      (summary config).entries.map field = ms.map name := by
    intro field name hsame
    rw [summary, List.map_map, ← List.forall₂_eq_eq_eq, List.forall₂_map_left_iff,
      List.forall₂_map_right_iff]
    exact hdeclarations.imp fun d m => hsame d m
  constructor
  · exact {
      name := rfl
      namespaceName := rfl
      procedures := hentries fun _ _ hfirst => hfirst.procedure
      methods := hentries fun _ _ hfirst => hfirst.method
      declarations := hdeclarations
      contacts := (Build.context_contacts config hname hnamespace).trans hcontacts
      artifacts := fun _ _ => Generation.artifacts_eq_ok_iff.trans forall₂_outputs_iff.symm
      written := fun _ _ => Generation.artifacts_eq_ok_iff
      rendered := fun hunbraced root => exists_renderAll hunbraced config.output root }
  · have hcontext : ignored (Build.context r config) =
        ignored (Build.methods r config.name 1 config.procedures) := by
      rw [Build.context_of_named config hname hnamespace, ignored_announce_bind,
        ignored_bind_of_quiet]
      intro _
      rfl
    rw [hcontext, hignored]
    exact contextWarnings_eq r config

/-- **A check foretells a generation.** Where all groups of a manifest are built, each against its
own remote system, the report on the manifest warns of the return types that the builds call
ignored, in order, and goes on with one summary for each group; what these say is what comes of the
groups. -/
theorem report_foretells {m : Manifest} {remote : ContextConfig → Remote}
    {contexts : List Context}
    (h : List.Forall₂ (fun config context =>
      (Build.context (remote config) config).result = .ok context) m.contexts contexts)
    (path : String) :
    report m path =
      ((m.contexts.flatMap fun config => (ignored (Build.context (remote config) config)).map
        (ignoredWarning config.name)).map .warning) ++ [.success (path ++ " is valid")] ++
        (m.contexts.map summary).flatMap Summary.lines ∧
      List.Forall₂ (fun config context => Foretold (remote config) config context) m.contexts
        contexts := by
  have hwarnings : warnings m = m.contexts.flatMap fun config =>
      (ignored (Build.context (remote config) config)).map (ignoredWarning config.name) := by
    refine List.flatMap_congr fun config hconfig => ?_
    obtain ⟨context, -, hbuild⟩ := exists_mem_of_forall₂ h.flip hconfig
    exact (foretold_of_ok hbuild).2
  refine ⟨?_, h.imp fun _ _ hbuild => (foretold_of_ok hbuild).1⟩
  rw [report, hwarnings]

/-- The report on the shop says of one declaration that it is tried with one argument, and of the
other that it is not tried: its build makes one call, with one binding. It lists three outputs, and
there are three artifacts. -/
theorem report_foretells_shop :
    let server := shopServer [⟨"Id", "integer"⟩, ⟨"Name", "text"⟩]
    (Build.context server shop).result = .ok shopContext ∧
    (summary shop).entries.map Entry.resolution = ["affected count", "trial with 1 argument(s)"] ∧
    (∃ binding, calls (contacts (Build.context server shop)) = [("Find", [binding])]) ∧
    (summary shop).outputs = [("host", "a.cs"), ("typings", "a.d.ts"), ("bindings", "a.html")] ∧
    ∃ code typings markup, (Artifact.renderAll shopContext shop.output "out").result =
      .ok [⟨.csharp, "out/a.cs", code⟩, ⟨.typescript, "out/a.d.ts", typings⟩,
        ⟨.angular, "out/a.html", markup⟩] := by
  intro server
  have hbuild : (Build.context server shop).result = .ok shopContext := rfl
  have hbuilds : List.Forall₂ (fun config context =>
      (Build.context server config).result = .ok context) (Manifest.mk [shop]).contexts
        [shopContext] := .cons hbuild .nil
  obtain ⟨-, hforetold⟩ := report_foretells hbuilds "shop.toml"
  obtain ⟨_, _, hshop, -, hcontexts⟩ := List.forall₂_cons_left_iff.1 hforetold
  cases hcontexts
  refine ⟨hbuild, rfl, ?_, rfl, ?_⟩
  · obtain ⟨touch, _, htouch, hrest, -⟩ := List.forall₂_cons_left_iff.1 hshop.declarations
    obtain ⟨find, _, hfind, -, -⟩ := List.forall₂_cons_left_iff.1 hrest
    obtain ⟨bindings, hlength, hcalls⟩ := (hfind.trial 1).1 rfl
    obtain ⟨binding, rfl⟩ := List.length_eq_one_iff.1 hlength
    have hname : "Find" = find.procedure := hfind.procedure
    have hcontacts : contacts (Build.context server shop) =
        contacts (Build.method server ⟨"Touch", none, none, none, []⟩) ++
          contacts (Build.method server ⟨"Find", none, none, none, ["n:5"]⟩) := by
      rw [hshop.contacts]
      exact congrArg (_ ++ ·) (List.append_nil _)
    refine ⟨binding, ?_⟩
    rw [hcontacts, SessionEvent.calls_append, (htouch.affectedCount.1 rfl).1, hcalls, hname]
    rfl
  · obtain ⟨artifacts, hartifacts⟩ := hshop.rendered (by decide) "out"
    have hlisted : List.Forall₂ (ArtifactFor shopContext false "out")
        [("host", "a.cs"), ("typings", "a.d.ts"), ("bindings", "a.html")] artifacts :=
      (hshop.artifacts "out" artifacts).1 hartifacts
    obtain ⟨code, _, hcode, hsecond, rfl⟩ := List.forall₂_cons_left_iff.1 hlisted
    obtain ⟨typings, _, htypings, hthird, rfl⟩ := List.forall₂_cons_left_iff.1 hsecond
    obtain ⟨markup, _, hmarkup, hnone, rfl⟩ := List.forall₂_cons_left_iff.1 hthird
    cases hnone
    refine ⟨code.content, typings.content, markup.content, ?_⟩
    rw [hartifacts, ((artifactFor_iff .csharp).1 hcode).eq,
      ((artifactFor_iff .typescript).1 htypings).eq, ((artifactFor_iff .angular).1 hmarkup).eq]
    rfl

end Check

end Sprocket
