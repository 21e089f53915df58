import Mathlib.Data.List.Nodup
import Sprocket.Generation
import Sprocket.Proofs.Failures

/-!
# What a generation makes of its groups

Every group is resolved and rendered by itself: nothing of one group is used for another. So a run
goes well exactly where each of its groups can be delivered, and what it makes of a group is the
same in every run.

* `ResolvedAs`, `ArtifactsOf`, `DeliveryOf`: what a group is resolved to and rendered as;
* `Unresolved`, `Undelivered`: what keeps a group from it;
* `Selects`: the groups a run is about;
* `resolveAll_eq_ok_iff`, `renderAll_eq_ok_iff`: when the two phases of a run go well, and with
  what;
* `resolveAll_congr`: of the environment only the variables that the groups name are used;
* `exists_forall₂_deliveryOf`, `phases_of_deliveries`: a run of both phases delivers each group.
-/

namespace Sprocket

open Generation (Surroundings)

/-- A context is what a group is resolved to by the remote system at its connection string. -/
def ResolvedAs (s : Surroundings) (config : ContextConfig) (context : Context) : Prop :=
  ∃ url, config.connectionString s.environment = .ok url ∧
    (Build.context (s.remote url) config).result = .ok context

/-- An artifact is what a backend renders a context as, under a path taken relative to `root`. -/
structure ArtifactOf (context : Context) (camel : Bool) (root : String) (b : Backend)
    (path : String) (a : Artifact) : Prop where
  backend : a.backend = b
  path : a.path = Files.Path.join root path
  content : b.render camel context = .ok a.content

/-- The artifacts of a context: first that of host code, then that of typings if there is a path for
them, then that of bindings if there is a path for them. -/
inductive ArtifactsOf (context : Context) (output : OutputConfig) (root : String) :
    List Artifact → Prop
  | intro {host : Artifact} {typings bindings : Option Artifact}
      (hhost : ArtifactOf context output.camelCase root .csharp output.host host)
      (htypings : Option.Rel (ArtifactOf context output.camelCase root .typescript) output.typings
        typings)
      (hbindings : Option.Rel (ArtifactOf context output.camelCase root .angular) output.bindings
        bindings) :
      ArtifactsOf context output root (host :: (typings.toList ++ bindings.toList))

/-- A backend is to write to a path: that of C# always, the others where there is a path for
them. -/
inductive Configured (output : OutputConfig) : Backend → String → Prop
  | host : Configured output .csharp output.host
  | typings {path : String} (h : output.typings = some path) : Configured output .typescript path
  | bindings {path : String} (h : output.bindings = some path) : Configured output .angular path

/-- What a group is made into. -/
structure Delivery where
  context : Context
  artifacts : List Artifact

/-- A delivery as it is reported. -/
def Delivery.generated (d : Delivery) : Generated :=
  ⟨d.context.name, d.context.methods.length, d.artifacts⟩

/-- A group is made into a context and its artifacts. -/
structure DeliveryOf (s : Surroundings) (root : String) (config : ContextConfig) (d : Delivery) :
    Prop where
  resolved : ResolvedAs s config d.context
  rendered : ArtifactsOf d.context config.output root d.artifacts

/-- A group has no connection string, or cannot be built. -/
inductive Unresolved (s : Surroundings) (config : ContextConfig) : Prop
  | connection {e : ConfigurationError} (h : config.connectionString s.environment = .error e)
  | build {url : String} {e : BuildError}
      (connected : config.connectionString s.environment = .ok url)
      (h : (Build.context (s.remote url) config).result = .error e)

/-- A group is not resolved, or a backend cannot render the context it is resolved to. -/
inductive Undelivered (s : Surroundings) (config : ContextConfig) : Prop
  | unresolved (h : Unresolved s config)
  | rendering {context : Context} {b : Backend} {path : String} {e : EmitError}
      (resolved : ResolvedAs s config context) (configured : Configured config.output b path)
      (h : b.render config.output.camelCase context = .error e)

/-- The groups that a run is about: all of them, or the one of a given name. -/
inductive Selects (m : Manifest) : Option String → List ContextConfig → Prop
  | all : Selects m none m.contexts
  | named {config : ContextConfig} (h : config ∈ m.contexts) : Selects m (some config.name) [config]

/-! ### One group -/

section

variable {s : Surroundings} {root : String} {config : ContextConfig}

theorem ResolvedAs.unique {c d : Context} (hc : ResolvedAs s config c)
    (hd : ResolvedAs s config d) : c = d := by
  obtain ⟨url, hurl, hbuild⟩ := hc
  obtain ⟨url', hurl', hbuild'⟩ := hd
  rw [hurl, Except.ok.injEq] at hurl'
  rw [← hurl', hbuild, Except.ok.injEq] at hbuild'
  exact hbuild'

theorem ArtifactOf.eq {context : Context} {camel : Bool} {b : Backend} {path : String}
    {a : Artifact} (h : ArtifactOf context camel root b path a) :
    a = ⟨b, Files.Path.join root path, a.content⟩ := by
  rw [← h.backend, ← h.path]

theorem ArtifactOf.unique {context : Context} {camel : Bool} {backend : Backend} {path : String}
    {a b : Artifact} (ha : ArtifactOf context camel root backend path a)
    (hb : ArtifactOf context camel root backend path b) : a = b := by
  have hcontent := ha.content
  rw [hb.content, Except.ok.injEq] at hcontent
  rw [ha.eq, hb.eq, hcontent]

/-- A context has one list of artifacts only. -/
theorem ArtifactsOf.unique {context : Context} {output : OutputConfig} {as bs : List Artifact}
    (ha : ArtifactsOf context output root as) (hb : ArtifactsOf context output root bs) :
    as = bs := by
  have hoptional : ∀ {backend : Backend} {path : Option String} {a b : Option Artifact},
      Option.Rel (ArtifactOf context output.camelCase root backend) path a →
      Option.Rel (ArtifactOf context output.camelCase root backend) path b → a = b := by
    rintro _ _ _ _ (h | _) h'
    · cases h' with
      | some h' => rw [h.unique h']
    · cases h'
      rfl
  obtain ⟨hhost, htypings, hbindings⟩ := ha
  obtain ⟨hhost', htypings', hbindings'⟩ := hb
  rw [hhost.unique hhost', hoptional htypings htypings', hoptional hbindings hbindings']

theorem exists_artifactOf_iff {context : Context} {camel : Bool} {b : Backend} {path : String} :
    (∃ a, ArtifactOf context camel root b path a) ↔
      ∃ content, b.render camel context = .ok content :=
  ⟨fun ⟨_, ha⟩ => ⟨_, ha.content⟩, fun ⟨content, h⟩ =>
    ⟨⟨b, Files.Path.join root path, content⟩, rfl, rfl, h⟩⟩

/-- A context has artifacts exactly if every backend that is to write one can render it. -/
theorem exists_artifactsOf_iff {context : Context} {output : OutputConfig} :
    (∃ artifacts, ArtifactsOf context output root artifacts) ↔
      ∀ b path, Configured output b path →
        ∃ content, b.render output.camelCase context = .ok content := by
  constructor
  · rintro ⟨_, ⟨hhost, htypings, hbindings⟩⟩ b path hconfigured
    cases hconfigured with
    | host => exact ⟨_, hhost.content⟩
    | typings h =>
      rw [h] at htypings
      cases htypings with
      | some ha => exact ⟨_, ha.content⟩
    | bindings h =>
      rw [h] at hbindings
      cases hbindings with
      | some ha => exact ⟨_, ha.content⟩
  · intro h
    obtain ⟨host, hhost⟩ := exists_artifactOf_iff.2 (h _ _ .host)
    obtain ⟨typings, htypings⟩ := exists_optionRel_iff.2 fun path hpath =>
      exists_artifactOf_iff.2 (h _ path (.typings hpath))
    obtain ⟨bindings, hbindings⟩ := exists_optionRel_iff.2 fun path hpath =>
      exists_artifactOf_iff.2 (h _ path (.bindings hpath))
    exact ⟨_, .intro hhost htypings hbindings⟩

/-- A group is made into one thing only. -/
theorem DeliveryOf.unique {d e : Delivery} (hd : DeliveryOf s root config d)
    (he : DeliveryOf s root config e) : d = e := by
  obtain ⟨context, artifacts⟩ := d
  obtain ⟨context', artifacts'⟩ := e
  obtain rfl : context = context' := hd.resolved.unique he.resolved
  obtain rfl : artifacts = artifacts' := hd.rendered.unique he.rendered
  rfl

/-- A group is resolved unless something keeps it from it. -/
theorem unresolved_iff : Unresolved s config ↔ ¬ ∃ context, ResolvedAs s config context := by
  constructor
  · rintro (h | ⟨connected, h⟩) ⟨context, url, hurl, hbuild⟩
    · rw [h] at hurl
      cases hurl
    · rw [connected, Except.ok.injEq] at hurl
      rw [← hurl, h] at hbuild
      cases hbuild
  · intro h
    cases hurl : config.connectionString s.environment with
    | error e => exact .connection hurl
    | ok url =>
      cases hbuild : (Build.context (s.remote url) config).result with
      | error e => exact .build hurl hbuild
      | ok context => exact absurd ⟨context, url, hurl, hbuild⟩ h

/-- A group is delivered unless something keeps it from it. -/
theorem undelivered_iff (root : String) :
    Undelivered s config ↔ ¬ ∃ d, DeliveryOf s root config d := by
  constructor
  · rintro (h | ⟨resolved, configured, h⟩) ⟨d, hd⟩
    · exact unresolved_iff.1 h ⟨d.context, hd.resolved⟩
    · obtain ⟨content, hcontent⟩ := exists_artifactsOf_iff.1 ⟨_, hd.rendered⟩ _ _ configured
      rw [hd.resolved.unique resolved, h] at hcontent
      cases hcontent
  · intro h
    by_cases hresolved : Unresolved s config
    · exact .unresolved hresolved
    · obtain ⟨context, hcontext⟩ := not_not.1 (unresolved_iff.not.1 hresolved)
      by_contra hrendered
      obtain ⟨artifacts, hartifacts⟩ :
          ∃ artifacts, ArtifactsOf context config.output root artifacts := by
        refine exists_artifactsOf_iff.2 fun b path hconfigured => ?_
        cases hcontent : b.render config.output.camelCase context with
        | error e => exact absurd (.rendering hcontext hconfigured hcontent) hrendered
        | ok content => exact ⟨content, rfl⟩
      exact h ⟨⟨context, artifacts⟩, hcontext, hartifacts⟩

end

/-! ### Selection -/

namespace Generation

variable {m : Manifest}

/-- Where no name is given twice, a group is found by its name. -/
theorem find?_name_eq_some {configs : List ContextConfig} (hnames : (configs.map (·.name)).Nodup)
    {config : ContextConfig} (h : config ∈ configs) :
    configs.find? (·.name == config.name) = some config := by
  obtain ⟨found, hfound⟩ : ∃ found, configs.find? (·.name == config.name) = some found :=
    Option.isSome_iff_exists.1 (List.find?_isSome.2 ⟨config, h, beq_self_eq_true config.name⟩)
  have hname : found.name = config.name := by simpa using List.find?_some hfound
  have hmem := List.mem_of_find?_eq_some hfound
  rw [hfound, List.inj_on_of_nodup_map hnames hmem h hname]

theorem select_of_not_mem {name : String} (h : name ∉ m.contextNames) :
    select m (some name) = .error (.unknownContext name m.contextNames) := by
  have hfind : m.contexts.find? (·.name == name) = none := by
    rw [List.find?_eq_none]
    intro config hmem heq
    exact h (beq_iff_eq.1 heq ▸ List.mem_map_of_mem hmem)
  simp [select, Manifest.context?, hfind]

theorem select_of_selects (hnames : m.contextNames.Nodup) {selection : Option String}
    {configs : List ContextConfig} (h : Selects m selection configs) :
    select m selection = .ok configs := by
  cases h with
  | all => rfl
  | named hmem => simp [select, Manifest.context?, find?_name_eq_some hnames hmem]

/-- The groups that are selected are all of them, or the one that was named. -/
theorem selects_of_select {selection : Option String} {configs : List ContextConfig}
    (h : select m selection = .ok configs) : Selects m selection configs := by
  cases selection with
  | none =>
    cases h
    exact .all
  | some name =>
    rw [select] at h
    cases hfound : m.context? name with
    | none => simp [hfound] at h
    | some config =>
      rw [hfound] at h
      cases h
      obtain rfl : config.name = name := by simpa using List.find?_some hfound
      exact .named (List.mem_of_find?_eq_some hfound)

/-! ### Resolving -/

variable {s s' : Surroundings} {root : String}

theorem resolve_eq_ok_iff {config : ContextConfig} {r : ResolvedContext} :
    (resolve s config).result = .ok r ↔ r.config = config ∧ ResolvedAs s config r.context := by
  unfold resolve ResolvedAs
  cases config.connectionString s.environment with
  | error e => simp
  | ok url =>
    dsimp only
    rw [← Trace.bind_eq, Trace.result_bind_eq_ok_iff]
    simp only [Trace.result_relabel_eq_ok_iff, Trace.pure_eq, Except.ok.injEq, exists_eq_left']
    constructor
    · rintro ⟨context, hcontext, rfl⟩
      exact ⟨rfl, hcontext⟩
    · rintro ⟨rfl, hcontext⟩
      exact ⟨r.context, hcontext, rfl⟩

theorem resolveAll_eq_mapM (configs : List ContextConfig) :
    resolveAll s configs = configs.mapM (resolve s) := by
  induction configs with
  | nil => rfl
  | cons config rest ih => rw [resolveAll, ih, List.mapM_cons]

/-- Groups are resolved exactly where each of them is. -/
theorem resolveAll_eq_ok_iff {configs : List ContextConfig} {rs : List ResolvedContext} :
    (resolveAll s configs).result = .ok rs ↔
      List.Forall₂ (fun config r => r.config = config ∧ ResolvedAs s config r.context) configs
        rs := by
  rw [resolveAll_eq_mapM, Trace.result_mapM, mapM_eq_ok_iff]
  simp only [resolve_eq_ok_iff]

theorem connectionString_congr {config : ContextConfig}
    {environment environment' : String → Option String}
    (h : ∀ key, config.database.env = some key → environment key = environment' key) :
    config.connectionString environment = config.connectionString environment' := by
  unfold ContextConfig.connectionString DatabaseConfig.source?
  cases hurl : config.database.url with
  | some url => cases config.database.env <;> rfl
  | none =>
    cases henv : config.database.env with
    | none => rfl
    | some key => simp [h key henv]

/-- Resolving depends on no variable but those that the groups name. -/
theorem resolveAll_congr {configs : List ContextConfig} (hremote : s.remote = s'.remote)
    (h : ∀ config ∈ configs, ∀ key, config.database.env = some key →
      s.environment key = s'.environment key) :
    resolveAll s configs = resolveAll s' configs := by
  induction configs with
  | nil => rfl
  | cons config rest ih =>
    obtain ⟨hconfig, hrest⟩ := List.forall_mem_cons.1 h
    rw [resolveAll, resolveAll, ih hrest, resolve, resolve, connectionString_congr hconfig, hremote]

/-! ### Rendering -/

theorem artifact_eq_ok_iff {context : Context} {camel : Bool} {b : Backend} {path : String}
    {a : Artifact} :
    (Artifact.render context camel b (Files.Path.join root path)).result = .ok a ↔
      ArtifactOf context camel root b path a := by
  unfold Artifact.render
  cases h : b.render camel context with
  | error e =>
    simp only [reduceCtorEq, false_iff]
    intro ha
    rw [ha.content] at h
    cases h
  | ok content =>
    simp only [Except.ok.injEq]
    constructor
    · rintro rfl
      exact ⟨rfl, rfl, h⟩
    · rintro ⟨hbackend, hpath, hcontent⟩
      rw [h, Except.ok.injEq] at hcontent
      rw [← hbackend, ← hpath, hcontent]

/-- The artifacts of a context are rendered one after another. -/
theorem artifacts_eq_ok_iff {context : Context} {output : OutputConfig}
    {artifacts : List Artifact} :
    (Artifact.renderAll context output root).result = .ok artifacts ↔
      ArtifactsOf context output root artifacts := by
  unfold Artifact.renderAll
  simp only [Trace.result_bind_eq_ok_iff, Trace.result_optionMapM_eq_ok_iff, artifact_eq_ok_iff,
    Trace.pure_eq, Except.ok.injEq]
  constructor
  · rintro ⟨host, hhost, typings, htypings, bindings, hbindings, rfl⟩
    exact .intro hhost htypings hbindings
  · rintro ⟨hhost, htypings, hbindings⟩
    exact ⟨_, hhost, _, htypings, _, hbindings, rfl⟩

/-- A context is rendered to its name, the number of its methods, and its artifacts. -/
theorem render_eq_ok_iff {r : ResolvedContext} {g : Generated} :
    (render root r).result = .ok g ↔
      (g.name = r.context.name ∧ g.methods = r.context.methods.length) ∧
        ArtifactsOf r.context r.config.output root g.artifacts := by
  unfold render
  rw [← Trace.bind_eq, Trace.result_bind_eq_ok_iff]
  simp only [Trace.result_relabel_eq_ok_iff, artifacts_eq_ok_iff, Trace.pure_eq, Except.ok.injEq]
  constructor
  · rintro ⟨artifacts, hartifacts, rfl⟩
    exact ⟨⟨rfl, rfl⟩, hartifacts⟩
  · rintro ⟨⟨hname, hmethods⟩, hartifacts⟩
    exact ⟨g.artifacts, hartifacts, by rw [← hname, ← hmethods]⟩

theorem renderAll_eq_mapM (rs : List ResolvedContext) :
    renderAll root rs = rs.mapM (render root) := by
  induction rs with
  | nil => rfl
  | cons r rest ih => rw [renderAll, ih, List.mapM_cons]

/-- Contexts are rendered exactly where each of them is. -/
theorem renderAll_eq_ok_iff {rs : List ResolvedContext} {gs : List Generated} :
    (renderAll root rs).result = .ok gs ↔
      List.Forall₂ (fun r g => (render root r).result = .ok g) rs gs := by
  rw [renderAll_eq_mapM, Trace.result_mapM, mapM_eq_ok_iff]

/-! ### Both phases -/

/-- Where each group of a run can be resolved, the first phase goes well. -/
theorem exists_resolved {configs : List ContextConfig} {contexts : List Context}
    (h : List.Forall₂ (ResolvedAs s) configs contexts) :
    ∃ rs, (resolveAll s configs).result = .ok rs ∧ rs.map (·.context) = contexts := by
  simp only [resolveAll_eq_ok_iff]
  induction h with
  | nil => exact ⟨[], .nil, rfl⟩
  | @cons config context configs contexts hcontext _ ih =>
    obtain ⟨rs, hresolved, rfl⟩ := ih
    exact ⟨⟨config, context⟩ :: rs, .cons ⟨rfl, hcontext⟩ hresolved, rfl⟩

/-- A run that goes through both phases delivers each of its groups. -/
theorem exists_forall₂_deliveryOf {configs : List ContextConfig} {rs : List ResolvedContext}
    {gs : List Generated} (hresolved : (resolveAll s configs).result = .ok rs)
    (hrendered : (renderAll root rs).result = .ok gs) :
    ∃ ds, List.Forall₂ (DeliveryOf s root) configs ds := by
  rw [resolveAll_eq_ok_iff] at hresolved
  rw [renderAll_eq_ok_iff] at hrendered
  rw [exists_forall₂_iff]
  intro config hconfig
  obtain ⟨r, hr, rfl, hcontext⟩ := exists_mem_of_forall₂ hresolved.flip hconfig
  obtain ⟨g, -, hg⟩ := exists_mem_of_forall₂ hrendered.flip hr
  exact ⟨⟨r.context, g.artifacts⟩, hcontext, (render_eq_ok_iff.1 hg).2⟩

/-- Where each group of a run can be delivered, both phases go well and make the deliveries. -/
theorem phases_of_deliveries {configs : List ContextConfig} {ds : List Delivery}
    (h : List.Forall₂ (DeliveryOf s root) configs ds) :
    ∃ rs, (resolveAll s configs).result = .ok rs ∧
      (renderAll root rs).result = .ok (ds.map Delivery.generated) := by
  simp only [resolveAll_eq_ok_iff, renderAll_eq_ok_iff]
  induction h with
  | nil => exact ⟨[], .nil, .nil⟩
  | @cons config d configs ds hd _ ih =>
    obtain ⟨rs, hresolved, hrendered⟩ := ih
    exact ⟨⟨config, d.context⟩ :: rs, .cons ⟨rfl, hd.resolved⟩ hresolved,
      .cons (render_eq_ok_iff.2 ⟨⟨rfl, rfl⟩, hd.rendered⟩) hrendered⟩

end Generation

end Sprocket
