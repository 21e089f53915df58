import Sprocket.Proofs.Generation
import Sprocket.Proofs.Sessions

/-!
# Variables that are not set

The connection string of a group is looked up when its turn comes. A variable that is not set ends
the run there; the groups before it have been resolved by then, and what that took of the remote
systems has happened.

* `GenerationError.configuration?`, `ContextConfig.Unset`: the errors and groups in question;
* `StopsAt`: the groups of a run up to the one whose variable is not set;
* `connectionString_eq_error_iff`: a group of a valid manifest lacks a connection string only so;
* `resolve_contacts`, `resolveAll_contacts`: what is seen of one group, and of several;
* `generate_stops_iff`: when a run ends for a setting, at which group, and what was seen by then.
-/

namespace Sprocket

open Generation (Surroundings)

/-- The setting an error is about, be it noticed before a build or during it. -/
def GenerationError.configuration? : GenerationError → Option ConfigurationError
  | configuration e => some e
  | build _ (.configuration e) => some e
  | _ => none

/-- The connection string of a group is to come from a variable that is unset or blank. -/
structure ContextConfig.Unset (environment : String → Option String) (config : ContextConfig)
    (key : String) : Prop where
  url : config.database.url = none
  env : config.database.env = some key
  blank : ∀ text, environment key = some text → Text.allBlank text = true

/-- A run resolves some groups and then comes to one whose variable is not set. -/
structure StopsAt (s : Surroundings) (configs before : List ContextConfig)
    (config : ContextConfig) (key : String) : Prop where
  split : before ++ [config] <+: configs
  resolved : ∀ p ∈ before, ∃ context, ResolvedAs s p context
  unset : config.Unset s.environment key

/-! ### Connection strings -/

namespace ContextConfig

variable {config : ContextConfig} {environment : String → Option String}

theorem Unset.connectionString_eq {key : String} (h : config.Unset environment key) :
    config.connectionString environment = .error (.variableNotSet config.name key) := by
  have hsource : config.database.source? = some (.env key) := by
    rw [DatabaseConfig.source?, h.url, h.env]
  have hblank : (environment key).filter (!Text.allBlank ·) = none := by
    rw [Option.filter_eq_none_iff]
    intro text htext
    simp [h.blank text htext]
  rw [connectionString, hsource]
  simp only [hblank]

/-- A group with one database lacks a connection string exactly if its variable is not set. -/
theorem connectionString_eq_error_iff (hdatabase : config.database.OneSource)
    {e : ConfigurationError} :
    config.connectionString environment = .error e ↔
      ∃ key, config.Unset environment key ∧ e = .variableNotSet config.name key := by
  constructor
  · intro h
    rw [connectionString, DatabaseConfig.source?] at h
    obtain ⟨hurl, henv⟩ | ⟨hurl, henv⟩ := hdatabase
    · obtain ⟨url, hurl⟩ := Option.ne_none_iff_exists'.1 hurl
      simp [hurl, henv] at h
    · obtain ⟨key, henv⟩ := Option.ne_none_iff_exists'.1 henv
      simp only [hurl, henv] at h
      cases hvalue : (environment key).filter (!Text.allBlank ·) with
      | some text => simp [hvalue] at h
      | none =>
        rw [Option.filter_eq_none_iff] at hvalue
        refine ⟨key, ⟨hurl, henv, fun text htext => by simpa using hvalue text htext⟩, ?_⟩
        simpa [Option.filter_eq_none_iff.2 hvalue] using h.symm
  · rintro ⟨key, hunset, rfl⟩
    exact hunset.connectionString_eq

end ContextConfig

/-! ### Errors -/

/-- No setting is missing while a group of a valid manifest is built. -/
theorem Build.context_ne_configuration {r : Remote} {config : ContextConfig}
    (hconfig : config.WellFormed) {e : BuildError}
    (h : (Build.context r config).result = .error e) (cause : ConfigurationError) :
    e ≠ .configuration cause := by
  obtain ⟨hname, hnamespace⟩ := hconfig.named
  rw [context_result config hname hnamespace, map_eq_error_iff] at h
  obtain ⟨before, d, after, hsplit, -, hfailed⟩ := methods_eq_error hconfig.procedureNames h
  have hd : d ∈ config.procedures := by simp [hsplit]
  have hprocedure := (method_eq_error (hconfig.methodName_ne_empty hd)
    (hconfig.name_ne_empty hd) hfailed).procedure_eq
  rintro rfl
  cases hprocedure

namespace Generation

variable {s : Surroundings} {root : String} {config : ContextConfig} {e : GenerationError}

theorem resolve_of_error {cause : ConfigurationError}
    (h : config.connectionString s.environment = .error cause) :
    resolve s config = .fail (.configuration cause) := by
  simp only [resolve, h]

/-- A group of a valid manifest fails for a setting exactly if its variable is not set. -/
theorem resolve_eq_error_iff (hconfig : config.WellFormed) {cause : ConfigurationError} :
    (∃ e, (resolve s config).result = .error e ∧ e.configuration? = some cause) ↔
      ∃ key, config.Unset s.environment key ∧ cause = .variableNotSet config.name key := by
  rw [← ContextConfig.connectionString_eq_error_iff hconfig.database]
  cases hurl : config.connectionString s.environment with
  | error found =>
    rw [resolve_of_error hurl]
    simp [GenerationError.configuration?]
  | ok url =>
    simp only [reduceCtorEq, iff_false]
    rintro ⟨e, he, hcause⟩
    simp only [resolve, hurl, ← Trace.bind_eq] at he
    obtain hbuild | ⟨context, -, hdone⟩ := Trace.result_bind_eq_error_iff.1 he
    · obtain ⟨found, hfound, rfl⟩ := Trace.result_relabel_eq_error_iff.1 hbuild
      cases found with
      | configuration other => exact Build.context_ne_configuration hconfig hfound other rfl
      | returnType _ _ => cases hcause
      | resolution _ => cases hcause
      | method _ => cases hcause
    · cases hdone

/-- Nothing that goes wrong with rendering is about a setting. -/
theorem configuration?_of_renderAll {rs : List ResolvedContext}
    (h : (renderAll root rs).result = .error e) : e.configuration? = none := by
  rw [renderAll_eq_mapM, Trace.result_mapM, mapM_eq_error_iff] at h
  obtain ⟨-, r, -, -, -, hfailed⟩ := h
  rw [render, ← Trace.bind_eq, Trace.result_bind_eq_error_iff] at hfailed
  obtain hrendered | ⟨artifacts, -, hdone⟩ := hfailed
  · obtain ⟨cause, -, rfl⟩ := Trace.result_relabel_eq_error_iff.1 hrendered
    rfl
  · cases hdone

/-! ### What remote systems see -/

/-- What remote systems see of a generation, or of a part of one. -/
def contacts {α : Type} (t : Run α) : List SessionEvent := GenerationEvent.sessions t.events

theorem contacts_bind_of_ok {α β : Type} {t : Run α} {a : α} (h : t.result = .ok a)
    (f : α → Run β) : contacts (t >>= f) = contacts t ++ contacts (f a) := by
  simp only [contacts, GenerationEvent.sessions, Trace.kept_bind_of_ok _ h, List.filterMap_append]

theorem contacts_bind_of_error {α β : Type} {t : Run α} (h : t.result = .error e)
    (f : α → Run β) : contacts (t >>= f) = contacts t := by
  simp only [contacts, GenerationEvent.sessions, Trace.kept_bind_of_error _ h]

/-- What is seen of a computation that goes on without contacts. -/
theorem contacts_bind_of_quiet {α β : Type} {f : α → Run β} (hf : ∀ a, contacts (f a) = [])
    (t : Run α) : contacts (t >>= f) = contacts t := by
  cases h : t.result with
  | error e => exact contacts_bind_of_error h f
  | ok a => rw [contacts_bind_of_ok h, hf, List.append_nil]

/-- What is seen of a build is seen of the generation it is a part of. -/
theorem contacts_relabel_build {α : Type} (t : Build.Run α) (error : BuildError → GenerationError) :
    contacts (t.relabel .build error) = Build.contacts t := by
  have hbuild : ∀ events : List BuildEvent,
      (events.map GenerationEvent.build).filterMap GenerationEvent.build? = events := by
    intro events
    rw [List.filterMap_map]
    exact List.filterMap_some
  rw [contacts, GenerationEvent.sessions, Trace.relabel_events, hbuild, Build.contacts]

/-- A group that is resolved takes the sessions of its declarations, and no others. -/
theorem resolve_contacts {context : Context} (h : ResolvedAs s config context) :
    ∃ parts, List.Forall₂ SessionsOf config.procedures parts ∧
      contacts (resolve s config) = parts.flatten := by
  obtain ⟨url, hurl, hbuild⟩ := h
  obtain ⟨parts, hparts, hcontacts⟩ := Build.context_sessions hbuild
  refine ⟨parts, hparts, ?_⟩
  simp only [resolve, hurl]
  rw [← Trace.bind_eq, contacts_bind_of_quiet fun _ => rfl, contacts_relabel_build, hcontacts]

/-- Groups that are resolved take the sessions of their declarations, one group after another,
before the remaining ones are turned to. -/
theorem resolveAll_contacts {before : List ContextConfig}
    (hbefore : ∀ p ∈ before, ∃ context, ResolvedAs s p context) (rest : List ContextConfig) :
    ∃ parts, List.Forall₂ SessionsOf (before.flatMap (·.procedures)) parts ∧
      contacts (resolveAll s (before ++ rest)) =
        parts.flatten ++ contacts (resolveAll s rest) := by
  induction before with
  | nil => exact ⟨[], .nil, rfl⟩
  | cons p others ih =>
    obtain ⟨⟨context, hp⟩, hothers⟩ := List.forall_mem_cons.1 hbefore
    obtain ⟨parts, hparts, hcontacts⟩ := ih hothers
    obtain ⟨first, hfirst, hseen⟩ := resolve_contacts hp
    have hresolved : (resolve s p).result = .ok ⟨p, context⟩ := resolve_eq_ok_iff.2 ⟨rfl, hp⟩
    refine ⟨first ++ parts, ?_, ?_⟩
    · rw [List.flatMap_cons]
      exact List.rel_append hfirst hparts
    · rw [List.cons_append, resolveAll, contacts_bind_of_ok hresolved, hseen,
        contacts_bind_of_quiet fun _ => rfl, hcontacts, List.flatten_append, List.append_assoc]

/-- A run that fails while it resolves its groups ends there. -/
theorem generate_of_resolveAll_error {configs : List ContextConfig}
    (h : (resolveAll s configs).result = .error e) :
    (generate s root configs).result = .error e ∧
      contacts (generate s root configs) = contacts (resolveAll s configs) := by
  constructor
  · rw [generate, Trace.bind_of_error h]
  · rw [generate, contacts_bind_of_error h]

end Generation

/-! ### The group at which a run ends -/

namespace StopsAt

open Generation

variable {s : Surroundings} {configs before : List ContextConfig} {config : ContextConfig}
  {key : String}

/-- The groups are resolved up to the one whose variable is not set, and with that the run ends. -/
theorem resolveAll_eq (h : StopsAt s configs before config key) :
    (resolveAll s configs).result = .error (.configuration (.variableNotSet config.name key)) ∧
      ∃ parts, List.Forall₂ SessionsOf (before.flatMap (·.procedures)) parts ∧
        contacts (resolveAll s configs) = parts.flatten := by
  obtain ⟨after, rfl⟩ := h.split
  have hfailed := resolve_of_error h.unset.connectionString_eq
  have hresult : (resolve s config).result =
      .error (.configuration (.variableNotSet config.name key)) := by rw [hfailed]; rfl
  rw [List.append_assoc, List.singleton_append]
  constructor
  · rw [resolveAll_eq_mapM, Trace.result_mapM, mapM_eq_error_iff]
    refine ⟨before, config, after, rfl, fun p hp => ?_, hresult⟩
    obtain ⟨context, hcontext⟩ := h.resolved p hp
    exact ⟨⟨p, context⟩, resolve_eq_ok_iff.2 ⟨rfl, hcontext⟩⟩
  · obtain ⟨parts, hparts, hcontacts⟩ := resolveAll_contacts h.resolved (config :: after)
    refine ⟨parts, hparts, ?_⟩
    rw [hcontacts, resolveAll, contacts_bind_of_error hresult, hfailed]
    exact List.append_nil _

end StopsAt

namespace Generation

variable {s : Surroundings} {root : String} {m : Manifest} {configs : List ContextConfig}

/-- The groups that are selected from a valid manifest are well-formed. -/
theorem wellFormed_of_select {source file : String} (hread : Manifest.read source file = .ok m)
    {selection : Option String} (hselect : select m selection = .ok configs) :
    ∀ config ∈ configs, config.WellFormed := by
  have hformed := (Manifest.wellFormed_of_read hread).contexts
  cases selects_of_select hselect with
  | all => exact hformed
  | named hmem => simpa using hformed _ hmem

/-- A run over well-formed groups fails for a setting only where it comes to a variable that is not
set. -/
theorem exists_stopsAt (hformed : ∀ config ∈ configs, config.WellFormed) {e : GenerationError}
    (h : (generate s root configs).result = .error e) {cause : ConfigurationError}
    (hcause : e.configuration? = some cause) :
    ∃ before config key, StopsAt s configs before config key ∧
      cause = .variableNotSet config.name key := by
  rw [generate, Trace.result_bind_eq_error_iff] at h
  obtain hresolving | ⟨rs, -, hrendering⟩ := h
  · rw [resolveAll_eq_mapM, Trace.result_mapM, mapM_eq_error_iff] at hresolving
    obtain ⟨before, config, after, rfl, hbefore, hfailed⟩ := hresolving
    obtain ⟨key, hunset, rfl⟩ :=
      (resolve_eq_error_iff (hformed config (by simp))).1 ⟨e, hfailed, hcause⟩
    refine ⟨before, config, key, ⟨⟨after, by simp⟩, fun p hp => ?_, hunset⟩, rfl⟩
    obtain ⟨r, hr⟩ := hbefore p hp
    exact ⟨r.context, (resolve_eq_ok_iff.1 hr).2⟩
  · rw [Trace.result_bind_eq_error_iff] at hrendering
    obtain hrendered | ⟨generated, -, hdone⟩ := hrendering
    · rw [configuration?_of_renderAll hrendered] at hcause
      cases hcause
    · cases hdone

/-- **Unset variables.** A run over the selected groups of a valid manifest fails for a setting
exactly if it comes to a group whose variable is not set, and the error is about the variable of
that group. By then every declaration of the groups before it has had its sessions, those with
sample arguments have been called with them, in order, and nothing else was seen. So nothing at all
was seen exactly if the groups before it declare nothing. -/
theorem generate_stops_iff {source file : String} (hread : Manifest.read source file = .ok m)
    {selection : Option String} (hselect : select m selection = .ok configs)
    (s : Surroundings) (root : String) :
    (∀ cause, (∃ e, (generate s root configs).result = .error e ∧
        e.configuration? = some cause) ↔
      ∃ before config key, StopsAt s configs before config key ∧
        cause = .variableNotSet config.name key) ∧
    ∀ before config key, StopsAt s configs before config key →
      let declared := before.flatMap (·.procedures)
      let seen := GenerationEvent.sessions (generate s root configs).events
      (∃ parts, List.Forall₂ SessionsOf declared parts ∧ seen = parts.flatten) ∧
      SessionEvent.openings seen = declared.length + (declared.filter (·.isTrial)).length ∧
      List.Forall₂ CallOf (declared.filter (·.isTrial)) (SessionEvent.calls seen) ∧
      (seen = [] ↔ ∀ p ∈ before, p.procedures = []) := by
  refine ⟨fun cause => ⟨?_, ?_⟩, ?_⟩
  · rintro ⟨e, he, hcause⟩
    exact exists_stopsAt (wellFormed_of_select hread hselect) he hcause
  · rintro ⟨before, config, key, hstops, rfl⟩
    exact ⟨_, (generate_of_resolveAll_error hstops.resolveAll_eq.1).1, rfl⟩
  · intro before config key hstops declared seen
    obtain ⟨hfailed, parts, hparts, hcontacts⟩ := hstops.resolveAll_eq
    have hseen : seen = parts.flatten :=
      (generate_of_resolveAll_error hfailed).2.trans hcontacts
    obtain ⟨hopenings, hcalls⟩ := sessionsOf_flatten hparts
    rw [← hseen] at hopenings hcalls
    refine ⟨⟨parts, hparts, hseen⟩, hopenings, hcalls, ?_⟩
    rw [← List.flatMap_eq_nil_iff]
    constructor
    · intro hnothing
      rw [hnothing] at hopenings
      -- each declaration would have opened a session
      exact List.eq_nil_of_length_eq_zero (Nat.eq_zero_of_add_eq_zero_right hopenings.symm)
    · intro hnone
      rw [hnone, List.forall₂_nil_left_iff] at hparts
      rw [hseen, hparts, List.flatten_nil]

/-! ### A shop and a depot -/

/-- A group without declarations, whose connection string is to come from a variable. -/
def depot : ContextConfig where
  name := "Depot"
  namespaceName := "Acme"
  database := ⟨none, some "DEPOT_DATABASE"⟩
  output := ⟨"b.cs", none, false, none⟩
  procedures := []

/-- The text of a manifest of the shop and, after it, the depot. -/
def depotText : String :=
  shopText ++ "[[contexts]]\nname='Depot'\nnamespace='Acme'\n" ++
    "database.env='DEPOT_DATABASE'\noutput.host='b.cs'\nprocedures=[]\n"

/-- No variable is set, and every connection string leads to the server of the shop. -/
def depotSurroundings : Surroundings :=
  ⟨fun _ => none, fun _ => shopServer [⟨"Id", "integer"⟩]⟩

set_option maxRecDepth 4000 in
theorem read_depotText (file : String) : Manifest.read depotText file = .ok ⟨[shop, depot]⟩ :=
  Manifest.read_of_decoded (by decide +kernel) rfl file

theorem stopsAt_depot : StopsAt depotSurroundings [shop, depot] [shop] depot "DEPOT_DATABASE" where
  split := List.prefix_rfl
  resolved := by
    intro p hp
    obtain rfl := List.mem_singleton.1 hp
    exact ⟨_, "db", rfl, rfl⟩
  unset := ⟨rfl, rfl, fun text htext => nomatch htext⟩

/-- The shop is resolved, and `Find` called, before it is noticed that the depot has no connection
string. -/
theorem generate_stops_iff_depot :
    let seen := GenerationEvent.sessions (generate depotSurroundings "" [shop, depot]).events
    Manifest.read depotText "shops.toml" = .ok ⟨[shop, depot]⟩ ∧
    select ⟨[shop, depot]⟩ none = .ok [shop, depot] ∧
    StopsAt depotSurroundings [shop, depot] [shop] depot "DEPOT_DATABASE" ∧
    (∃ e, (generate depotSurroundings "" [shop, depot]).result = .error e ∧
      e.configuration? = some (.variableNotSet "Depot" "DEPOT_DATABASE")) ∧
    SessionEvent.openings seen = 3 ∧ seen ≠ [] := by
  intro seen
  have hselect : select ⟨[shop, depot]⟩ none = .ok [shop, depot] := rfl
  obtain ⟨hfails, hseen⟩ :=
    generate_stops_iff (read_depotText "shops.toml") hselect depotSurroundings ""
  obtain ⟨-, hopenings, -, hnothing⟩ := hseen [shop] depot "DEPOT_DATABASE" stopsAt_depot
  exact ⟨read_depotText _, hselect, stopsAt_depot,
    (hfails _).2 ⟨[shop], depot, "DEPOT_DATABASE", stopsAt_depot, rfl⟩, hopenings,
    fun h => nomatch hnothing.1 h shop List.mem_cons_self⟩

/-- Not every run that fails for a setting leaves the remote system alone. -/
theorem executed_before_unset_depot :
    Manifest.read depotText "shops.toml" = .ok ⟨[shop, depot]⟩ ∧
    (generate depotSurroundings "" [shop, depot]).result =
      .error (.configuration (.variableNotSet "Depot" "DEPOT_DATABASE")) ∧
    GenerationEvent.sessions (generate depotSurroundings "" [shop, depot]).events =
      [.opened, .introspected "Touch", .closed,
        .opened, .executed "Find" [⟨"n", ⟨.string, .text⟩, .text "5"⟩] true, .closed,
        .opened, .introspected "Find", .closed] :=
  ⟨read_depotText _, rfl, rfl⟩

end Generation

end Sprocket
