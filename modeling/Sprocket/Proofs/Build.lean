import Sprocket.Build
import Sprocket.Proofs.Resolution

/-!
# What a build returns

A context that is built holds one method for each declaration, in the order of the declarations,
and each method says what the remote system reported and what the declaration states.

* `DeclaredShape`, `DocOf`, `MethodOf`: the method of a declaration, described by the answers of the
  remote system;
* `Admissible`: what a declaration needs besides, so that its method can be built;
* `contacts`: what the remote system sees of a build, or of a part of one;
* `method_eq_ok_iff`, `methods_eq_ok_iff`: when methods are built, and which;
* `context_eq_ok_iff_methodOf`: the same of a whole context;
* `methods_events_of_ok`, `methods_events_of_error`: what is seen of a list of declarations.
-/

namespace Sprocket

/-- The shape that a declared return type stands for. -/
inductive DeclaredShape : Option String → ReturnShape → Prop
  | noToken : DeclaredShape none .affectedCount
  | token {token : String} {type : TokenType} (known : TokenType.ofToken token = .ok type) :
      DeclaredShape (some token) (.scalar type.host)

/-- The doc comment that comments stand for. -/
inductive DocOf : Option String → Option String → Prop
  | noComments : DocOf none none
  | blank {text : String} (h : Text.allBlank text = true) : DocOf (some text) none
  | text {text : String} (h : Text.allBlank text = false) :
      DocOf (some text) (some (Text.strip text))

/-- A method says what a remote system reports of a declared procedure. A shape found by trial
rests on the result sets alone, whatever return type is declared. -/
structure MethodOf (r : Remote) (d : Declaration) (m : Method) : Prop where
  procedure : m.procedure = d.name
  name : m.name = d.method.getD d.name
  doc : DocOf d.comments m.doc
  parameters : ∃ rows, r.introspect d.name = .ok rows ∧
    List.Forall₂ (ParameterOf r.dialect) rows m.parameters
  tried : d.trial ≠ [] → ∃ sets, r.execute d.name = .ok sets ∧
    ObservedShape r.dialect sets m.shape
  declared : d.trial = [] → DeclaredShape d.returns m.shape

/-- A declaration has a name and a method name, its sample arguments can be bound, and the remote
system can be reached. -/
structure Admissible (r : Remote) (d : Declaration) : Prop where
  name : Text.allBlank d.name = false
  methodName : d.methodName ≠ ""
  reachable : r.connectFailure = none
  bound : ∀ e ∈ d.trial, ∃ b, TrialBinding.ofExpression e = .ok b

/-! ### Declarations and methods -/

theorem Text.ne_empty_of_not_allBlank {s : String} (h : Text.allBlank s = false) : s ≠ "" := by
  rintro rfl
  simp [Text.allBlank] at h

/-- Trimming leaves nothing exactly of blank text. -/
theorem Text.strip_eq_empty_iff (s : String) : Text.strip s = "" ↔ Text.allBlank s = true := by
  unfold Text.strip Text.allBlank Text.trim Text.trimStart
  rw [String.ofList_eq_empty_iff, Text.trimEnd_eq_nil_iff]
  induction s.toList with
  | nil => simp
  | cons c r ih =>
    by_cases hc : Text.isBlank c = true
    · simpa [hc] using ih
    · simp [hc]

theorem Declaration.doc_eq_iff {d : Declaration} {doc : Option String} :
    d.doc = doc ↔ DocOf d.comments doc := by
  unfold Declaration.doc
  cases d.comments with
  | none =>
    constructor
    · rintro rfl; exact .noComments
    · rintro ⟨⟩; rfl
  | some text =>
    by_cases h : Text.allBlank text = true
    · have hnone : ((some text).map Text.strip).filter (· != "") = none := by
        simp [(Text.strip_eq_empty_iff text).2 h]
      rw [hnone]
      constructor
      · rintro rfl; exact .blank h
      · intro hdoc
        cases hdoc with
        | blank => rfl
        | text h' => rw [h] at h'; cases h'
    · have hsome : ((some text).map Text.strip).filter (· != "") = some (Text.strip text) := by
        simp [Text.strip_eq_empty_iff, h]
      rw [Bool.not_eq_true] at h
      rw [hsome]
      constructor
      · rintro rfl; exact .text h
      · intro hdoc
        cases hdoc with
        | blank h' => rw [h] at h'; cases h'
        | text => rfl

theorem Method.make_eq_ok_iff {name procedure : String} {parameters : List Parameter}
    {shape : ReturnShape} {doc : Option String} {m : Method} :
    Method.make name procedure parameters shape doc = .ok m ↔
      name ≠ "" ∧ procedure ≠ "" ∧
        (∀ columns, shape = .rowSequence columns → 2 ≤ columns.length) ∧
        m = ⟨name, procedure, parameters, shape, doc⟩ := by
  unfold Method.make
  by_cases hn : name = ""
  · simp [hn]
  · by_cases hp : procedure = ""
    · simp [hn, hp]
    · cases shape with
      | rowSequence columns =>
        by_cases hc : columns.length < 2
        · simp [hn, hp, hc, Nat.not_le.2 hc]
        · simp [hn, hp, hc, Nat.le_of_not_lt hc, eq_comm]
      | scalar type => simp [hn, hp, eq_comm]
      | affectedCount => simp [hn, hp, eq_comm]

theorem ObservedShape.two_le {dialect : Dialect} {sets : List (List WireColumn)}
    {shape : ReturnShape} (h : ObservedShape dialect sets shape) (columns : List ResultColumn)
    (hs : shape = .rowSequence columns) : 2 ≤ columns.length := by
  subst hs
  cases h with
  | manyColumns _ two typed => rw [← typed.length_eq]; exact two

theorem DeclaredShape.not_rowSequence {returns : Option String} {shape : ReturnShape}
    (h : DeclaredShape returns shape) (columns : List ResultColumn) :
    shape ≠ .rowSequence columns := by
  cases h <;> exact fun e => nomatch e

namespace Build

variable {r : Remote}

/-- What a remote system sees of a build, or of a part of one. -/
def contacts {α : Type} (t : Run α) : List SessionEvent := t.events.filterMap BuildEvent.session?

/-! ### What a remote system sees -/

section

variable {α β : Type}

theorem contacts_bind_of_ok {t : Run α} {a : α} (h : t.result = .ok a) (f : α → Run β) :
    contacts (t >>= f) = contacts t ++ contacts (f a) :=
  Trace.kept_bind_of_ok BuildEvent.session? h f

theorem contacts_bind_of_error {t : Run α} {e : BuildError} (h : t.result = .error e)
    (f : α → Run β) : contacts (t >>= f) = contacts t :=
  Trace.kept_bind_of_error BuildEvent.session? h f

@[simp] theorem contacts_pure (a : α) : contacts (pure a : Run α) = [] := rfl

@[simp] theorem contacts_announce_bind (step : Progress) (f : Unit → Run β) :
    contacts (announce step >>= f) = contacts (f ()) := rfl

@[simp] theorem contacts_ofExcept (x : Except BuildError α) :
    contacts (.ofExcept x : Run α) = [] := rfl

theorem contacts_resolving (t : Trace SessionEvent ResolutionError α) :
    contacts (resolving t) = t.events := by
  simp only [contacts, resolving, Trace.relabel_events, List.filterMap_map]
  exact List.filterMap_some

/-- What is seen of a computation that goes on without contacts. -/
theorem contacts_bind_of_quiet {f : α → Run β} (hf : ∀ a, contacts (f a) = []) (t : Run α) :
    contacts (t >>= f) = contacts t := Trace.kept_bind_of_quiet hf t

end

/-! ### The stages of a build -/

theorem resolving_eq_ok_iff {α : Type} {t : Trace SessionEvent ResolutionError α} {a : α} :
    (resolving t).result = .ok a ↔ t.result = .ok a := Trace.result_relabel_eq_ok_iff

/-- The shape found by trial within a build is the one that resolution finds. -/
theorem shapeByTrial_eq_ok_iff {d : Declaration} {found : ReturnShape} :
    (shapeByTrial r d).result = .ok found ↔
      (∀ e ∈ d.trial, ∃ b, TrialBinding.ofExpression e = .ok b) ∧ r.connectFailure = none ∧
        ∃ sets, r.execute d.name = .ok sets ∧ ObservedShape r.dialect sets found := by
  rw [← TrialBinding.exists_bindAll_eq_ok_iff d.name, shapeByTrial]
  cases d.returns <;>
    simp [announce, Trace.result_bind_eq_ok_iff, resolving_eq_ok_iff,
      Resolution.shapeOf_eq_ok_iff]

theorem shapeByDeclaration_eq_ok_iff {d : Declaration} {stated : ReturnShape} :
    shapeByDeclaration d = .ok stated ↔ DeclaredShape d.returns stated := by
  unfold shapeByDeclaration
  cases d.returns with
  | none =>
    constructor
    · rintro ⟨⟩; exact .noToken
    · rintro ⟨⟩; rfl
  | some token =>
    constructor
    · intro h
      cases ht : TokenType.ofToken token with
      | error e => simp [ht] at h
      | ok type =>
        simp only [ht, Except.ok.injEq] at h
        rw [← h]
        exact .token ht
    · intro h
      cases h with
      | token known => simp [known]

theorem shape_eq_ok_iff {d : Declaration} {found : ReturnShape} :
    (shape r d).result = .ok found ↔
      (d.trial ≠ [] → (∀ e ∈ d.trial, ∃ b, TrialBinding.ofExpression e = .ok b) ∧
        r.connectFailure = none ∧
        ∃ sets, r.execute d.name = .ok sets ∧ ObservedShape r.dialect sets found) ∧
      (d.trial = [] → DeclaredShape d.returns found) := by
  unfold shape Declaration.isTrial
  by_cases h : d.trial = []
  · simp [h, shapeByDeclaration_eq_ok_iff]
  · simp [h, shapeByTrial_eq_ok_iff]

/-- The method of a declaration is built exactly where the declaration has its names and can be
resolved, and it says what there is to say. -/
theorem method_eq_ok_iff {d : Declaration} {m : Method} :
    (method r d).result = .ok m ↔
      d.methodName ≠ "" ∧ d.name ≠ "" ∧ r.connectFailure = none ∧
        (∀ e ∈ d.trial, ∃ b, TrialBinding.ofExpression e = .ok b) ∧ MethodOf r d m := by
  simp only [method, announce, Trace.tell_bind_result, Trace.result_bind_eq_ok_iff,
    resolving_eq_ok_iff, Resolution.parameters_eq_ok_iff, Trace.ofExcept_result,
    mapError_eq_ok_iff, Method.make_eq_ok_iff, shape_eq_ok_iff, Trace.pure_eq, Except.ok.injEq]
  constructor
  · rintro ⟨found, ⟨tried, declared⟩, parameters, ⟨reachable, rows, hrows, typed⟩, made,
      ⟨hmethod, hname, -, rfl⟩, rfl⟩
    have bound : ∀ e ∈ d.trial, ∃ b, TrialBinding.ofExpression e = .ok b := fun e he =>
      (tried (List.ne_nil_of_mem he)).1 e he
    exact ⟨hmethod, hname, reachable, bound, rfl, rfl, Declaration.doc_eq_iff.1 rfl,
      ⟨rows, hrows, typed⟩, fun h => (tried h).2.2, declared⟩
  · rintro ⟨hmethod, hname, reachable, bound, hm⟩
    obtain ⟨rows, hrows, typed⟩ := hm.parameters
    refine ⟨m.shape, ⟨fun h => ⟨bound, reachable, hm.tried h⟩, hm.declared⟩, m.parameters,
      ⟨reachable, rows, hrows, typed⟩, m, ⟨hmethod, hname, ?_, ?_⟩, rfl⟩
    · intro columns hc
      -- rows come from trials only, and these find at least two columns
      by_cases h : d.trial = []
      · exact absurd hc ((hm.declared h).not_rowSequence columns)
      · obtain ⟨sets, -, observed⟩ := hm.tried h
        exact observed.two_le columns hc
    · rw [Declaration.doc_eq_iff.2 hm.doc, Declaration.methodName, ← hm.name, ← hm.procedure]

/-! ### Groups of declarations -/

theorem methods_cons_of_blank {d : Declaration} (h : Text.allBlank d.name = true)
    (context : String) (number : Nat) (rest : List Declaration) :
    methods r context number (d :: rest) =
      .fail (.configuration (.blankProcedureName number context)) := by
  simp [methods, h]

theorem methods_cons {d : Declaration} (h : Text.allBlank d.name = false) (context : String)
    (number : Nat) (rest : List Declaration) :
    methods r context number (d :: rest) = (do
      let first ← method r d
      let others ← methods r context (number + 1) rest
      pure (first :: others)) := by
  simp [methods, h]

/-- The methods of declarations are built exactly where each declaration is admissible, one for
each of them and in their order. -/
theorem methods_eq_ok_iff {context : String} {number : Nat} {ds : List Declaration}
    {ms : List Method} :
    (methods r context number ds).result = .ok ms ↔
      (∀ d ∈ ds, Admissible r d) ∧ List.Forall₂ (MethodOf r) ds ms := by
  induction ds generalizing number ms with
  | nil => simp [methods, eq_comm]
  | cons d rest ih =>
    rw [List.forall₂_cons_left_iff, List.forall_mem_cons]
    by_cases h : Text.allBlank d.name = true
    · rw [methods_cons_of_blank h]
      have hd : ¬ Admissible r d := fun hd => by simp [hd.name] at h
      simp [hd]
    · rw [Bool.not_eq_true] at h
      rw [methods_cons h]
      simp only [Trace.result_bind_eq_ok_iff, method_eq_ok_iff, ih, Trace.pure_eq,
        Except.ok.injEq]
      constructor
      · rintro ⟨m, ⟨hmethod, -, reachable, bound, hm⟩, others, ⟨hrest, hothers⟩, rfl⟩
        exact ⟨⟨⟨h, hmethod, reachable, bound⟩, hrest⟩, m, others, hm, hothers, rfl⟩
      · rintro ⟨⟨hd, hrest⟩, m, others, hm, hothers, rfl⟩
        exact ⟨m, ⟨hd.methodName, Text.ne_empty_of_not_allBlank h, hd.reachable, hd.bound, hm⟩,
          others, ⟨hrest, hothers⟩, rfl⟩

/-- Declarations whose methods are built are seen one after another, as each of them is seen. -/
theorem methods_events_of_ok {context : String} {number : Nat} {ds : List Declaration}
    {ms : List Method} (h : (methods r context number ds).result = .ok ms) :
    List.Forall₂ (fun d m => (method r d).result = .ok m) ds ms ∧
      (methods r context number ds).events = ds.flatMap fun d => (method r d).events := by
  induction ds generalizing number ms with
  | nil =>
    cases h
    exact ⟨.nil, rfl⟩
  | cons d rest ih =>
    cases hblank : Text.allBlank d.name with
    | true =>
      rw [methods_cons_of_blank hblank] at h
      cases h
    | false =>
      rw [methods_cons hblank] at h ⊢
      obtain ⟨first, hfirst, hothers⟩ := Trace.result_bind_eq_ok_iff.1 h
      obtain ⟨others, hrest, hms⟩ := Trace.result_bind_eq_ok_iff.1 hothers
      cases hms
      obtain ⟨hmethods, hevents⟩ := ih hrest
      refine ⟨.cons hfirst hmethods, ?_⟩
      rw [Trace.bind_of_ok hfirst, Trace.bind_of_ok hrest, hevents, List.flatMap_cons]
      exact congrArg (_ ++ ·) (List.append_nil _)

/-- Declarations whose methods are not all built are seen up to the first one that stops the
build: a blank name is not seen, and any other declaration is seen as far as it comes. -/
theorem methods_events_of_error {context : String} {number : Nat} {ds : List Declaration}
    {e : BuildError} (h : (methods r context number ds).result = .error e) :
    ∃ before ms d after, ds = before ++ d :: after ∧
      List.Forall₂ (fun p m => (method r p).result = .ok m) before ms ∧
      (Text.allBlank d.name = true ∧
          e = .configuration (.blankProcedureName (number + before.length) context) ∧
          (methods r context number ds).events = (before.flatMap fun p => (method r p).events) ∨
        Text.allBlank d.name = false ∧ (method r d).result = .error e ∧
          (methods r context number ds).events =
            (before.flatMap fun p => (method r p).events) ++ (method r d).events) := by
  induction ds generalizing number with
  | nil => cases h
  | cons d rest ih =>
    cases hblank : Text.allBlank d.name with
    | true =>
      rw [methods_cons_of_blank hblank] at h ⊢
      cases h
      exact ⟨[], [], d, rest, rfl, .nil, .inl ⟨hblank, rfl, rfl⟩⟩
    | false =>
      rw [methods_cons hblank] at h ⊢
      cases hfirst : (method r d).result with
      | error e' =>
        rw [Trace.bind_of_error hfirst] at h ⊢
        cases h
        exact ⟨[], [], d, rest, rfl, .nil, .inr ⟨hblank, hfirst, rfl⟩⟩
      | ok first =>
        obtain hfailed | ⟨_, -, hothers⟩ := Trace.result_bind_eq_error_iff.1 h
        · rw [hfirst] at hfailed
          cases hfailed
        obtain hrest | ⟨others, -, hdone⟩ := Trace.result_bind_eq_error_iff.1 hothers
        · obtain ⟨before, ms, p, after, rfl, hbefore, hstop⟩ := ih hrest
          refine ⟨d :: before, first :: ms, p, after, rfl, .cons hfirst hbefore, ?_⟩
          rw [Trace.bind_of_ok hfirst, Trace.bind_of_error hrest, List.flatMap_cons,
            List.length_cons]
          refine hstop.imp ?_ ?_
          · rintro ⟨hp, he, hevents⟩
            exact ⟨hp, by rw [he, Nat.add_right_comm, Nat.add_assoc], congrArg (_ ++ ·) hevents⟩
          · rintro ⟨hp, he, hevents⟩
            exact ⟨hp, he, by rw [hevents, List.append_assoc]⟩
        · cases hdone

theorem context_of_blank_name (config : ContextConfig) (h : Text.allBlank config.name = true) :
    Build.context r config = .fail (.configuration .blankContextName) := by
  simp [Build.context, h]

theorem context_of_blank_namespace (config : ContextConfig)
    (h : Text.allBlank config.name = false)
    (hn : Text.allBlank config.namespaceName = true) :
    Build.context r config = .fail (.configuration (.blankNamespace config.name)) := by
  simp [Build.context, h, hn]

theorem context_of_named (config : ContextConfig) (h : Text.allBlank config.name = false)
    (hn : Text.allBlank config.namespaceName = false) :
    Build.context r config = (do
      announce (.contextStarted config.name config.procedures.length)
      let ms ← methods r config.name 1 config.procedures
      announce (.contextDone config.name ms.length)
      pure ⟨config.namespaceName, config.name, ms⟩) := by
  simp [Build.context, h, hn]

/-- What a named group is built into, and what is seen of it, is decided by its declarations. -/
theorem context_result (config : ContextConfig) (h : Text.allBlank config.name = false)
    (hn : Text.allBlank config.namespaceName = false) :
    (Build.context r config).result =
      (methods r config.name 1 config.procedures).result.map
        (Context.mk config.namespaceName config.name) := by
  rw [context_of_named config h hn, announce, Trace.tell_bind_result]
  cases hms : (methods r config.name 1 config.procedures).result with
  | error e => rw [Trace.bind_of_error hms]; rfl
  | ok ms => rw [Trace.bind_of_ok hms]; rfl

theorem context_contacts (config : ContextConfig) (h : Text.allBlank config.name = false)
    (hn : Text.allBlank config.namespaceName = false) :
    contacts (Build.context r config) =
      contacts (methods r config.name 1 config.procedures) := by
  rw [context_of_named config h hn, contacts_announce_bind, contacts_bind_of_quiet]
  intro ms
  rw [contacts_announce_bind, contacts_pure]

/-- A group without a name or a namespace is not built, whatever it declares, and nothing is seen
of it. -/
theorem context_of_unnamed {config : ContextConfig}
    (h : ¬ (Text.allBlank config.name = false ∧ Text.allBlank config.namespaceName = false)) :
    ∃ e : BuildError, ∀ ds : List Declaration,
      Build.context r { config with procedures := ds } = .fail e := by
  by_cases hname : Text.allBlank config.name = true
  · exact ⟨_, fun ds => context_of_blank_name { config with procedures := ds } hname⟩
  · rw [Bool.not_eq_true] at hname
    have hn : Text.allBlank config.namespaceName = true := by
      by_contra hn
      exact h ⟨hname, Bool.not_eq_true _ ▸ hn⟩
    exact ⟨.configuration (.blankNamespace config.name), fun ds =>
      context_of_blank_namespace { config with procedures := ds } hname hn⟩

/-- A context is built exactly where the group is named and its methods are built. -/
theorem context_eq_ok_iff {config : ContextConfig} {context : Context} :
    (Build.context r config).result = .ok context ↔
      (Text.allBlank config.name = false ∧ Text.allBlank config.namespaceName = false) ∧
      ∃ ms, (methods r config.name 1 config.procedures).result = .ok ms ∧
        (⟨config.namespaceName, config.name, ms⟩ : Context) = context := by
  by_cases hnamed : Text.allBlank config.name = false ∧ Text.allBlank config.namespaceName = false
  · rw [context_result config hnamed.1 hnamed.2, map_eq_ok_iff]
    exact (and_iff_right hnamed).symm
  · obtain ⟨e, hfail⟩ := context_of_unnamed (r := r) hnamed
    have hconfig : Build.context r config = .fail e := hfail config.procedures
    rw [hconfig]
    simp [hnamed]

/-- A context that is built has the names of its group, and its methods say in order what the
declarations of the group state. -/
theorem context_describes {config : ContextConfig} {context : Context}
    (h : (Build.context r config).result = .ok context) :
    context.namespaceName = config.namespaceName ∧ context.name = config.name ∧
      List.Forall₂ (MethodOf r) config.procedures context.methods := by
  obtain ⟨-, ms, hms, rfl⟩ := context_eq_ok_iff.1 h
  exact ⟨rfl, rfl, (methods_eq_ok_iff.1 hms).2⟩

/-- A context is built exactly where the group is named and each of its declarations is
admissible; it carries the names of the group and one method for each declaration, in order, that
says what the remote system reports and the declaration states. -/
theorem context_eq_ok_iff_methodOf (r : Remote) (config : ContextConfig) (context : Context) :
    (Build.context r config).result = .ok context ↔
      (Text.allBlank config.name = false ∧ Text.allBlank config.namespaceName = false ∧
        ∀ d ∈ config.procedures, Admissible r d) ∧
      context.namespaceName = config.namespaceName ∧ context.name = config.name ∧
      List.Forall₂ (MethodOf r) config.procedures context.methods := by
  rw [context_eq_ok_iff]
  simp only [methods_eq_ok_iff]
  constructor
  · rintro ⟨⟨h, hn⟩, ms, ⟨admissible, hms⟩, rfl⟩
    exact ⟨⟨h, hn, admissible⟩, rfl, rfl, hms⟩
  · rintro ⟨⟨h, hn, admissible⟩, hnamespace, hname, hms⟩
    exact ⟨⟨h, hn⟩, context.methods, ⟨admissible, hms⟩, by rw [← hnamespace, ← hname]⟩

end Build

end Sprocket
