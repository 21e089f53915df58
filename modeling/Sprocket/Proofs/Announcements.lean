import Sprocket.Proofs.Failures

/-!
# Announcements

What a build announces is what it does. The steps of a declaration form a block, and a build
announces one block after another, in the order of the declarations; where it stops, it has
announced the whole blocks of the declarations before, and a part of the next one.

* `Progress.block`: the steps of a declaration whose method has a shape and a number of parameters;
* `Progress.BrokenOff`: the steps of a declaration that is not built;
* `Build.announced`: the steps a build announces, or a part of one;
* `Build.StopsAt`: the declaration a build stops at, with the error and what was announced of it;
* `Build.announced_method_of_ok`, `Build.brokenOff_of_error`: what one declaration announces;
* `Build.announced_methods_of_ok`, `Build.announced_methods_of_error`: what a list of them
  announces;
* `Build.announces_what_it_builds`: whole contexts.
-/

namespace Sprocket

namespace Progress

/-- The step that announces a shape: rows with their columns, a single value as one column, and a
count as none. -/
def ofShape (d : Declaration) : ReturnShape → Progress
  | .rowSequence columns => .shapeResolved d.name .rowSequence columns.length d.isTrial
  | .scalar _ => .shapeResolved d.name .scalar 1 d.isTrial
  | .affectedCount => .shapeResolved d.name .affectedCount 0 d.isTrial

/-- The step that announces a trial, if there is one. -/
def ofTrial (d : Declaration) : List Progress :=
  if d.trial = [] then [] else [.trialExecuting d.name d.trial.length]

/-- The steps of a declaration whose method has a shape and a number of parameters. -/
def block (d : Declaration) (shape : ReturnShape) (parameters : Nat) : List Progress :=
  .procedureStarted d.name d.methodName :: (ofTrial d ++ [ofShape d shape,
    .introspectingParameters d.name, .parametersResolved d.name parameters, .procedureDone d.name])

/-- The steps of a declaration that was built into a method. -/
def blockOf (d : Declaration) (m : Method) : List Progress := block d m.shape m.parameters.length

/-- Steps that break off before the end of a block. A shape and a number of parameters they
announce are those that were found. -/
structure BrokenOff (r : Remote) (d : Declaration) (shape : ReturnShape) (parameters : Nat)
    (steps : List Progress) : Prop where
  begun : steps ≠ []
  within : steps <+: block d shape parameters
  unfinished : steps ≠ block d shape parameters
  shape : ofShape d shape ∈ steps → (Build.shape r d).result = .ok shape
  parameters : .parametersResolved d.name parameters ∈ steps →
    ∃ found, (Resolution.parameters r d.name).result = .ok found ∧ found.length = parameters

variable {d : Declaration} {parameters : Nat}

theorem ofTrial_of_trial (h : d.trial ≠ []) :
    ofTrial d = [.trialExecuting d.name d.trial.length] := if_neg h

theorem eq_trialExecuting_of_mem {step : Progress} (h : step ∈ ofTrial d) :
    step = .trialExecuting d.name d.trial.length := by
  unfold ofTrial at h
  split at h
  · cases h
  · exact List.mem_singleton.1 h

/-- The step of a shape is the one that a build announces for it. -/
theorem shapeResolved_eq_ofShape (d : Declaration) (shape : ReturnShape) :
    .shapeResolved d.name shape.kind shape.width d.isTrial = ofShape d shape := by
  cases shape <;> rfl

namespace BrokenOff

variable {r : Remote} {shape : ReturnShape}

/-- Nothing is found before the shape is. -/
theorem of_ofTrial {steps : List Progress} (h : steps <+: ofTrial d) :
    BrokenOff r d shape parameters (.procedureStarted d.name d.methodName :: steps) := by
  have hmem : ∀ step, step ∈ .procedureStarted d.name d.methodName :: steps →
      step = .procedureStarted d.name d.methodName ∨
        step = .trialExecuting d.name d.trial.length := fun step hstep =>
    (List.mem_cons.1 hstep).imp_right fun hin => eq_trialExecuting_of_mem (h.subset hin)
  refine ⟨List.cons_ne_nil _ _, ?_, ?_, ?_, ?_⟩
  · exact List.cons_prefix_cons.2 ⟨rfl, h.trans (List.prefix_append _ _)⟩
  · intro heq
    have hlength := congrArg List.length heq
    have hle := h.length_le
    simp only [block, List.length_cons, List.length_append] at hlength
    omega
  · intro hshape
    rw [← shapeResolved_eq_ofShape] at hshape
    obtain h | h := hmem _ hshape <;> cases h
  · intro hparameters
    obtain h | h := hmem _ hparameters <;> cases h

/-- The parameters are asked for once the shape is found. -/
theorem of_shape (hshape : (Build.shape r d).result = .ok shape) :
    BrokenOff r d shape parameters (.procedureStarted d.name d.methodName ::
      (ofTrial d ++ [ofShape d shape, .introspectingParameters d.name])) := by
  refine ⟨List.cons_ne_nil _ _, ?_, ?_, fun _ => hshape, ?_⟩
  · exact ⟨[.parametersResolved d.name parameters, .procedureDone d.name], by simp [block]⟩
  · simp [block]
  · intro hparameters
    rw [← shapeResolved_eq_ofShape] at hparameters
    have htrial : .parametersResolved d.name parameters ∈ ofTrial d := by simpa using hparameters
    cases eq_trialExecuting_of_mem htrial

/-- All is found before the method is made. -/
theorem of_parameters (hshape : (Build.shape r d).result = .ok shape) {found : List Parameter}
    (hfound : (Resolution.parameters r d.name).result = .ok found) :
    BrokenOff r d shape found.length (.procedureStarted d.name d.methodName ::
      (ofTrial d ++ [ofShape d shape, .introspectingParameters d.name,
        .parametersResolved d.name found.length])) := by
  refine ⟨List.cons_ne_nil _ _, ?_, ?_, fun _ => hshape, fun _ => ⟨found, hfound, rfl⟩⟩
  · exact ⟨[.procedureDone d.name], by simp [block]⟩
  · simp [block]

end BrokenOff

end Progress

namespace Build

open Progress (ofTrial block blockOf BrokenOff)

variable {r : Remote} {d : Declaration}

/-- The steps that a build announces, or a part of one. -/
def announced {α : Type} (t : Run α) : List Progress := t.events.filterMap BuildEvent.progress?

section

variable {α β : Type}

theorem announced_bind_of_ok {t : Run α} {a : α} (h : t.result = .ok a) (f : α → Run β) :
    announced (t >>= f) = announced t ++ announced (f a) :=
  Trace.kept_bind_of_ok BuildEvent.progress? h f

theorem announced_bind_of_error {t : Run α} {e : BuildError} (h : t.result = .error e)
    (f : α → Run β) : announced (t >>= f) = announced t :=
  Trace.kept_bind_of_error BuildEvent.progress? h f

@[simp] theorem announced_announce_bind (step : Progress) (f : Unit → Run β) :
    announced (announce step >>= f) = step :: announced (f ()) := rfl

@[simp] theorem announced_ofExcept (x : Except BuildError α) :
    announced (.ofExcept x : Run α) = [] := rfl

@[simp] theorem announced_resolving (t : Trace SessionEvent ResolutionError α) :
    announced (resolving t) = [] := by
  rw [announced, resolving, Trace.relabel_events, List.filterMap_map]
  exact List.filterMap_eq_nil_iff.2 fun _ _ => rfl

end

/-! ### One declaration -/

/-- A trial is announced as soon as its arguments are bound, with the number of them. -/
theorem announced_shapeByTrial (r : Remote) (d : Declaration) :
    announced (shapeByTrial r d) = [] ∧ (∃ e, (shapeByTrial r d).result = .error e) ∨
      announced (shapeByTrial r d) = [.trialExecuting d.name d.trial.length] := by
  have hrest : let rest : Run ReturnShape := do
        let bindings ← resolving (.ofExcept (TrialBinding.bindAll d.name d.trial))
        announce (.trialExecuting d.name bindings.length)
        resolving (Resolution.shapeOf r d.name bindings)
      announced rest = [] ∧ (∃ e, rest.result = .error e) ∨
        announced rest = [.trialExecuting d.name d.trial.length] := by
    cases hbound : TrialBinding.bindAll d.name d.trial with
    | error e => exact .inl ⟨rfl, _, rfl⟩
    | ok bindings =>
      have hlength : bindings.length = d.trial.length :=
        (TrialBinding.bindAll_eq_ok_iff.1 hbound).length_eq.symm
      right
      rw [announced_bind_of_ok (resolving_eq_ok_iff.2 rfl), announced_resolving,
        announced_announce_bind, announced_resolving, hlength]
      rfl
  -- the warning about a return type is no step
  unfold shapeByTrial
  cases d.returns with
  | none => exact hrest
  | some token => exact hrest

/-- Finding a shape announces the trial, if there is one and it comes to that. -/
theorem announced_shape (r : Remote) (d : Declaration) :
    announced (shape r d) = [] ∧ (∃ e, (shape r d).result = .error e) ∨
      announced (shape r d) = ofTrial d := by
  unfold shape Declaration.isTrial
  by_cases htrial : d.trial = []
  · right
    simp [htrial, ofTrial]
  · rw [Progress.ofTrial_of_trial htrial]
    simpa [htrial] using announced_shapeByTrial r d

theorem announced_shape_of_ok {found : ReturnShape} (h : (shape r d).result = .ok found) :
    announced (shape r d) = ofTrial d := by
  obtain ⟨-, e, he⟩ | hsteps := announced_shape r d
  · rw [he] at h
    cases h
  · exact hsteps

/-- A method that is built is announced by its block. -/
theorem announced_method_of_ok {m : Method} (h : (method r d).result = .ok m) :
    announced (method r d) = block d m.shape m.parameters.length := by
  simp only [method, announce, Trace.tell_bind_result, Trace.result_bind_eq_ok_iff,
    Trace.ofExcept_result, Trace.pure_eq] at h
  obtain ⟨found, hfound, parameters, hparameters, made, hmade, hm⟩ := h
  cases hm
  obtain ⟨-, -, -, rfl⟩ := Method.make_eq_ok_iff.1 (mapError_eq_ok_iff.1 hmade)
  unfold method
  rw [announced_announce_bind, announced_bind_of_ok hfound, announced_shape_of_ok hfound,
    announced_announce_bind, announced_announce_bind, announced_bind_of_ok hparameters,
    announced_resolving, announced_announce_bind, hmade, Progress.shapeResolved_eq_ofShape]
  rfl

/-- A method that is not built is announced by a part of a block. -/
theorem brokenOff_of_error {e : BuildError} (h : (method r d).result = .error e) :
    ∃ shape parameters, BrokenOff r d shape parameters (announced (method r d)) := by
  simp only [method, announce, Trace.tell_bind_result, Trace.result_bind_eq_error_iff,
    Trace.ofExcept_result, Trace.pure_eq] at h
  obtain hshape | ⟨found, hfound, hparameters | ⟨parameters, hparameters, hmake | ⟨m, -, hdone⟩⟩⟩ :=
    h
  all_goals unfold method; rw [announced_announce_bind]
  · rw [announced_bind_of_error hshape]
    refine ⟨.affectedCount, 0, .of_ofTrial ?_⟩
    obtain ⟨hnone, -⟩ | htrial := announced_shape r d
    · exact hnone ▸ List.nil_prefix
    · exact htrial ▸ List.prefix_rfl
  · rw [announced_bind_of_ok hfound, announced_shape_of_ok hfound, announced_announce_bind,
      announced_announce_bind, announced_bind_of_error hparameters, announced_resolving,
      Progress.shapeResolved_eq_ofShape]
    exact ⟨found, 0, .of_shape hfound⟩
  · rw [announced_bind_of_ok hfound, announced_shape_of_ok hfound, announced_announce_bind,
      announced_announce_bind, announced_bind_of_ok hparameters, announced_resolving,
      announced_announce_bind, hmake, Trace.ofExcept_error_bind, Progress.shapeResolved_eq_ofShape]
    exact ⟨found, parameters.length, .of_parameters hfound (resolving_eq_ok_iff.1 hparameters)⟩
  · cases hdone

/-! ### Lists of declarations -/

/-- A build stops at a declaration, which is the one of a number in its group: the error, and the
steps that were announced of it. -/
inductive StopsAt (r : Remote) (context : String) (number : Nat) (d : Declaration) :
    BuildError → List Progress → Prop
  | unnamed (blank : Text.allBlank d.name = true) :
      StopsAt r context number d (.configuration (.blankProcedureName number context)) []
  | unresolved {e : BuildError} {shape : ReturnShape} {parameters : Nat} {steps : List Progress}
      (named : Text.allBlank d.name = false) (failed : (method r d).result = .error e)
      (broken : BrokenOff r d shape parameters steps) : StopsAt r context number d e steps

/-- Declarations whose methods are built are announced by one block after another. -/
theorem announced_flatMap {ds : List Declaration} {ms : List Method}
    (h : List.Forall₂ (fun d m => (method r d).result = .ok m) ds ms) :
    (ds.flatMap fun d => announced (method r d)) = (List.zipWith blockOf ds ms).flatten := by
  induction h with
  | nil => rfl
  | @cons d m ds ms hm _ ih =>
    rw [List.flatMap_cons, List.zipWith_cons_cons, List.flatten_cons, ih,
      announced_method_of_ok hm]
    rfl

theorem announced_methods_of_ok {context : String} {number : Nat} {ds : List Declaration}
    {ms : List Method} (h : (methods r context number ds).result = .ok ms) :
    announced (methods r context number ds) = (List.zipWith blockOf ds ms).flatten := by
  obtain ⟨hmethods, hevents⟩ := methods_events_of_ok h
  rw [announced, hevents, List.filterMap_flatMap]
  exact announced_flatMap hmethods

/-- A list of declarations that is not built announces the whole blocks of the declarations before
the one it stops at, and of that one nothing if its name is blank, and a part of a block
otherwise. -/
theorem announced_methods_of_error {context : String} {number : Nat} {ds : List Declaration}
    {e : BuildError} (h : (methods r context number ds).result = .error e) :
    ∃ before ms d after steps, ds = before ++ d :: after ∧
      List.Forall₂ (fun p m => (method r p).result = .ok m) before ms ∧
      StopsAt r context (number + before.length) d e steps ∧
      announced (methods r context number ds) =
        (List.zipWith blockOf before ms).flatten ++ steps := by
  obtain ⟨before, ms, d, after, hsplit, hbefore, hstop⟩ := methods_events_of_error h
  obtain ⟨hblank, he, hevents⟩ | ⟨hnamed, hd, hevents⟩ := hstop
  · refine ⟨before, ms, d, after, [], hsplit, hbefore, he ▸ .unnamed hblank, ?_⟩
    rw [announced, hevents, List.filterMap_flatMap, List.append_nil]
    exact announced_flatMap hbefore
  · obtain ⟨shape, parameters, hbroken⟩ := brokenOff_of_error hd
    refine ⟨before, ms, d, after, announced (method r d), hsplit, hbefore,
      .unresolved hnamed hd hbroken, ?_⟩
    rw [announced, hevents, List.filterMap_append, List.filterMap_flatMap]
    exact congrArg (· ++ _) (announced_flatMap hbefore)

/-! ### Contexts -/

variable {config : ContextConfig}

/-- A group without a name or a namespace is not announced. -/
theorem announced_context_of_unnamed
    (h : Text.allBlank config.name = true ∨ Text.allBlank config.namespaceName = true) :
    announced (Build.context r config) = [] ∧ ∃ e, (Build.context r config).result = .error e := by
  have hunnamed : ¬ (Text.allBlank config.name = false ∧
      Text.allBlank config.namespaceName = false) := by
    rintro ⟨hname, hnamespace⟩
    simp [hname, hnamespace] at h
  obtain ⟨e, hfail⟩ := context_of_unnamed (r := r) hunnamed
  have hbuild : Build.context r config = .fail e := hfail config.procedures
  rw [hbuild]
  exact ⟨rfl, e, rfl⟩

theorem announced_context_of_ok (hname : Text.allBlank config.name = false)
    (hnamespace : Text.allBlank config.namespaceName = false) {ms : List Method}
    (h : (methods r config.name 1 config.procedures).result = .ok ms) :
    announced (Build.context r config) =
      .contextStarted config.name config.procedures.length ::
        (announced (methods r config.name 1 config.procedures) ++
          [.contextDone config.name ms.length]) := by
  rw [context_of_named config hname hnamespace, announced_announce_bind, announced_bind_of_ok h]
  rfl

theorem announced_context_of_error (hname : Text.allBlank config.name = false)
    (hnamespace : Text.allBlank config.namespaceName = false) {e : BuildError}
    (h : (methods r config.name 1 config.procedures).result = .error e) :
    announced (Build.context r config) =
      .contextStarted config.name config.procedures.length ::
        announced (methods r config.name 1 config.procedures) := by
  rw [context_of_named config hname hnamespace, announced_announce_bind,
    announced_bind_of_error h]

/-- **Progress tells the truth.** A build that succeeds announces the context with the number of its
procedures, one block for each procedure in order, and the context with the number of its methods;
each block says of a method what it is in the context. A build that fails announces nothing where
the group has no name or no namespace. Otherwise it announces the context, the whole blocks of the
procedures before the one it stops at, and a part of the block of that one, which is nothing exactly
if its name is blank. -/
theorem announces_what_it_builds (r : Remote) (config : ContextConfig) :
    let build := Build.context r config
    let started := Progress.contextStarted config.name config.procedures.length
    (∀ context, build.result = .ok context →
      announced build = started ::
        ((List.zipWith blockOf config.procedures context.methods).flatten ++
          [.contextDone config.name context.methods.length]) ∧
      List.Forall₂ (fun d m => m.procedure = d.name ∧ m.name = d.methodName ∧
        (d.trial = [] → ∀ columns, m.shape ≠ .rowSequence columns)) config.procedures
        context.methods) ∧
    (Text.allBlank config.name = true ∨ Text.allBlank config.namespaceName = true →
      announced build = [] ∧ ∃ e, build.result = .error e) ∧
    ∀ e, build.result = .error e →
      Text.allBlank config.name = false → Text.allBlank config.namespaceName = false →
      ∃ before ms d after steps, config.procedures = before ++ d :: after ∧
        List.Forall₂ (fun p m => (method r p).result = .ok m) before ms ∧
        StopsAt r config.name (before.length + 1) d e steps ∧
        announced build = started :: ((List.zipWith blockOf before ms).flatten ++ steps) := by
  intro build started
  refine ⟨fun context hcontext => ?_, announced_context_of_unnamed, fun e he hname hnamespace => ?_⟩
  · obtain ⟨⟨hname, hnamespace⟩, ms, hms, rfl⟩ := context_eq_ok_iff.1 hcontext
    refine ⟨?_, (methods_eq_ok_iff.1 hms).2.imp fun d m hm => ?_⟩
    · rw [announced_context_of_ok hname hnamespace hms, announced_methods_of_ok hms]
    · exact ⟨hm.procedure, hm.name, fun huntried => (hm.declared huntried).not_rowSequence⟩
  · have hmethods : (methods r config.name 1 config.procedures).result = .error e := by
      rwa [context_result config hname hnamespace, map_eq_error_iff] at he
    obtain ⟨before, ms, d, after, steps, hsplit, hbefore, hstop, hsteps⟩ :=
      announced_methods_of_error hmethods
    refine ⟨before, ms, d, after, steps, hsplit, hbefore, Nat.add_comm 1 _ ▸ hstop, ?_⟩
    rw [announced_context_of_error hname hnamespace hmethods, hsteps]

/-- The shop announces two blocks, of which only the second one has a trial. Against a server that
answers with a type that is not known it stops at one of its declarations, and a shop without a name
is not announced. -/
theorem announces_what_it_builds_shop :
    let server := shopServer [⟨"Id", "integer"⟩, ⟨"Name", "text"⟩]
    let puzzling := shopServer [⟨"Id", "integer"⟩, ⟨"Place", "geometry"⟩]
    let nameless : ContextConfig := { shop with name := " " }
    (∃ context, (Build.context server shop).result = .ok context ∧
      announced (Build.context server shop) =
        [.contextStarted "Shop" 2,
          .procedureStarted "Touch" "Touch", .shapeResolved "Touch" .affectedCount 0 false,
          .introspectingParameters "Touch", .parametersResolved "Touch" 1, .procedureDone "Touch",
          .procedureStarted "Find" "Find", .trialExecuting "Find" 1,
          .shapeResolved "Find" .rowSequence 2 true, .introspectingParameters "Find",
          .parametersResolved "Find" 0, .procedureDone "Find",
          .contextDone "Shop" 2]) ∧
    announced (Build.context server nameless) = [] ∧
    ∃ e, (Build.context puzzling shop).result = .error e ∧
      Text.allBlank shop.name = false ∧ Text.allBlank shop.namespaceName = false ∧
      ∃ before ms d after steps, shop.procedures = before ++ d :: after ∧
        List.Forall₂ (fun p m => (method puzzling p).result = .ok m) before ms ∧
        StopsAt puzzling "Shop" (before.length + 1) d e steps ∧
        announced (Build.context puzzling shop) =
          .contextStarted "Shop" 2 :: ((List.zipWith blockOf before ms).flatten ++ steps) := by
  intro server puzzling nameless
  obtain ⟨context, hcontext⟩ : ∃ context, (Build.context server shop).result = .ok context :=
    ⟨_, rfl⟩
  obtain ⟨e, he⟩ : ∃ e, (Build.context puzzling shop).result = .error e := ⟨_, rfl⟩
  have hsteps := ((announces_what_it_builds server shop).1 context hcontext).1
  have hnameless := ((announces_what_it_builds server nameless).2.1 (.inl (by decide))).1
  refine ⟨⟨context, hcontext, ?_⟩, hnameless, e, he, by decide, by decide, ?_⟩
  · cases hcontext
    exact hsteps
  · exact (announces_what_it_builds puzzling shop).2.2 e he (by decide) (by decide)

end Build

end Sprocket
