import Sprocket.Proofs.Build

/-!
# Building one list of declarations after another

A build goes through its declarations in order and carries nothing from one to the next but the
number of the declaration, which shows in one message only. So the build of `P ++ Q` is the build
of `P`, and after it, if that succeeds, the build of `Q`.

* `BuildError.renumber`: the error of a declaration that stands further down;
* `methods_append`, `methods_renumber`: the methods of two lists, and of a list further down;
* `context_append`: the same of whole contexts, with what the remote system sees of them.
-/

namespace Sprocket

/-- An error as it reads with `count` more declarations in front. -/
def BuildError.renumber (count : Nat) : BuildError → BuildError
  | .configuration (.blankProcedureName number context) =>
    .configuration (.blankProcedureName (number + count) context)
  | e => e

namespace Build

variable {r : Remote} {α β : Type}

/-! ### Declarations further down -/

/-- A computation reads the same wherever its declaration stands. -/
def Placeless (t : Run α) : Prop := ∀ count, t.relabel id (·.renumber count) = t

theorem Placeless.bind {t : Run α} {f : α → Run β} (ht : Placeless t)
    (hf : ∀ a, Placeless (f a)) : Placeless (t >>= f) := by
  intro count
  rw [Trace.relabel_bind, ht count]
  congr 1
  funext a
  exact hf a count

theorem placeless_announce (step : Progress) : Placeless (announce step) := fun _ => rfl

theorem placeless_pure (a : α) : Placeless (pure a : Run α) := fun _ => rfl

theorem placeless_resolving (t : Trace SessionEvent ResolutionError α) :
    Placeless (resolving t) := by
  intro count
  rw [resolving, Trace.relabel_relabel]
  rfl

/-- Only the message about a blank name tells the place of a declaration. -/
theorem placeless_ofExcept {x : Except BuildError α}
    (hx : ∀ number context, x ≠ .error (.configuration (.blankProcedureName number context))) :
    Placeless (.ofExcept x : Run α) := by
  intro count
  cases x with
  | ok a => rfl
  | error e =>
    have he : e.renumber count = e := by
      unfold BuildError.renumber
      split
      · exact absurd rfl (hx _ _)
      · rfl
    simp [Trace.relabel, Trace.ofExcept, Except.mapError, he]

theorem placeless_shape (d : Declaration) : Placeless (shape r d) := by
  unfold shape shapeByTrial
  split
  · have hrest : Placeless (do
        let bindings ← resolving (.ofExcept (TrialBinding.bindAll d.name d.trial))
        announce (.trialExecuting d.name bindings.length)
        resolving (Resolution.shapeOf r d.name bindings)) :=
      (placeless_resolving _).bind fun _ =>
        (placeless_announce _).bind fun _ => placeless_resolving _
    -- a declared return type adds an announcement in front and nothing else
    cases d.returns with
    | none => exact hrest
    | some token => exact Placeless.bind (fun _ => rfl) fun _ => hrest
  · apply placeless_ofExcept
    intro number context h
    unfold shapeByDeclaration at h
    split at h
    · cases h
    · split at h <;> cases h

theorem placeless_method (d : Declaration) : Placeless (method r d) := by
  unfold method
  refine (placeless_announce _).bind fun _ => (placeless_shape d).bind fun found => ?_
  refine (placeless_announce _).bind fun _ => (placeless_announce _).bind fun _ => ?_
  refine (placeless_resolving _).bind fun parameters => (placeless_announce _).bind fun _ => ?_
  refine Placeless.bind (placeless_ofExcept ?_) fun m =>
    (placeless_announce _).bind fun _ => placeless_pure m
  intro number context h
  cases hm : Method.make d.methodName d.name parameters found d.doc <;> rw [hm] at h <;> cases h

/-- The methods of declarations further down are the same methods; only the numbers in messages
differ. -/
theorem methods_renumber (context : String) (ds : List Declaration) (number count : Nat) :
    methods r context (number + count) ds =
      (methods r context number ds).relabel id (·.renumber count) := by
  induction ds generalizing number with
  | nil => rfl
  | cons d rest ih =>
    cases h : Text.allBlank d.name with
    | true => rw [methods_cons_of_blank h, methods_cons_of_blank h]; rfl
    | false =>
      rw [methods_cons h, methods_cons h, Trace.relabel_bind, placeless_method d count,
        Nat.add_right_comm, ih]
      congr 1
      funext first
      rw [Trace.relabel_bind]
      rfl

/-- The methods of two lists are those of the first one, and then those of the second one. -/
theorem methods_append (context : String) (P Q : List Declaration) (number : Nat) :
    methods r context number (P ++ Q) = (do
      let first ← methods r context number P
      let second ← methods r context (number + P.length) Q
      pure (first ++ second)) := by
  induction P generalizing number with
  | nil => simp only [methods, List.nil_append, List.length_nil, Nat.add_zero, pure_bind, bind_pure]
  | cons d rest ih =>
    rw [List.cons_append]
    cases h : Text.allBlank d.name with
    | true => rw [methods_cons_of_blank h, methods_cons_of_blank h, Trace.fail_bind]
    | false =>
      rw [methods_cons h, methods_cons h, ih, List.length_cons]
      simp only [bind_assoc, pure_bind, List.cons_append, Nat.add_assoc, Nat.add_comm 1]

/-! ### Whole contexts -/

/-- A build of the first list that fails is the build of both lists. -/
theorem context_append_of_error {config : ContextConfig} {P : List Declaration} {e : BuildError}
    (he : (Build.context r { config with procedures := P }).result = .error e)
    (Q : List Declaration) :
    (Build.context r { config with procedures := P ++ Q }).result = .error e ∧
      contacts (Build.context r { config with procedures := P ++ Q }) =
        contacts (Build.context r { config with procedures := P }) := by
  by_cases hnamed : Text.allBlank config.name = false ∧ Text.allBlank config.namespaceName = false
  · obtain ⟨h, hn⟩ := hnamed
    rw [context_result { config with procedures := P } h hn] at he
    rw [context_result { config with procedures := P ++ Q } h hn,
      context_contacts { config with procedures := P ++ Q } h hn,
      context_contacts { config with procedures := P } h hn]
    simp only [methods_append] at he ⊢
    cases hms : (methods r config.name 1 P).result with
    | ok ms => rw [hms] at he; cases he
    | error e' =>
      rw [hms] at he
      rw [Trace.bind_of_error hms]
      exact ⟨he, rfl⟩
  · -- the declarations do not matter to a group that is not named
    obtain ⟨e', hfail⟩ := context_of_unnamed (r := r) hnamed
    rw [hfail P] at he
    rw [hfail (P ++ Q), hfail P]
    exact ⟨he, rfl⟩

/-- After a build of the first list that succeeds, both lists end as the second one does. -/
theorem context_append_of_ok {config : ContextConfig} {P : List Declaration} {first : Context}
    (hfirst : (Build.context r { config with procedures := P }).result = .ok first)
    (Q : List Declaration) :
    (Build.context r { config with procedures := P ++ Q }).result =
        ((Build.context r { config with procedures := Q }).result.mapError
          (·.renumber P.length)).map
            (fun second => { first with methods := first.methods ++ second.methods }) ∧
      contacts (Build.context r { config with procedures := P ++ Q }) =
        contacts (Build.context r { config with procedures := P }) ++
          contacts (Build.context r { config with procedures := Q }) := by
  by_cases hnamed : Text.allBlank config.name = false ∧ Text.allBlank config.namespaceName = false
  · obtain ⟨h, hn⟩ := hnamed
    rw [context_result { config with procedures := P } h hn] at hfirst
    rw [context_result { config with procedures := P ++ Q } h hn,
      context_result { config with procedures := Q } h hn,
      context_contacts { config with procedures := P ++ Q } h hn,
      context_contacts { config with procedures := P } h hn,
      context_contacts { config with procedures := Q } h hn]
    simp only [methods_append, methods_renumber] at hfirst ⊢
    obtain ⟨ms, hms, rfl⟩ := map_eq_ok_iff.1 hfirst
    constructor
    · rw [Trace.bind_of_ok hms]
      cases hq : (methods r config.name 1 Q).result with
      | error e => rw [Trace.bind_of_error (e := e.renumber P.length) (by simp [Trace.relabel, hq,
          Except.mapError])]; rfl
      | ok ms' => rw [Trace.bind_of_ok (Trace.result_relabel_eq_ok_iff.2 hq)]; rfl
    · rw [contacts_bind_of_ok hms, contacts_bind_of_quiet fun _ => contacts_pure _]
      simp [contacts]
  · obtain ⟨e', hfail⟩ := context_of_unnamed (r := r) hnamed
    rw [hfail P] at hfirst
    cases hfirst

/-- **Building is sequential.** A build of `P` that fails is the build of `P ++ Q`, whatever `Q`
is, with the same error and the same contacts. After a build of `P` that succeeds, the build of
`P ++ Q` succeeds exactly when that of `Q` does; it has the methods of both, its contacts are those
of both, and its error is that of `Q`, which stands further down. -/
theorem context_append (r : Remote) (config : ContextConfig) (P Q : List Declaration) :
    let build := fun ds : List Declaration =>
      Build.context r { config with procedures := ds }
    (∀ e, (build P).result = .error e →
      (build (P ++ Q)).result = .error e ∧ contacts (build (P ++ Q)) = contacts (build P)) ∧
    ∀ first, (build P).result = .ok first →
      ((∃ whole, (build (P ++ Q)).result = .ok whole) ↔
        ∃ second, (build Q).result = .ok second) ∧
      (∀ second, (build Q).result = .ok second →
        (build (P ++ Q)).result =
          .ok { first with methods := first.methods ++ second.methods }) ∧
      (∀ e, (build Q).result = .error e →
        (build (P ++ Q)).result = .error (e.renumber P.length)) ∧
      contacts (build (P ++ Q)) = contacts (build P) ++ contacts (build Q) ∧
      SessionEvent.calls (contacts (build (P ++ Q))) =
        SessionEvent.calls (contacts (build P)) ++ SessionEvent.calls (contacts (build Q)) ∧
      SessionEvent.openings (contacts (build (P ++ Q))) =
        SessionEvent.openings (contacts (build P)) +
          SessionEvent.openings (contacts (build Q)) ∧
      SessionEvent.closings (contacts (build (P ++ Q))) =
        SessionEvent.closings (contacts (build P)) +
          SessionEvent.closings (contacts (build Q)) := by
  refine ⟨fun e he => context_append_of_error he Q, fun first hfirst => ?_⟩
  obtain ⟨hresult, hcontacts⟩ := context_append_of_ok hfirst Q
  refine ⟨?_, ?_, ?_, hcontacts, ?_, ?_, ?_⟩
  · rw [hresult]
    simp only [map_eq_ok_iff, mapError_eq_ok_iff]
    constructor
    · rintro ⟨-, second, h, -⟩; exact ⟨second, h⟩
    · rintro ⟨second, h⟩; exact ⟨_, second, h, rfl⟩
  · intro second h
    rw [hresult, h]
    rfl
  · intro e h
    rw [hresult, h]
    rfl
  · rw [hcontacts, SessionEvent.calls_append]
  · rw [hcontacts, SessionEvent.openings_append]
  · rw [hcontacts, SessionEvent.closings_append]

end Build

end Sprocket
