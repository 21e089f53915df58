import Sprocket.Proofs.Build

/-!
# Session discipline

Sessions are opened one at a time, asked while they are open, and closed whatever the answer was.
A single bit says whether a session is open; each event is a step of it, and the balance of
openings and closings is what a step preserves.

* `SessionEvent.step`, `SessionEvent.run`: the events that may follow each other;
* `step_balance`, `run_balance`: the balance over one event and over a list of them;
* `Disciplined`: the balance told of every moment of a history, and `disciplined_of_orderly`;
* `SessionsOf`, `methods_contacts_of_ok`: everything a successful build does with a remote system;
* `history_disciplined`: any requests, one after another, whatever they end in.
-/

namespace Sprocket

namespace SessionEvent

/-- What an event does to the openness of the session, if it may happen at all. -/
def step : Bool → SessionEvent → Option Bool
  | false, .opened => some true
  | true, .introspected _ => some true
  | true, .executed _ _ _ => some true
  | true, .closed => some false
  | _, _ => none

/-- What a list of events does to the openness of the session. -/
def run (s : Bool) : List SessionEvent → Option Bool
  | [] => some s
  | e :: es => (step s e).bind (run · es)

/-- The events that ask something of the remote system. -/
def isQuestion : SessionEvent → Bool
  | introspected _ => true
  | executed _ _ _ => true
  | _ => false

/-- The call an event attempts, be it refused or carried out. -/
def attempt? : SessionEvent → Option (String × List TrialBinding)
  | executed procedure arguments _ => some (procedure, arguments)
  | _ => none

/-- The calls attempted, in order. -/
def attempts (events : List SessionEvent) : List (String × List TrialBinding) :=
  events.filterMap attempt?

/-- No session is open before or after the events, and none of them is out of place. -/
def Orderly (events : List SessionEvent) : Prop := run false events = some false

/-- The discipline of a history: what is opened is closed, at no moment is more than one session
open, and questions are asked only while one is. -/
structure Disciplined (events : List SessionEvent) : Prop where
  settled : closings events = openings events
  single : ∀ before after, events = before ++ after →
    closings before ≤ openings before ∧ openings before ≤ closings before + 1
  asked : ∀ before event after, events = before ++ event :: after → event.isQuestion = true →
    openings before = closings before + 1

/-! ### The balance -/

theorem openings_cons (e : SessionEvent) (es : List SessionEvent) :
    openings (e :: es) = openings [e] + openings es := openings_append [e] es

theorem closings_cons (e : SessionEvent) (es : List SessionEvent) :
    closings (e :: es) = closings [e] + closings es := closings_append [e] es

theorem attempts_append (es fs : List SessionEvent) :
    attempts (es ++ fs) = attempts es ++ attempts fs := List.filterMap_append

theorem run_append (s : Bool) (es fs : List SessionEvent) :
    run s (es ++ fs) = (run s es).bind (run · fs) := by
  induction es generalizing s with
  | nil => rfl
  | cons e es ih =>
    rw [List.cons_append, run, run, Option.bind_assoc]
    congr 1
    funext t
    exact ih t

theorem step_balance {s t : Bool} {e : SessionEvent} (h : step s e = some t) :
    openings [e] + s.toNat = closings [e] + t.toNat := by
  cases s <;> cases e <;> simp only [step, Option.some.injEq, reduceCtorEq] at h <;> subst h <;> rfl

/-- A question leaves a session open that was open before. -/
theorem step_of_isQuestion {s t : Bool} {e : SessionEvent} (he : e.isQuestion = true)
    (h : step s e = some t) : s = true := by
  cases s
  · cases e <;> simp [step, isQuestion] at h he
  · rfl

/-- The openings exceed the closings by the session that is open in the end. -/
theorem run_balance {s t : Bool} {es : List SessionEvent} (h : run s es = some t) :
    openings es + s.toNat = closings es + t.toNat := by
  induction es generalizing s with
  | nil =>
    rw [run, Option.some.injEq] at h
    subst h
    rfl
  | cons e es ih =>
    obtain ⟨u, hstep, hrest⟩ := Option.bind_eq_some_iff.1 h
    have hfirst := step_balance hstep
    have hothers := ih hrest
    rw [openings_cons, closings_cons]
    omega

/-- Orderly events are disciplined at every moment. -/
theorem disciplined_of_orderly {events : List SessionEvent} (h : Orderly events) :
    Disciplined events where
  settled := by
    have := run_balance h
    omega
  single := by
    rintro before after rfl
    rw [Orderly, run_append] at h
    obtain ⟨t, hbefore, -⟩ := Option.bind_eq_some_iff.1 h
    have hbalance := run_balance hbefore
    have hle := Bool.toNat_le t
    simp only [Bool.toNat_false] at hbalance
    omega
  asked := by
    rintro before event after rfl hquestion
    rw [Orderly, run_append] at h
    obtain ⟨t, hbefore, hafter⟩ := Option.bind_eq_some_iff.1 h
    obtain ⟨u, hstep, -⟩ := Option.bind_eq_some_iff.1 hafter
    obtain rfl := step_of_isQuestion hquestion hstep
    have hbalance := run_balance hbefore
    simp only [Bool.toNat_false, Bool.toNat_true] at hbalance
    omega

example : run false [.opened, .introspected "Find", .closed] = some false := rfl

example : run false [.opened, .introspected "Find", .opened] = none := rfl

theorem orderly_cumulative : Trace.Cumulative Orderly where
  nil := rfl
  append := by
    intro es fs hes hfs
    rw [Orderly, run_append, hes]
    exact hfs

end SessionEvent

open SessionEvent

/-! ### Resolution -/

theorem Remote.visit_orderly (r : Remote) {ask : SessionEvent} (h : ask.isQuestion = true) :
    Orderly (r.visit ask) := by
  unfold Remote.visit
  split
  · cases ask <;> simp [isQuestion] at h <;> rfl
  · rfl

theorem Remote.visit_openings (r : Remote) {ask : SessionEvent} (h : ask.isQuestion = true) :
    openings (r.visit ask) = if r.connectFailure = none then 1 else 0 := by
  unfold Remote.visit
  cases r.connectFailure with
  | none => cases ask <;> simp [isQuestion] at h <;> rfl
  | some text => rfl

theorem Remote.visit_attempts (r : Remote) (procedure : String) (arguments : List TrialBinding)
    (carried : Bool) :
    attempts (r.visit (.executed procedure arguments carried)) =
      if r.connectFailure = none then [(procedure, arguments)] else [] := by
  unfold Remote.visit
  cases r.connectFailure <;> rfl

theorem Remote.visit_attempts_introspected (r : Remote) (procedure : String) :
    attempts (r.visit (.introspected procedure)) = [] := by
  unfold Remote.visit
  cases r.connectFailure <;> rfl

/-- A call that is answered with result sets was carried out. -/
theorem Remote.carriesOut_of_execute (r : Remote) {procedure : String}
    {sets : List (List WireColumn)} (h : r.execute procedure = .ok sets) :
    r.carriesOut procedure = true := by
  unfold Remote.execute at h
  unfold Remote.carriesOut
  split at h
  · cases h
  · split at h
    · cases h
    · cases h
    · simp [*]

namespace Resolution

variable {r : Remote} {procedure : String}

theorem parameters_orderly (r : Remote) (procedure : String) :
    Orderly (parameters r procedure).events := by
  rw [parameters_events]
  exact r.visit_orderly rfl

theorem shapeOf_orderly (r : Remote) (procedure : String) (bindings : List TrialBinding) :
    Orderly (shapeOf r procedure bindings).events := by
  rw [shapeOf_events]
  exact r.visit_orderly rfl

/-- A trial whose arguments can be bound takes one visit; otherwise nothing is seen of it. -/
theorem shapeByTrial_events (r : Remote) (procedure : String) (expressions : List String) :
    (∃ bindings, BindingsOf expressions bindings ∧
      (shapeByTrial r procedure expressions).events =
        r.visit (.executed procedure bindings (r.carriesOut procedure))) ∨
    (∃ e ∈ expressions, ∃ cause, TrialBinding.ofExpression e = .error cause) ∧
      (shapeByTrial r procedure expressions).events = [] := by
  cases h : TrialBinding.bindAll procedure expressions with
  | ok bindings =>
    refine .inl ⟨bindings, TrialBinding.bindAll_eq_ok_iff.1 h, ?_⟩
    rw [shapeByTrial_of_ok h, shapeOf_events]
  | error e =>
    refine .inr ⟨?_, by rw [shapeByTrial_of_error h, Trace.fail_events]⟩
    -- if each expression could be bound, all of them could
    by_contra hall
    have hbound : ∀ e ∈ expressions, ∃ b, TrialBinding.ofExpression e = .ok b := by
      intro e he
      cases hb : TrialBinding.ofExpression e with
      | ok b => exact ⟨b, rfl⟩
      | error cause => exact absurd ⟨e, he, cause, hb⟩ hall
    obtain ⟨bindings, hok⟩ := (TrialBinding.exists_bindAll_eq_ok_iff procedure).2 hbound
    rw [h] at hok
    cases hok

/-- A trial takes one session, except that none is opened where no connection can be made or an
expression cannot be bound. -/
theorem shapeByTrial_openings (r : Remote) (procedure : String) (expressions : List String) :
    openings (shapeByTrial r procedure expressions).events ≤ 1 ∧
      (openings (shapeByTrial r procedure expressions).events = 0 ↔
        r.connectFailure ≠ none ∨
          ∃ e ∈ expressions, ∃ cause, TrialBinding.ofExpression e = .error cause) := by
  obtain ⟨bindings, hbindings, h⟩ | ⟨hunbound, h⟩ := shapeByTrial_events r procedure expressions
  · have hbound : ¬ ∃ e ∈ expressions, ∃ cause, TrialBinding.ofExpression e = .error cause := by
      rintro ⟨e, he, cause, hcause⟩
      obtain ⟨b, hb⟩ := exists_forall₂_iff.1 ⟨bindings, hbindings⟩ e he
      rw [hcause] at hb
      cases hb
    rw [h, r.visit_openings rfl]
    split <;> simp [*]
  · rw [h]
    exact ⟨Nat.zero_le 1, fun _ => .inr hunbound, fun _ => rfl⟩

end Resolution

/-! ### Builds -/

/-- A call of the procedure of a declaration with its sample arguments, in order. -/
def CallOf (d : Declaration) (call : String × List TrialBinding) : Prop :=
  call.1 = d.name ∧ BindingsOf d.trial call.2

/-- What a declaration that is built does with a remote system: a trial in a session of its own,
where sample arguments are declared, and then an introspection in another one. -/
inductive SessionsOf (d : Declaration) : List SessionEvent → Prop
  | stated (h : d.isTrial = false) : SessionsOf d [.opened, .introspected d.name, .closed]
  | tried (h : d.isTrial = true) {bindings : List TrialBinding}
      (bound : BindingsOf d.trial bindings) :
      SessionsOf d [.opened, .executed d.name bindings true, .closed,
        .opened, .introspected d.name, .closed]

namespace SessionsOf

variable {d : Declaration} {es : List SessionEvent}

theorem openings_eq (h : SessionsOf d es) :
    openings es = 1 + ([d].filter (·.isTrial)).length := by
  cases h with
  | stated h => simp [h, openings]
  | tried h => simp [h, openings]

theorem callOf_calls (h : SessionsOf d es) :
    List.Forall₂ CallOf ([d].filter (·.isTrial)) (calls es) := by
  cases h with
  | stated h =>
    rw [List.filter_singleton, h]
    exact .nil
  | tried h bound =>
    rw [List.filter_singleton, h]
    exact .cons ⟨rfl, bound⟩ .nil

/-- Of a declaration that is built every call attempted is carried out. -/
theorem attempts_eq_calls (h : SessionsOf d es) : attempts es = calls es := by
  cases h <;> rfl

end SessionsOf

/-- Declarations built one after another take a session each, and those with sample arguments one
more, in which they are called. -/
theorem sessionsOf_flatten {ds : List Declaration} {parts : List (List SessionEvent)}
    (h : List.Forall₂ SessionsOf ds parts) :
    openings parts.flatten = ds.length + (ds.filter (·.isTrial)).length ∧
      List.Forall₂ CallOf (ds.filter (·.isTrial)) (calls parts.flatten) := by
  induction h with
  | nil => exact ⟨rfl, .nil⟩
  | @cons d part ds parts hpart _ ih =>
    obtain ⟨hopenings, hcalls⟩ := ih
    have hfirst := hpart.openings_eq
    rw [← List.singleton_append (x := d), List.filter_append, List.flatten_cons,
      openings_append, calls_append]
    refine ⟨?_, List.rel_append hpart.callOf_calls hcalls⟩
    rw [List.length_append, List.length_append, List.length_singleton]
    omega

namespace Build

variable {r : Remote}

theorem contacts_shapeByTrial (r : Remote) (d : Declaration) :
    contacts (shapeByTrial r d) = (Resolution.shapeByTrial r d.name d.trial).events := by
  have hrest : contacts (do
      let bindings ← resolving (.ofExcept (TrialBinding.bindAll d.name d.trial))
      announce (.trialExecuting d.name bindings.length)
      resolving (Resolution.shapeOf r d.name bindings)) =
        (Resolution.shapeByTrial r d.name d.trial).events := by
    cases h : TrialBinding.bindAll d.name d.trial with
    | error e =>
      rw [Resolution.shapeByTrial_of_error h]
      rfl
    | ok bindings =>
      rw [Resolution.shapeByTrial_of_ok h, contacts_bind_of_ok (a := bindings) rfl,
        contacts_resolving, contacts_announce_bind, contacts_resolving]
      rfl
  unfold shapeByTrial
  cases d.returns <;> exact hrest

theorem contacts_shape (r : Remote) (d : Declaration) :
    contacts (shape r d) =
      if d.isTrial then (Resolution.shapeByTrial r d.name d.trial).events else [] := by
  unfold shape
  split
  · exact contacts_shapeByTrial r d
  · rfl

/-- A declaration whose shape is found is introspected, whatever comes of that. -/
theorem contacts_method_of_ok {d : Declaration} {found : ReturnShape}
    (h : (shape r d).result = .ok found) :
    contacts (method r d) = contacts (shape r d) ++ r.visit (.introspected d.name) := by
  unfold method
  rw [contacts_announce_bind, contacts_bind_of_ok h, contacts_announce_bind,
    contacts_announce_bind, contacts_bind_of_quiet, contacts_resolving,
    Resolution.parameters_events]
  intro parameters
  rw [contacts_announce_bind, contacts_bind_of_quiet, contacts_ofExcept]
  intro m
  rw [contacts_announce_bind, contacts_pure]

theorem contacts_method_of_error {d : Declaration} {e : BuildError}
    (h : (shape r d).result = .error e) : contacts (method r d) = contacts (shape r d) := by
  unfold method
  rw [contacts_announce_bind, contacts_bind_of_error h]

/-! ### Every moment of a build -/

theorem shape_orderly (r : Remote) (d : Declaration) : Orderly (contacts (shape r d)) := by
  rw [contacts_shape]
  split
  · obtain ⟨bindings, -, h⟩ | ⟨-, h⟩ := Resolution.shapeByTrial_events r d.name d.trial
    · rw [h]
      exact r.visit_orderly rfl
    · rw [h]
      rfl
  · rfl

theorem method_orderly (r : Remote) (d : Declaration) : Orderly (contacts (method r d)) := by
  cases h : (shape r d).result with
  | error e =>
    rw [contacts_method_of_error h]
    exact shape_orderly r d
  | ok found =>
    rw [contacts_method_of_ok h]
    exact orderly_cumulative.append (shape_orderly r d) (r.visit_orderly rfl)

theorem methods_orderly (r : Remote) (context : String) (number : Nat) (ds : List Declaration) :
    Orderly (contacts (methods r context number ds)) := by
  induction ds generalizing number with
  | nil => rfl
  | cons d rest ih =>
    cases h : Text.allBlank d.name with
    | true =>
      rw [methods_cons_of_blank h]
      rfl
    | false =>
      have hproject := orderly_cumulative.filterMap BuildEvent.session?
      rw [methods_cons h]
      refine hproject.bind (method_orderly r d) fun first _ => ?_
      exact hproject.bind (ih (number + 1)) fun others _ => rfl

theorem context_orderly (r : Remote) (config : ContextConfig) :
    Orderly (contacts (Build.context r config)) := by
  by_cases hname : Text.allBlank config.name = true
  · rw [context_of_blank_name config hname]
    rfl
  · rw [Bool.not_eq_true] at hname
    by_cases hn : Text.allBlank config.namespaceName = true
    · rw [context_of_blank_namespace config hname hn]
      rfl
    · rw [Bool.not_eq_true] at hn
      rw [context_contacts config hname hn]
      exact methods_orderly r config.name 1 config.procedures

/-! ### What a build calls -/

/-- The shape of a declaration takes at most one call, with its own arguments, and none where it
declares no arguments. -/
theorem shape_attempts (r : Remote) (d : Declaration) :
    ∃ tried, tried <+: [d].filter (·.isTrial) ∧
      List.Forall₂ CallOf tried (attempts (contacts (shape r d))) := by
  rw [contacts_shape]
  cases htrial : d.isTrial with
  | false => exact ⟨[], List.nil_prefix, .nil⟩
  | true =>
    rw [if_pos rfl, List.filter_singleton, htrial]
    obtain ⟨bindings, hbound, h⟩ | ⟨-, h⟩ := Resolution.shapeByTrial_events r d.name d.trial
    · rw [h, r.visit_attempts]
      split
      · exact ⟨[d], List.prefix_rfl, .cons ⟨rfl, hbound⟩ .nil⟩
      · exact ⟨[], List.nil_prefix, .nil⟩
    · rw [h]
      exact ⟨[], List.nil_prefix, .nil⟩

theorem method_attempts (r : Remote) (d : Declaration) :
    ∃ tried, tried <+: [d].filter (·.isTrial) ∧
      List.Forall₂ CallOf tried (attempts (contacts (method r d))) := by
  obtain ⟨tried, hprefix, hcalls⟩ := shape_attempts r d
  refine ⟨tried, hprefix, ?_⟩
  cases h : (shape r d).result with
  | error e =>
    rw [contacts_method_of_error h]
    exact hcalls
  | ok found =>
    rw [contacts_method_of_ok h, attempts_append, r.visit_attempts_introspected, List.append_nil]
    exact hcalls

/-- A declaration that is built is tried where it declares sample arguments, and then
introspected. -/
theorem method_contacts_of_ok {d : Declaration} {m : Method}
    (h : (method r d).result = .ok m) : SessionsOf d (contacts (method r d)) := by
  obtain ⟨-, -, reachable, hbound, hm⟩ := method_eq_ok_iff.1 h
  obtain ⟨found, hshape⟩ : ∃ found, (shape r d).result = .ok found := by
    unfold method at h
    rw [announce, Trace.tell_bind_result] at h
    obtain ⟨found, hshape, -⟩ := Trace.result_bind_eq_ok_iff.1 h
    exact ⟨found, hshape⟩
  have hvisit : ∀ ask, r.visit ask = [.opened, ask, .closed] := by
    intro ask
    rw [Remote.visit, reachable]
    rfl
  rw [contacts_method_of_ok hshape, contacts_shape, hvisit]
  cases htrial : d.isTrial with
  | false => exact .stated htrial
  | true =>
    rw [if_pos rfl]
    obtain ⟨bindings, hbindings, hevents⟩ | ⟨⟨e, he, cause, hcause⟩, -⟩ :=
      Resolution.shapeByTrial_events r d.name d.trial
    · -- a call that led to a method was answered, so it was not refused
      obtain ⟨sets, hsets, -⟩ := hm.tried (by simpa [Declaration.isTrial] using htrial)
      rw [hevents, hvisit, r.carriesOut_of_execute hsets]
      exact .tried htrial hbindings
    · obtain ⟨b, hb⟩ := hbound e he
      rw [hcause] at hb
      cases hb

/-- A successful build does what its declarations do, one after another, and nothing else. -/
theorem methods_contacts_of_ok {context : String} {number : Nat} {ds : List Declaration}
    {ms : List Method} (h : (methods r context number ds).result = .ok ms) :
    ∃ parts, List.Forall₂ SessionsOf ds parts ∧
      contacts (methods r context number ds) = parts.flatten := by
  obtain ⟨hmethods, hevents⟩ := methods_events_of_ok h
  refine ⟨ds.map fun d => contacts (method r d), ?_, ?_⟩
  · rw [List.forall₂_map_right_iff, List.forall₂_same]
    intro d hd
    obtain ⟨m, -, hm⟩ := exists_mem_of_forall₂ hmethods.flip hd
    exact method_contacts_of_ok hm
  · rw [contacts, hevents, List.filterMap_flatMap, ← List.flatMap_def]
    rfl

/-- A build calls the procedures of the declarations with sample arguments, in order, as far as
it gets. -/
theorem methods_attempts (r : Remote) (context : String) (number : Nat)
    (ds : List Declaration) :
    ∃ tried, tried <+: ds.filter (·.isTrial) ∧
      List.Forall₂ CallOf tried (attempts (contacts (methods r context number ds))) := by
  induction ds generalizing number with
  | nil => exact ⟨[], List.nil_prefix, .nil⟩
  | cons d rest ih =>
    rw [← List.singleton_append (x := d), List.filter_append, List.singleton_append]
    cases hblank : Text.allBlank d.name with
    | true =>
      rw [methods_cons_of_blank hblank]
      exact ⟨[], List.nil_prefix, .nil⟩
    | false =>
      rw [methods_cons hblank]
      cases hfirst : (method r d).result with
      | error e =>
        rw [contacts_bind_of_error hfirst]
        obtain ⟨tried, hprefix, hcalls⟩ := method_attempts r d
        exact ⟨tried, hprefix.trans (List.prefix_append _ _), hcalls⟩
      | ok first =>
        obtain ⟨tried, hprefix, hcalls⟩ := ih (number + 1)
        refine ⟨_, (List.prefix_append_right_inj _).2 hprefix, ?_⟩
        rw [contacts_bind_of_ok hfirst, contacts_bind_of_quiet fun _ => contacts_pure _,
          attempts_append]
        have hmethod := method_contacts_of_ok hfirst
        rw [hmethod.attempts_eq_calls]
        exact List.rel_append hmethod.callOf_calls hcalls

/-- A context that is built takes the sessions of its declarations. -/
theorem context_sessions {config : ContextConfig} {context : Context}
    (h : (Build.context r config).result = .ok context) :
    ∃ parts, List.Forall₂ SessionsOf config.procedures parts ∧
      contacts (Build.context r config) = parts.flatten := by
  obtain ⟨⟨hname, hn⟩, ms, hms, -⟩ := context_eq_ok_iff.1 h
  rw [context_contacts config hname hn]
  exact methods_contacts_of_ok hms

theorem context_attempts (r : Remote) (config : ContextConfig) :
    ∃ tried, tried <+: config.procedures.filter (·.isTrial) ∧
      List.Forall₂ CallOf tried (attempts (contacts (Build.context r config))) := by
  by_cases hnamed : Text.allBlank config.name = false ∧ Text.allBlank config.namespaceName = false
  · rw [context_contacts config hnamed.1 hnamed.2]
    exact methods_attempts r config.name 1 config.procedures
  · obtain ⟨e, hfail⟩ := context_of_unnamed (r := r) hnamed
    have hconfig := hfail config.procedures
    exact ⟨[], List.nil_prefix, by rw [hconfig]; exact .nil⟩

end Build

/-! ### Whole runs -/

/-- What may be asked of a remote system. -/
inductive Request
  | parameters (procedure : String)
  | shapeOf (procedure : String) (bindings : List TrialBinding)
  | shapeByTrial (procedure : String) (expressions : List String)
  | context (config : ContextConfig)

/-- What a remote system sees of a request. -/
def Request.contacts (r : Remote) : Request → List SessionEvent
  | parameters procedure => (Resolution.parameters r procedure).events
  | shapeOf procedure bindings => (Resolution.shapeOf r procedure bindings).events
  | shapeByTrial procedure expressions => (Resolution.shapeByTrial r procedure expressions).events
  | context config => Build.contacts (Build.context r config)

/-- What a remote system sees of requests made one after another, each of them whatever the
earlier ones ended in. -/
def history (r : Remote) (requests : List Request) : List SessionEvent :=
  requests.flatMap (·.contacts r)

theorem Request.contacts_orderly (r : Remote) (request : Request) :
    Orderly (request.contacts r) := by
  cases request with
  | parameters procedure => exact Resolution.parameters_orderly r procedure
  | shapeOf procedure bindings => exact Resolution.shapeOf_orderly r procedure bindings
  | shapeByTrial procedure expressions =>
    obtain ⟨bindings, -, h⟩ | ⟨-, h⟩ := Resolution.shapeByTrial_events r procedure expressions
    · rw [contacts, h]
      exact r.visit_orderly rfl
    · rw [contacts, h]
      rfl
  | context config => exact Build.context_orderly r config

theorem history_orderly (r : Remote) (requests : List Request) : Orderly (history r requests) :=
  orderly_cumulative.flatMap requests fun request _ => request.contacts_orderly r

/-- **Session discipline.** However requests follow each other and whatever they end in, the
history is disciplined. A question takes exactly one session, except that none is opened where no
connection can be made or sample arguments cannot be bound. A build that succeeds takes one session
for each declaration, and one more for each with sample arguments; the calls carried out are those
of the latter, in order and with their own arguments. No build attempts any other call. -/
theorem history_disciplined (r : Remote) :
    (∀ requests, Disciplined (history r requests)) ∧
    (∀ procedure, openings ((Request.parameters procedure).contacts r) =
      if r.connectFailure = none then 1 else 0) ∧
    (∀ procedure bindings, openings ((Request.shapeOf procedure bindings).contacts r) =
      if r.connectFailure = none then 1 else 0) ∧
    (∀ procedure expressions,
      openings ((Request.shapeByTrial procedure expressions).contacts r) ≤ 1 ∧
      (openings ((Request.shapeByTrial procedure expressions).contacts r) = 0 ↔
        r.connectFailure ≠ none ∨
          ∃ e ∈ expressions, ∃ cause, TrialBinding.ofExpression e = .error cause)) ∧
    (∀ config context, (Build.context r config).result = .ok context →
      openings ((Request.context config).contacts r) =
        config.procedures.length + (config.procedures.filter (·.isTrial)).length ∧
      List.Forall₂ CallOf (config.procedures.filter (·.isTrial))
        (calls ((Request.context config).contacts r))) ∧
    ∀ config, ∃ tried, tried <+: config.procedures.filter (·.isTrial) ∧
      List.Forall₂ CallOf tried (attempts ((Request.context config).contacts r)) := by
  refine ⟨fun requests => disciplined_of_orderly (history_orderly r requests), ?_, ?_, ?_, ?_,
    fun config => Build.context_attempts r config⟩
  · intro procedure
    rw [Request.contacts, Resolution.parameters_events]
    exact r.visit_openings rfl
  · intro procedure bindings
    rw [Request.contacts, Resolution.shapeOf_events]
    exact r.visit_openings rfl
  · intro procedure expressions
    rw [Request.contacts]
    exact Resolution.shapeByTrial_openings r procedure expressions
  · intro config context h
    obtain ⟨parts, hparts, hcontacts⟩ := Build.context_sessions h
    rw [Request.contacts, hcontacts]
    exact sessionsOf_flatten hparts

end Sprocket
