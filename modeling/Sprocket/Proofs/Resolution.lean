import Sprocket.Proofs.Trace
import Sprocket.Resolution.Resolve

/-!
# What resolution finds

The answers of resolution described by the answers of the remote system, and the sessions it takes.

* `ParameterOf`, `ColumnOf`, `ObservedShape`: what a row, a column and the result sets of a call
  stand for; only the first result set decides a shape;
* `bindAll_eq_ok_iff`: the bindings of a list of expressions, one each and in order;
* `parameters_eq_ok_iff`, `shapeOf_eq_ok_iff`: when resolution succeeds, and with what;
* `Remote.visit`: the one session a question takes, of which nothing is seen if no connection can
  be made.
-/

namespace Sprocket

/-- A parameter for a row of an introspection: the name as reported, with the host type of its wire
type. -/
def ParameterOf (dialect : Dialect) (row : WireColumn) (p : Parameter) : Prop :=
  p.name = row.name ∧ dialect.hostType row.wireType = .ok p.type

/-- A result column for a reported column: the name as reported, with the host type of its wire
type. -/
def ColumnOf (dialect : Dialect) (column : WireColumn) (c : ResultColumn) : Prop :=
  c.name = column.name ∧ dialect.hostType column.wireType = .ok c.type

/-- The shape that result sets stand for. Sets after the first one make no difference. -/
inductive ObservedShape (dialect : Dialect) : List (List WireColumn) → ReturnShape → Prop
  | noSet : ObservedShape dialect [] .affectedCount
  | noColumn (others : List (List WireColumn)) :
      ObservedShape dialect ([] :: others) .affectedCount
  | oneColumn {column : WireColumn} {type : HostType} (others : List (List WireColumn))
      (typed : dialect.hostType column.wireType = .ok type) :
      ObservedShape dialect ([column] :: others) (.scalar type)
  | manyColumns {columns : List WireColumn} {results : List ResultColumn}
      (others : List (List WireColumn)) (two : 2 ≤ columns.length)
      (typed : List.Forall₂ (ColumnOf dialect) columns results) :
      ObservedShape dialect (columns :: others) (.rowSequence results)

/-- A binding for each expression, in order. -/
def BindingsOf (expressions : List String) (bindings : List TrialBinding) : Prop :=
  List.Forall₂ (fun e b => TrialBinding.ofExpression e = .ok b) expressions bindings

/-! ### Bindings -/

namespace TrialBinding

theorem bindAll_eq_mapM (procedure : String) (expressions : List String) :
    bindAll procedure expressions =
      expressions.mapM fun e => (ofExpression e).mapError (ResolutionError.mk procedure) := by
  induction expressions with
  | nil => rfl
  | cons e rest ih =>
    rw [bindAll, ih, List.mapM_cons]
    generalize (rest.mapM fun e =>
      (ofExpression e).mapError (ResolutionError.mk procedure)) = bs
    cases ofExpression e with
    | error cause => rfl
    | ok b => cases bs <;> rfl

/-- Binding a list of expressions binds each of them. -/
theorem bindAll_eq_ok_iff {procedure : String} {expressions : List String}
    {bindings : List TrialBinding} :
    bindAll procedure expressions = .ok bindings ↔ BindingsOf expressions bindings := by
  rw [bindAll_eq_mapM, mapM_eq_ok_iff, BindingsOf]
  simp only [mapError_eq_ok_iff]

/-- A list of expressions can be bound exactly when each of them can. -/
theorem exists_bindAll_eq_ok_iff (procedure : String) {expressions : List String} :
    (∃ bindings, bindAll procedure expressions = .ok bindings) ↔
      ∀ e ∈ expressions, ∃ b, ofExpression e = .ok b := by
  simp only [bindAll_eq_ok_iff, BindingsOf]
  exact exists_forall₂_iff

end TrialBinding

/-! ### Types and shapes -/

namespace Resolution

theorem columnType_eq_ok_iff {dialect : Dialect} {procedure : String} {column : WireColumn}
    {type : HostType} :
    columnType dialect procedure column = .ok type ↔
      dialect.hostType column.wireType = .ok type := by
  unfold columnType
  cases dialect.hostType column.wireType <;> simp

theorem typed_eq_mapM {α : Type} (dialect : Dialect) (procedure : String)
    (build : String → HostType → α) (columns : List WireColumn) :
    typed dialect procedure build columns =
      columns.mapM fun column => (columnType dialect procedure column).map (build column.name) := by
  induction columns with
  | nil => rfl
  | cons column rest ih =>
    rw [typed, ih, List.mapM_cons]
    generalize (rest.mapM fun column =>
      (columnType dialect procedure column).map (build column.name)) = others
    cases columnType dialect procedure column with
    | error e => rfl
    | ok type => cases others <;> rfl

/-- Typing a list of columns types each of them, where what is built of a name and a type has these
for its own. -/
theorem typed_eq_ok_iff {α : Type} {dialect : Dialect} {procedure : String}
    {build : String → HostType → α} {columns : List WireColumn} {xs : List α}
    (nameOf : α → String) (typeOf : α → HostType)
    (hbuild : ∀ name type x, build name type = x ↔ nameOf x = name ∧ typeOf x = type) :
    typed dialect procedure build columns = .ok xs ↔
      List.Forall₂ (fun column x => nameOf x = column.name ∧
        dialect.hostType column.wireType = .ok (typeOf x)) columns xs := by
  have hrel : ∀ (column : WireColumn) (x : α),
      (∃ type, dialect.hostType column.wireType = .ok type ∧ build column.name type = x) ↔
        nameOf x = column.name ∧ dialect.hostType column.wireType = .ok (typeOf x) := by
    intro column x
    constructor
    · rintro ⟨type, htype, hx⟩
      obtain ⟨hname, rfl⟩ := (hbuild _ _ _).1 hx
      exact ⟨hname, htype⟩
    · rintro ⟨hname, htype⟩
      exact ⟨typeOf x, htype, (hbuild _ _ _).2 ⟨hname, rfl⟩⟩
  rw [typed_eq_mapM, mapM_eq_ok_iff]
  simp only [map_eq_ok_iff, columnType_eq_ok_iff, hrel]

theorem typed_parameters_eq_ok_iff {dialect : Dialect} {procedure : String}
    {rows : List WireColumn} {parameters : List Parameter} :
    typed dialect procedure Parameter.mk rows = .ok parameters ↔
      List.Forall₂ (ParameterOf dialect) rows parameters := by
  apply typed_eq_ok_iff Parameter.name Parameter.type
  rintro name type ⟨name', type'⟩
  rw [Parameter.mk.injEq, eq_comm, @eq_comm _ type]

theorem typed_columns_eq_ok_iff {dialect : Dialect} {procedure : String}
    {columns : List WireColumn} {results : List ResultColumn} :
    typed dialect procedure ResultColumn.mk columns = .ok results ↔
      List.Forall₂ (ColumnOf dialect) columns results := by
  apply typed_eq_ok_iff ResultColumn.name ResultColumn.type
  rintro name type ⟨name', type'⟩
  rw [ResultColumn.mk.injEq, eq_comm, @eq_comm _ type]

/-- The shape made of the first result set is the one the sets stand for. -/
theorem shapeOfColumns_eq_ok_iff {dialect : Dialect} {procedure : String}
    {sets : List (List WireColumn)} {shape : ReturnShape} :
    shapeOfColumns dialect procedure (sets.head?.getD []) = .ok shape ↔
      ObservedShape dialect sets shape := by
  -- no set at all, then a first set without columns, with one column, with more of them
  rcases sets with _ | ⟨_ | ⟨first, _ | ⟨second, more⟩⟩, others⟩
  · simp only [List.head?_nil, Option.getD_none, shapeOfColumns, Except.ok.injEq]
    constructor
    · rintro rfl; exact .noSet
    · rintro ⟨⟩; rfl
  · simp only [List.head?_cons, Option.getD_some, shapeOfColumns, Except.ok.injEq]
    constructor
    · rintro rfl; exact .noColumn others
    · intro h
      cases h with
      | noColumn => rfl
      | manyColumns _ two => simp at two
  · simp only [List.head?_cons, Option.getD_some, shapeOfColumns, map_eq_ok_iff,
      columnType_eq_ok_iff]
    constructor
    · rintro ⟨type, h, rfl⟩; exact .oneColumn others h
    · intro h
      cases h with
      | oneColumn _ typed => exact ⟨_, typed, rfl⟩
      | manyColumns _ two => simp at two
  · simp only [List.head?_cons, Option.getD_some, shapeOfColumns, map_eq_ok_iff,
      typed_columns_eq_ok_iff]
    constructor
    · rintro ⟨results, h, rfl⟩; exact .manyColumns others (by simp) h
    · intro h
      cases h with
      | manyColumns _ _ typed => exact ⟨_, typed, rfl⟩

end Resolution

/-! ### Sessions -/

namespace SessionEvent

theorem calls_append (es fs : List SessionEvent) : calls (es ++ fs) = calls es ++ calls fs :=
  List.filterMap_append

theorem openings_append (es fs : List SessionEvent) :
    openings (es ++ fs) = openings es + openings fs := List.countP_append

theorem closings_append (es fs : List SessionEvent) :
    closings (es ++ fs) = closings es + closings fs := List.countP_append

end SessionEvent

namespace Remote

/-- What a remote system sees of one question: a session of its own around it, or nothing at all
where no connection can be made. -/
def visit (r : Remote) (ask : SessionEvent) : List SessionEvent :=
  if r.connectFailure.isNone then [.opened, ask, .closed] else []

theorem inSession_result_eq_ok_iff {α : Type} {r : Remote}
    {body : Trace SessionEvent RemoteError α} {a : α} :
    (r.inSession body).result = .ok a ↔ r.connectFailure = none ∧ body.result = .ok a := by
  unfold inSession
  cases r.connectFailure <;> simp [Trace.within]

theorem inSession_events {α : Type} (r : Remote) (ask : SessionEvent)
    (answer : Except RemoteError α) : (r.inSession ⟨[ask], answer⟩).events = r.visit ask := by
  unfold inSession visit
  cases r.connectFailure <;> simp [Trace.within]

end Remote

namespace Resolution

variable {r : Remote} {procedure : String}

/-- Parameters are found exactly where the remote system can be reached and reports rows of known
types; they are these rows in order. -/
theorem parameters_eq_ok_iff {found : List Parameter} :
    (parameters r procedure).result = .ok found ↔
      r.connectFailure = none ∧ ∃ rows, r.introspect procedure = .ok rows ∧
        List.Forall₂ (ParameterOf r.dialect) rows found := by
  rw [parameters, ← Trace.bind_eq, Trace.result_bind_eq_ok_iff]
  simp only [Trace.result_relabel_eq_ok_iff, Remote.inSession_result_eq_ok_iff,
    Remote.askParameters, Trace.ofExcept_result, typed_parameters_eq_ok_iff, and_assoc,
    exists_and_left]

/-- A shape is found by a call exactly where the remote system can be reached and answers with
result sets that stand for one. -/
theorem shapeOf_eq_ok_iff {bindings : List TrialBinding} {shape : ReturnShape} :
    (shapeOf r procedure bindings).result = .ok shape ↔
      r.connectFailure = none ∧ ∃ sets, r.execute procedure = .ok sets ∧
        ObservedShape r.dialect sets shape := by
  rw [shapeOf, ← Trace.bind_eq, Trace.result_bind_eq_ok_iff]
  simp only [Trace.result_relabel_eq_ok_iff, Remote.inSession_result_eq_ok_iff,
    Remote.askResults, Trace.ofExcept_result, shapeOfColumns_eq_ok_iff, and_assoc,
    exists_and_left]

theorem parameters_events (r : Remote) (procedure : String) :
    (parameters r procedure).events = r.visit (.introspected procedure) := by
  rw [parameters, ← Trace.bind_eq, Trace.events_bind_ofExcept, Trace.relabel_events, List.map_id,
    Remote.askParameters, Remote.inSession_events]

theorem shapeOf_events (r : Remote) (procedure : String) (bindings : List TrialBinding) :
    (shapeOf r procedure bindings).events =
      r.visit (.executed procedure bindings (r.carriesOut procedure)) := by
  rw [shapeOf, ← Trace.bind_eq, Trace.events_bind_ofExcept, Trace.relabel_events, List.map_id,
    Remote.askResults, Remote.inSession_events]

theorem shapeByTrial_of_ok {expressions : List String} {bindings : List TrialBinding}
    (h : TrialBinding.bindAll procedure expressions = .ok bindings) :
    shapeByTrial r procedure expressions = shapeOf r procedure bindings := by
  rw [shapeByTrial, h, ← Trace.bind_eq, Trace.ofExcept_ok_bind]

theorem shapeByTrial_of_error {expressions : List String} {e : ResolutionError}
    (h : TrialBinding.bindAll procedure expressions = .error e) :
    shapeByTrial r procedure expressions = .fail e := by
  rw [shapeByTrial, h, ← Trace.bind_eq, Trace.ofExcept_error_bind]

end Resolution

end Sprocket
