import Sprocket.Manifest.Read
import Sprocket.Proofs.Trace

/-!
# Well-formed manifests

Validation accepts the well-formed manifests and no others. What it reports of another one is the
first requirement that does not hold, in the order of the groups and of the settings in a group.

* `Identifier.Usable`, `ContextConfig.WellFormed`, `Manifest.WellFormed`: what a manifest has to be,
  the segments of a namespace being what stands between its dots;
* `Requirement`, `Requirement.Reports`: a single thing it has to be, and the problem otherwise;
* `Manifest.requirements`: all of them, in the order in which they are looked at;
* `Meets`: a check that passes or reports the first requirement that does not hold;
* `validate_meets`, `requirements_hold_iff`: validation is such a check, of well-formedness;
* `wellFormed_of_read`: what is read from a text is well-formed.
-/

namespace Sprocket

/-! ### Identifiers -/

namespace Identifier

/-- The characters an identifier may begin with. -/
def IsStart (c : Char) : Prop :=
  ('A' ≤ c ∧ c ≤ 'Z') ∨ ('a' ≤ c ∧ c ≤ 'z') ∨ c = '_'

/-- The characters an identifier may go on with. -/
def IsPart (c : Char) : Prop := IsStart c ∨ ('0' ≤ c ∧ c ≤ '9')

/-- The form of an identifier. -/
def Formed (name : String) : Prop :=
  ∃ c r, name.toList = c :: r ∧ IsStart c ∧ ∀ d ∈ r, IsPart d

/-- A name that may stand in generated code. -/
def Usable (name : String) : Prop := Formed name ∧ name ∉ keywords

/-- What keeps a name from having the form of an identifier. -/
inductive FaultOf (name : String) : Fault → Prop
  | empty (h : name.toList = []) : FaultOf name .empty
  | start {c : Char} {r : List Char} (h : name.toList = c :: r) (hc : ¬ IsStart c) :
      FaultOf name .start
  | character {c d : Char} {r : List Char} (h : name.toList = c :: r) (hc : IsStart c)
      (hd : d ∈ r) (hpart : ¬ IsPart d) : FaultOf name .character

theorem isStart_iff {c : Char} : (c.isAlpha || c == '_') = true ↔ IsStart c := by
  have hupper : c.isUpper = true ↔ 'A' ≤ c ∧ c ≤ 'Z' := by
    show decide ('A' ≤ c ∧ c ≤ 'Z') = true ↔ _
    exact decide_eq_true_iff
  have hlower : c.isLower = true ↔ 'a' ≤ c ∧ c ≤ 'z' := by
    show (decide ('a' ≤ c) && decide (c ≤ 'z')) = true ↔ _
    rw [Bool.and_eq_true, decide_eq_true_eq, decide_eq_true_eq]
  show ((c.isUpper || c.isLower) || c == '_') = true ↔ _
  rw [Bool.or_eq_true, Bool.or_eq_true, beq_iff_eq, hupper, hlower, or_assoc]
  rfl

theorem isPart_iff {c : Char} : Text.isWordChar c = true ↔ IsPart c := by
  have hdigit : c.isDigit = true ↔ '0' ≤ c ∧ c ≤ '9' := by
    show (decide ('0' ≤ c) && decide (c ≤ '9')) = true ↔ _
    rw [Bool.and_eq_true, decide_eq_true_eq, decide_eq_true_eq]
  show ((c.isAlpha || c.isDigit) || c == '_') = true ↔ _
  rw [IsPart, ← isStart_iff, ← hdigit]
  simp only [Bool.or_eq_true]
  exact or_right_comm

/-- A name has the form of an identifier if no fault is found in it. -/
theorem fault?_eq_none_iff {name : String} : fault? name = none ↔ Formed name := by
  unfold fault? Formed
  cases name.toList with
  | nil => simp
  | cons c r =>
    by_cases hc : IsStart c
    · have hall : r.all Text.isWordChar = true ↔ ∀ d ∈ r, IsPart d := by
        simp only [List.all_eq_true, isPart_iff]
      simp [isStart_iff.2 hc, hc, hall]
    · have hfalse : (c.isAlpha || c == '_') = false := by
        rw [← Bool.not_eq_true, isStart_iff]
        exact hc
      simp [hfalse, hc]

theorem faultOf_of_fault? {name : String} {fault : Fault} (h : fault? name = some fault) :
    FaultOf name fault := by
  unfold fault? at h
  split at h
  next hname =>
    obtain rfl := Option.some.inj h
    exact .empty hname
  next c r hname =>
    split at h
    next hc =>
      obtain rfl := Option.some.inj h
      refine .start hname fun hstart => ?_
      rw [isStart_iff.2 hstart] at hc
      cases hc
    next hc =>
      split at h
      · cases h
      next hall =>
        obtain rfl := Option.some.inj h
        have hstart : IsStart c :=
          isStart_iff.1 (by simpa only [Bool.not_eq_true', Bool.not_eq_false] using hc)
        obtain ⟨d, hd, hpart⟩ : ∃ d ∈ r, ¬ IsPart d := by
          simpa only [List.all_eq_true, isPart_iff, not_forall, exists_prop] using hall
        exact .character hname hstart hd hpart

example : fault? "2fast" = some .start := by decide

example : fault? "dbo.GetUsers" = some .character := by decide

theorem isKeyword_iff {name : String} : isKeyword name = true ↔ name ∈ keywords :=
  List.contains_iff_mem

end Identifier

open Identifier

/-! ### Manifests -/

/-- Exactly one source of a connection string is set. -/
def DatabaseConfig.OneSource (d : DatabaseConfig) : Prop :=
  (d.url ≠ none ∧ d.env = none) ∨ (d.url = none ∧ d.env ≠ none)

/-- The segments of a namespace: what stands between its dots. -/
def ContextConfig.segments (config : ContextConfig) : List String :=
  (config.namespaceName.toList.splitOn '.').map String.ofList

/-- A group with usable names and exactly one database, whose declarations generate methods of
usable and different names. -/
structure ContextConfig.WellFormed (config : ContextConfig) : Prop where
  name : Usable config.name
  namespaceName : ∀ s ∈ config.segments, Usable s
  database : config.database.OneSource
  variableName : ∀ key, config.database.env = some key → Text.allBlank key = false
  procedureNames : ∀ d ∈ config.procedures, Text.allBlank d.name = false
  methodNames : ∀ d ∈ config.procedures, Usable d.methodName
  distinct : (config.procedures.map (·.methodName)).Nodup

/-- At least one group, all of them well-formed and of different names. -/
structure Manifest.WellFormed (m : Manifest) : Prop where
  some : m.contexts ≠ []
  contexts : ∀ config ∈ m.contexts, config.WellFormed
  distinct : m.contextNames.Nodup

/-! ### Requirements -/

/-- Something required of a manifest. The names of earlier groups and methods stand last first. -/
inductive Requirement
  | someContext (contexts : List ContextConfig)
  | contextName (config : ContextConfig)
  | freshContext (config : ContextConfig) (earlier : List String)
  | segment (config : ContextConfig) (piece : String)
  | oneSource (config : ContextConfig)
  | variableName (config : ContextConfig)
  | procedureName (config : ContextConfig) (d : Declaration)
  | methodName (config : ContextConfig) (d : Declaration)
  | freshMethod (config : ContextConfig) (d : Declaration) (earlier : List String)

namespace Requirement

/-- What is required. -/
def Holds : Requirement → Prop
  | someContext contexts => contexts ≠ []
  | contextName config => Usable config.name
  | freshContext config earlier => config.name ∉ earlier
  | segment _ piece => Usable piece
  | oneSource config => config.database.OneSource
  | variableName config => ∀ key, config.database.env = some key → Text.allBlank key = false
  | procedureName _ d => Text.allBlank d.name = false
  | methodName _ d => Usable d.methodName
  | freshMethod _ d earlier => d.methodName ∉ earlier

/-- The problems that belong to a requirement that does not hold. -/
inductive Reports : Requirement → ProblemCause → Prop
  | noContexts (contexts : List ContextConfig) (span : Option Span) :
      Reports (.someContext contexts) (.invalid .noContexts span)
  | contextKeyword {config : ContextConfig} (h : config.name ∈ keywords) (span : Option Span) :
      Reports (.contextName config) (.reservedKeyword config.name "context" span)
  | contextForm {config : ContextConfig} {fault : Fault} (h : FaultOf config.name fault)
      (span : Option Span) :
      Reports (.contextName config) (.invalidIdentifier config.name "context" fault span)
  | repeatedContext (config : ContextConfig) (earlier : List String) (span : Option Span) :
      Reports (.freshContext config earlier) (.invalid (.repeatedContext config.name) span)
  | segmentKeyword (config : ContextConfig) {piece : String} (h : piece ∈ keywords)
      (span : Option Span) :
      Reports (.segment config piece)
        (.reservedKeyword piece ("namespace in '" ++ config.name ++ "'") span)
  | segmentForm (config : ContextConfig) {piece : String} {fault : Fault}
      (h : FaultOf piece fault) (span : Option Span) :
      Reports (.segment config piece)
        (.invalidIdentifier config.namespaceName ("namespace in '" ++ config.name ++ "'") fault
          span)
  | databaseSource (config : ContextConfig) (span : Option Span) :
      Reports (.oneSource config) (.invalid (.databaseSource config.name) span)
  | blankVariable (config : ContextConfig) (span : Option Span) :
      Reports (.variableName config) (.invalid (.blankVariable config.name) span)
  | blankProcedure (config : ContextConfig) (d : Declaration) (span : Option Span) :
      Reports (.procedureName config d) (.invalid (.blankProcedure config.name) span)
  | methodKeyword (config : ContextConfig) {d : Declaration} {method : String}
      (spelled : d.method = some method) (h : method ∈ keywords) (span : Option Span) :
      Reports (.methodName config d)
        (.reservedKeyword method ("method in '" ++ config.name ++ "'") span)
  | methodForm (config : ContextConfig) {d : Declaration} {method : String} {fault : Fault}
      (spelled : d.method = some method) (h : FaultOf method fault) (span : Option Span) :
      Reports (.methodName config d)
        (.invalidIdentifier method ("method in '" ++ config.name ++ "'") fault span)
  | defaultedKeyword (config : ContextConfig) {d : Declaration} (defaulted : d.method = none)
      (h : d.name ∈ keywords) (span : Option Span) :
      Reports (.methodName config d) (.invalid (.keywordAsMethod d.name) span)
  | defaultedForm (config : ContextConfig) {d : Declaration} {fault : Fault}
      (defaulted : d.method = none) (h : FaultOf d.name fault) (span : Option Span) :
      Reports (.methodName config d) (.invalid (.formAsMethod d.name fault) span)
  | duplicateMethod (config : ContextConfig) (d : Declaration) (earlier : List String)
      (first second : Option Span) :
      Reports (.freshMethod config d earlier)
        (.duplicateMethod d.methodName config.name first second)

end Requirement

/-- What is required of declarations that come after methods of the names in `earlier`. -/
def ContextConfig.procedureRequirements (config : ContextConfig) :
    List String → List Declaration → List Requirement
  | _, [] => []
  | earlier, d :: rest =>
    [.procedureName config d, .methodName config d, .freshMethod config d earlier] ++
      config.procedureRequirements (d.methodName :: earlier) rest

/-- What is required of a group besides its name. -/
def ContextConfig.bodyRequirements (config : ContextConfig) : List Requirement :=
  config.segments.map (.segment config) ++
    ([.oneSource config, .variableName config] ++
      config.procedureRequirements [] config.procedures)

/-- What is required of groups that come after groups of the names in `earlier`. -/
def contextRequirements : List String → List ContextConfig → List Requirement
  | _, [] => []
  | earlier, config :: rest =>
    [.contextName config, .freshContext config earlier] ++
      (config.bodyRequirements ++ contextRequirements (config.name :: earlier) rest)

/-- Everything required of a manifest, in the order in which it is looked at. -/
def Manifest.requirements (m : Manifest) : List Requirement :=
  .someContext m.contexts :: contextRequirements [] m.contexts

/-! ### Checks -/

/-- A check passes if the requirements of a list hold, and otherwise reports the first of them
that does not. -/
inductive Meets : List Requirement → Checked → Prop
  | done : Meets [] (.ok ())
  | broken {r : Requirement} (rest : List Requirement) {cause : ProblemCause} (h : ¬ r.Holds)
      (reports : r.Reports cause) : Meets (r :: rest) (.error cause)
  | kept {r : Requirement} {rest : List Requirement} {outcome : Checked} (h : r.Holds)
      (others : Meets rest outcome) : Meets (r :: rest) outcome

namespace Meets

variable {rs ss : List Requirement} {outcome : Checked} {cause : ProblemCause}

theorem eq_ok_iff (h : Meets rs outcome) : outcome = .ok () ↔ ∀ r ∈ rs, r.Holds := by
  induction h with
  | done => simp
  | broken rest h => simp [h]
  | kept h _ ih => simp [h, ih]

/-- Where a check fails, everything before a broken requirement holds, and the problem is that of
the broken one. -/
theorem first (h : Meets rs (.error cause)) :
    ∃ before r after, rs = before ++ r :: after ∧ (∀ q ∈ before, q.Holds) ∧ ¬ r.Holds ∧
      r.Reports cause := by
  -- the induction is on the check, so its outcome has to be a variable
  generalize houtcome : (.error cause : Checked) = outcome at h
  induction h with
  | done => cases houtcome
  | broken rest h reports =>
    cases houtcome
    exact ⟨[], _, rest, rfl, by simp, h, reports⟩
  | @kept r rest outcome h _ ih =>
    obtain ⟨before, q, after, rfl, hbefore, hq⟩ := ih houtcome
    refine ⟨r :: before, q, after, rfl, ?_, hq⟩
    rw [List.forall_mem_cons]
    exact ⟨h, hbefore⟩

/-- A check that goes on where another one passes meets the requirements of both. -/
theorem andThen {first second : Checked} :
    Meets rs first → Meets ss second →
      Meets (rs ++ ss) (match first with | .error e => .error e | .ok () => second) := by
  intro h h'
  induction h with
  | done => exact h'
  | broken rest h reports => exact .broken (rest ++ ss) h reports
  | kept h _ ih => exact .kept h ih

/-- Looking at one requirement before others. -/
theorem guard {r : Requirement} {p : Bool} (hp : p = true ↔ ¬ r.Holds) (reports : r.Reports cause)
    (h : Meets rs outcome) : Meets (r :: rs) (if p then .error cause else outcome) := by
  cases p with
  | true => exact .broken rs (hp.1 rfl) reports
  | false =>
    refine .kept (not_not.1 fun hr => ?_) h
    cases hp.2 hr

/-- Looking at a name before other requirements: whether it is a keyword, then its form. -/
theorem name {r : Requirement} {name : String} (hname : r.Holds ↔ Usable name)
    {keyword : ProblemCause} (hkeyword : name ∈ keywords → r.Reports keyword)
    {form : Fault → ProblemCause} (hform : ∀ fault, FaultOf name fault → r.Reports (form fault))
    (h : Meets rs outcome) :
    Meets (r :: rs) (if isKeyword name then .error keyword else
      match fault? name with
      | some fault => .error (form fault)
      | none => outcome) := by
  cases hk : isKeyword name with
  | true =>
    have hmem := isKeyword_iff.1 hk
    exact .broken rs (fun hr => (hname.1 hr).2 hmem) (hkeyword hmem)
  | false =>
    cases hf : fault? name with
    | some fault =>
      refine .broken rs (fun hr => ?_) (hform fault (faultOf_of_fault? hf))
      rw [fault?_eq_none_iff.2 (hname.1 hr).1] at hf
      cases hf
    | none =>
      refine .kept (hname.2 ⟨fault?_eq_none_iff.1 hf, fun hmem => ?_⟩) h
      rw [isKeyword_iff.2 hmem] at hk
      cases hk

end Meets

/-! ### Validation -/

namespace Scope

variable (source : String) (config : ContextConfig)

theorem checkName_meets :
    Meets [.contextName config] ((Scope.mk source []).checkName config.name "name" "context") :=
  Meets.name Iff.rfl (fun h => .contextKeyword h _) (fun _ h => .contextForm h _) .done

theorem checkSegments_meets (pieces : List String) :
    Meets (pieces.map (.segment config))
      ((Scope.mk source [config.name]).checkSegments config.namespaceName pieces) := by
  induction pieces with
  | nil => exact .done
  | cons piece rest ih =>
    exact Meets.name Iff.rfl (fun h => .segmentKeyword config h _)
      (fun _ h => .segmentForm config h _) ih

theorem checkDatabase_meets :
    Meets [.oneSource config, .variableName config]
      ((Scope.mk source [config.name]).checkDatabase config) := by
  obtain ⟨name, namespaceName, ⟨url, env⟩, output, procedures⟩ := config
  cases url with
  | none =>
    cases env with
    | none =>
      refine .broken _ ?_ (.databaseSource _ _)
      rintro (⟨hurl, -⟩ | ⟨-, henv⟩)
      · exact hurl rfl
      · exact henv rfl
    | some key =>
      refine .kept (.inr ⟨rfl, Option.some_ne_none key⟩)
        (Meets.guard ?_ (.blankVariable _ none) .done)
      simp [Requirement.Holds]
  | some url =>
    cases env with
    | none =>
      refine .kept (.inl ⟨Option.some_ne_none url, rfl⟩) (.kept (fun key h => ?_) .done)
      cases h
    | some key =>
      refine .broken _ ?_ (.databaseSource _ _)
      rintro (⟨-, henv⟩ | ⟨hurl, -⟩)
      · cases henv
      · cases hurl

theorem checkMethod_meets (d : Declaration) :
    Meets [.methodName config d] ((Scope.mk source [config.name]).checkMethod d) := by
  unfold checkMethod
  -- spelled out or not, the same names are accepted; only the problems differ
  cases hmethod : d.method with
  | some method =>
    have hname : (Requirement.methodName config d).Holds ↔ Usable method := by
      rw [Requirement.Holds, Declaration.methodName, hmethod, Option.getD_some]
    exact Meets.name hname (fun h => .methodKeyword config hmethod h _)
      (fun _ h => .methodForm config hmethod h _) .done
  | none =>
    have hname : (Requirement.methodName config d).Holds ↔ Usable d.name := by
      rw [Requirement.Holds, Declaration.methodName, hmethod, Option.getD_none]
    exact Meets.name hname (fun h => .defaultedKeyword config hmethod h _)
      (fun _ h => .defaultedForm config hmethod h _) .done

theorem checkProcedures_meets (earlier : List String) (ds : List Declaration) :
    Meets (config.procedureRequirements earlier ds)
      ((Scope.mk source [config.name]).checkProcedures config earlier ds) := by
  induction ds generalizing earlier with
  | nil => exact .done
  | cons d rest ih =>
    refine Meets.guard ?_ (.blankProcedure config d _)
      ((checkMethod_meets source config d).andThen
        (Meets.guard ?_ (.duplicateMethod config d earlier _ _) (ih _)))
    · rw [Requirement.Holds, Bool.not_eq_false]
    · rw [Requirement.Holds, not_not, List.contains_iff_mem]

theorem segments_namespaceName : segments config.namespaceName = config.segments := by
  rw [segments, Text.pieces_eq_splitOn, ContextConfig.segments]

theorem checkNamespace_meets :
    Meets (config.segments.map (.segment config))
      ((Scope.mk source [config.name]).checkNamespace config.namespaceName) := by
  rw [checkNamespace, segments_namespaceName]
  exact checkSegments_meets source config config.segments

theorem checkContext_meets :
    Meets config.bodyRequirements ((Scope.mk source [config.name]).checkContext config) :=
  (checkNamespace_meets source config).andThen
    ((checkDatabase_meets source config).andThen
      (checkProcedures_meets source config [] config.procedures))

theorem checkContexts_meets (earlier : List String) (configs : List ContextConfig) :
    Meets (contextRequirements earlier configs)
      ((Scope.mk source []).checkContexts earlier configs) := by
  induction configs generalizing earlier with
  | nil => exact .done
  | cons config rest ih =>
    refine (checkName_meets source config).andThen
      (Meets.guard ?_ (.repeatedContext config earlier _)
        ((checkContext_meets source config).andThen (ih _)))
    rw [Requirement.Holds, not_not, List.contains_iff_mem]

end Scope

/-! ### Well-formedness -/

/-- Names that are not among earlier ones, of which `x` is the last. -/
theorem forall_not_mem_cons_iff {α : Type} {f : α → String} {x : String} {earlier : List String}
    {as : List α} :
    (∀ a ∈ as, f a ∉ x :: earlier) ↔ x ∉ as.map f ∧ ∀ a ∈ as, f a ∉ earlier := by
  simp only [List.mem_cons, not_or, List.mem_map, not_exists, not_and]
  constructor
  · intro h
    exact ⟨fun a ha => (h a ha).1, fun a ha => (h a ha).2⟩
  · rintro ⟨hx, hearlier⟩ a ha
    exact ⟨hx a ha, hearlier a ha⟩

namespace ContextConfig

theorem WellFormed.usable_of_mem_pieces {config : ContextConfig} (h : config.WellFormed)
    {piece : List Char} (hpiece : piece ∈ Text.pieces '.' config.namespaceName.toList) :
    Usable (String.ofList piece) := by
  rw [Text.pieces_eq_splitOn] at hpiece
  exact h.namespaceName _ (List.mem_map_of_mem hpiece)

theorem procedureRequirements_hold_iff (config : ContextConfig) (earlier : List String)
    (ds : List Declaration) :
    (∀ r ∈ config.procedureRequirements earlier ds, r.Holds) ↔
      (∀ d ∈ ds, Text.allBlank d.name = false ∧ Usable d.methodName) ∧
        (ds.map (·.methodName)).Nodup ∧ ∀ d ∈ ds, d.methodName ∉ earlier := by
  induction ds generalizing earlier with
  | nil => simp [procedureRequirements]
  | cons d rest ih =>
    simp only [procedureRequirements, List.forall_mem_append, List.forall_mem_cons, ih,
      forall_not_mem_cons_iff, List.map_cons, List.nodup_cons]
    constructor
    · rintro ⟨⟨hname, hmethod, hfresh, -⟩, hrest, hdistinct, hd, hothers⟩
      exact ⟨⟨⟨hname, hmethod⟩, hrest⟩, ⟨hd, hdistinct⟩, hfresh, hothers⟩
    · rintro ⟨⟨⟨hname, hmethod⟩, hrest⟩, ⟨hd, hdistinct⟩, hfresh, hothers⟩
      exact ⟨⟨hname, hmethod, hfresh, by simp⟩, hrest, hdistinct, hd, hothers⟩

theorem bodyRequirements_hold_iff (config : ContextConfig) :
    (Usable config.name ∧ ∀ r ∈ config.bodyRequirements, r.Holds) ↔ config.WellFormed := by
  simp only [bodyRequirements, List.forall_mem_append, List.forall_mem_map, List.forall_mem_cons,
    procedureRequirements_hold_iff]
  constructor
  · rintro ⟨hname, hnamespace, ⟨hsource, hvariable, -⟩, hprocedures, hdistinct, -⟩
    exact ⟨hname, hnamespace, hsource, hvariable, fun d hd => (hprocedures d hd).1,
      fun d hd => (hprocedures d hd).2, hdistinct⟩
  · intro h
    exact ⟨h.name, h.namespaceName, ⟨h.database, h.variableName, by simp⟩,
      fun d hd => ⟨h.procedureNames d hd, h.methodNames d hd⟩, h.distinct, by simp⟩

end ContextConfig

theorem contextRequirements_hold_iff (earlier : List String) (configs : List ContextConfig) :
    (∀ r ∈ contextRequirements earlier configs, r.Holds) ↔
      (∀ config ∈ configs, config.WellFormed) ∧
        (configs.map (·.name)).Nodup ∧ ∀ config ∈ configs, config.name ∉ earlier := by
  induction configs generalizing earlier with
  | nil => simp [contextRequirements]
  | cons config rest ih =>
    simp only [contextRequirements, List.forall_mem_append, List.forall_mem_cons, ih,
      forall_not_mem_cons_iff, List.map_cons, List.nodup_cons]
    constructor
    · rintro ⟨⟨hname, hfresh, -⟩, hbody, hrest, hdistinct, hconfig, hothers⟩
      exact ⟨⟨config.bodyRequirements_hold_iff.1 ⟨hname, hbody⟩, hrest⟩, ⟨hconfig, hdistinct⟩,
        hfresh, hothers⟩
    · rintro ⟨⟨hformed, hrest⟩, ⟨hconfig, hdistinct⟩, hfresh, hothers⟩
      obtain ⟨hname, hbody⟩ := config.bodyRequirements_hold_iff.2 hformed
      exact ⟨⟨hname, hfresh, by simp⟩, hbody, hrest, hdistinct, hconfig, hothers⟩

namespace Manifest

/-- The requirements together are well-formedness. -/
theorem requirements_hold_iff (m : Manifest) :
    (∀ r ∈ m.requirements, r.Holds) ↔ m.WellFormed := by
  rw [requirements, List.forall_mem_cons, contextRequirements_hold_iff]
  constructor
  · rintro ⟨hsome, hformed, hdistinct, -⟩
    exact ⟨hsome, hformed, hdistinct⟩
  · intro h
    exact ⟨h.some, h.contexts, h.distinct, by simp⟩

/-- Validation looks at the requirements in order. -/
theorem validate_meets (m : Manifest) (source : String) :
    Meets m.requirements (m.validate source) := by
  refine Meets.guard ?_ (.noContexts m.contexts none)
    (Scope.checkContexts_meets source [] m.contexts)
  rw [Requirement.Holds, not_not, List.isEmpty_iff]

/-- What is read from a text is well-formed. -/
theorem wellFormed_of_read {source file : String} {m : Manifest}
    (h : Manifest.read source file = .ok m) : m.WellFormed := by
  rw [read, mapError_eq_ok_iff] at h
  unfold readCause at h
  split at h
  · cases h
  · split at h
    · cases h
    next decoded _ =>
      cases hcheck : decoded.validate source with
      | error cause =>
        rw [hcheck] at h
        cases h
      | ok _ =>
        rw [hcheck] at h
        cases h
        exact m.requirements_hold_iff.1 ((m.validate_meets source).eq_ok_iff.1 hcheck)

/-- **Validation.** A manifest is accepted, whatever its text and the name of its file, exactly if
it is well-formed. The problem reported otherwise names the file and belongs to the first
requirement that does not hold. -/
theorem validate_reports_first_violation (m : Manifest) (source file : String) :
    ((m.validate source).mapError (Problem.mk file) = .ok () ↔ m.WellFormed) ∧
    ∀ p, (m.validate source).mapError (Problem.mk file) = .error p →
      p.file = file ∧ ∃ before r after, m.requirements = before ++ r :: after ∧
        (∀ q ∈ before, q.Holds) ∧ ¬ r.Holds ∧ r.Reports p.cause := by
  have hmeets := m.validate_meets source
  constructor
  · rw [mapError_eq_ok_iff, hmeets.eq_ok_iff, requirements_hold_iff]
  · intro p h
    cases hcheck : m.validate source with
    | ok _ =>
      rw [hcheck] at h
      cases h
    | error cause =>
      rw [hcheck] at h hmeets
      cases h
      exact ⟨rfl, hmeets.first⟩

end Manifest

end Sprocket
