import Mathlib.Data.List.Nodup
import Sprocket.Proofs.Validation

/-!
# Declarations at fault

Where validation fails, there is one declaration it fails at, and the declarations before it are in
order. A name is reported at the first declaration that has it, and a name given twice at the first
two.

* `IsFirst`, `AreFirstTwo`: the first members of a list with a value;
* `Scope.methodSpan?_of_areFirstTwo`: the labels of a method given twice;
* `Scope.checkName_eq_error`, `checkMethod_eq_error`, `checkNamespace_eq_error`: the problem with a
  single name;
* `Scope.checkProcedures_eq_error`, `checkContexts_eq_error`: the declaration at fault.
-/

namespace Sprocket

open Identifier

/-! ### The first members of a list -/

section

variable {α β γ : Type}

/-- The first member of a list with a value. -/
def IsFirst (f : α → String) (as : List α) (value : String) (a : α) : Prop :=
  ∃ before after, as = before ++ a :: after ∧ f a = value ∧ ∀ c ∈ before, f c ≠ value

/-- The first two members of a list with a value. -/
def AreFirstTwo (f : α → String) (as : List α) (value : String) (a b : α) : Prop :=
  ∃ before between after, as = before ++ a :: (between ++ b :: after) ∧ f a = value ∧ f b = value ∧
    (∀ c ∈ before, f c ≠ value) ∧ ∀ c ∈ between, f c ≠ value

variable {f : α → String} {g : β → String} {as : List α} {value : String} {a b : α}

theorem isFirst_of_not_mem {before after : List α} (h : f a ∉ before.map f) :
    IsFirst f (before ++ a :: after) (f a) a :=
  ⟨before, after, rfl, rfl, fun c hc heq => h (List.mem_map.2 ⟨c, hc, heq⟩)⟩

/-- A value that is met again, after values that are all different, is met for the second time. -/
theorem exists_areFirstTwo {before : List α} (after : List α) (hnodup : (before.map f).Nodup)
    (h : f b ∈ before.map f) : ∃ a, AreFirstTwo f (before ++ b :: after) (f b) a b := by
  obtain ⟨a, ha, heq⟩ := List.mem_map.1 h
  obtain ⟨front, between, rfl⟩ := List.append_of_mem ha
  rw [List.map_append, List.map_cons, List.nodup_middle, List.nodup_cons,
    ← List.map_append] at hnodup
  have hne : ∀ c ∈ front ++ between, f c ≠ f b := fun c hc hcb =>
    hnodup.1 (List.mem_map.2 ⟨c, hc, hcb.trans heq.symm⟩)
  rw [List.forall_mem_append] at hne
  exact ⟨a, front, between, after, by simp, heq, rfl, hne.1, hne.2⟩

theorem IsFirst.mem (h : IsFirst f as value a) : a ∈ as ∧ f a = value := by
  obtain ⟨before, after, rfl, ha, -⟩ := h
  simp [ha]

theorem AreFirstTwo.mem (h : AreFirstTwo f as value a b) :
    (a ∈ as ∧ f a = value) ∧ (b ∈ as ∧ f b = value) := by
  obtain ⟨before, between, after, rfl, ha, hb, -⟩ := h
  simp [ha, hb]

/-- Lists that show the same have the same first members. -/
theorem IsFirst.of_map_eq {bs : List β} {F : α → γ} {G : β → γ} {h : γ → String}
    (hF : ∀ a, h (F a) = f a) (hG : ∀ b, h (G b) = g b) (heq : as.map F = bs.map G)
    (hfirst : IsFirst f as value a) : ∃ b, F a = G b ∧ IsFirst g bs value b := by
  obtain ⟨before, after, rfl, ha, hbefore⟩ := hfirst
  rw [List.map_append, List.map_cons] at heq
  obtain ⟨before', rest, rfl, hbefore', hrest⟩ := List.map_eq_append_iff.1 heq.symm
  obtain ⟨b, after', rfl, hb, -⟩ := List.map_eq_cons_iff.1 hrest
  refine ⟨b, hb.symm, before', after', rfl, ?_, ?_⟩
  · rw [← hG, hb, hF, ha]
  · intro c hc
    have hmem : G c ∈ before.map F := hbefore' ▸ List.mem_map_of_mem hc
    obtain ⟨d, hd, hdc⟩ := List.mem_map.1 hmem
    rw [← hG, ← hdc, hF]
    exact hbefore d hd

/-- Lists that show the same have the same first two members. -/
theorem AreFirstTwo.of_map_eq {bs : List β} {F : α → γ} {G : β → γ} {h : γ → String}
    (hF : ∀ a, h (F a) = f a) (hG : ∀ b, h (G b) = g b) (heq : as.map F = bs.map G)
    (htwo : AreFirstTwo f as value a b) :
    ∃ a' b', F a = G a' ∧ F b = G b' ∧ AreFirstTwo g bs value a' b' := by
  obtain ⟨before, between, after, rfl, ha, hb, hbefore, hbetween⟩ := htwo
  have hkept : ∀ {cs : List α} {ds : List β}, ds.map G = cs.map F → (∀ c ∈ cs, f c ≠ value) →
      ∀ d ∈ ds, g d ≠ value := by
    intro cs ds hmap hcs d hd
    have hmem : G d ∈ cs.map F := hmap ▸ List.mem_map_of_mem hd
    obtain ⟨c, hc, hcd⟩ := List.mem_map.1 hmem
    rw [← hG, ← hcd, hF]
    exact hcs c hc
  rw [List.map_append, List.map_cons, List.map_append, List.map_cons] at heq
  obtain ⟨before', rest, rfl, hbefore', hrest⟩ := List.map_eq_append_iff.1 heq.symm
  obtain ⟨a', rest', rfl, ha', hrest'⟩ := List.map_eq_cons_iff.1 hrest
  obtain ⟨between', rest'', rfl, hbetween', hrest''⟩ := List.map_eq_append_iff.1 hrest'
  obtain ⟨b', after', rfl, hb', -⟩ := List.map_eq_cons_iff.1 hrest''
  refine ⟨a', b', ha'.symm, hb'.symm, before', between', after', rfl, ?_, ?_,
    hkept hbefore' hbefore, hkept hbetween' hbetween⟩
  · rw [← hG, ha', hF, ha]
  · rw [← hG, hb', hF, hb]

end

/-- The key under which a declaration names its method. -/
def Declaration.methodKey (d : Declaration) : String := if d.method.isSome then "method" else "name"

namespace Scope

variable {s : Scope} {source : String} {config : ContextConfig} {cause : ProblemCause}

/-! ### The labels of a method given twice -/

theorem methodSpans_append {method : String} {before : List Declaration}
    (h : ∀ d ∈ before, d.methodName ≠ method) (rest : List Declaration) (spelled defaulted : Nat) :
    s.methodSpans method spelled defaulted (before ++ rest) =
      s.methodSpans method spelled defaulted rest := by
  induction before with
  | nil => rfl
  | cons d before ih =>
    obtain ⟨hd, hbefore⟩ := List.forall_mem_cons.1 h
    rw [List.cons_append, methodSpans, if_neg hd, ih hbefore]

theorem methodSpans_cons {method : String} {d : Declaration} (h : d.methodName = method)
    (rest : List Declaration) (spelled defaulted : Nat) :
    s.methodSpans method spelled defaulted (d :: rest) =
      s.find? d.methodKey method (if d.methodKey = "method" then spelled else defaulted) ::
        s.methodSpans method (if d.methodKey = "method" then spelled + 1 else spelled)
          (if d.methodKey = "method" then defaulted else defaulted + 1) rest := by
  rw [methodSpans, if_pos h]
  cases hmethod : d.method with
  | some name =>
    have hname : name = method := by rw [← h, Declaration.methodName, hmethod, Option.getD_some]
    simp [Declaration.methodKey, hmethod, hname]
  | none =>
    have hname : d.name = method := by rw [← h, Declaration.methodName, hmethod, Option.getD_none]
    simp [Declaration.methodKey, hmethod, hname]

/-- The labels of a method given twice are the first setting of the key that gives it first, and the
first or second setting of the other key, as the keys differ or not. -/
theorem methodSpan?_of_areFirstTwo {method : String} {d e : Declaration}
    (h : AreFirstTwo (·.methodName) config.procedures method d e) :
    s.methodSpan? config method 0 = s.find? d.methodKey method 0 ∧
      s.methodSpan? config method 1 =
        s.find? e.methodKey method (if d.methodKey = e.methodKey then 1 else 0) := by
  obtain ⟨before, between, after, heq, hd, he, hbefore, hbetween⟩ := h
  rw [methodSpan?, methodSpan?, heq, methodSpans_append hbefore, methodSpans_cons hd,
    methodSpans_append hbetween, methodSpans_cons he]
  refine ⟨by simp, ?_⟩
  have hkey : ∀ d : Declaration, d.methodKey = "method" ∨ d.methodKey = "name" := by
    intro d
    unfold Declaration.methodKey
    split <;> simp
  rcases hkey d with hd | hd <;> rcases hkey e with he | he <;> simp [hd, he]

/-! ### A single name -/

theorem checkName_eq_error {name key kind : String} (h : s.checkName name key kind = .error cause) :
    cause = .reservedKeyword name (s.place kind) (s.find? key name 0) ∨
      ∃ fault, cause = .invalidIdentifier name (s.place kind) fault (s.find? key name 0) := by
  unfold checkName at h
  split at h
  · exact .inl (Except.error.inj h).symm
  · split at h
    next fault _ => exact .inr ⟨fault, (Except.error.inj h).symm⟩
    next => cases h

theorem checkMethod_eq_error {d : Declaration} (h : s.checkMethod d = .error cause) :
    (∃ method, d.method = some method ∧ s.checkName method "method" "method" = .error cause) ∨
      (d.method = none ∧ (cause = .invalid (.keywordAsMethod d.name) (s.find? "name" d.name 0) ∨
        ∃ fault, cause = .invalid (.formAsMethod d.name fault) (s.find? "name" d.name 0))) := by
  unfold checkMethod at h
  split at h
  next method hmethod => exact .inl ⟨method, hmethod, h⟩
  next hmethod =>
    refine .inr ⟨hmethod, ?_⟩
    split at h
    · exact .inl (Except.error.inj h).symm
    · split at h
      next fault _ => exact .inr ⟨fault, (Except.error.inj h).symm⟩
      next => cases h

theorem checkNamespace_eq_error {name : String} (h : s.checkNamespace name = .error cause) :
    (∃ segment span, cause = .reservedKeyword segment (s.place "namespace") span) ∨
      ∃ fault span, cause = .invalidIdentifier name (s.place "namespace") fault span := by
  unfold checkNamespace at h
  generalize segments name = pieces at h
  induction pieces with
  | nil => cases h
  | cons segment rest ih =>
    unfold checkSegments at h
    split at h
    · exact .inl ⟨segment, _, (Except.error.inj h).symm⟩
    · split at h
      next fault _ => exact .inr ⟨fault, _, (Except.error.inj h).symm⟩
      next => exact ih h

theorem checkDatabase_eq_error (h : s.checkDatabase config = .error cause) :
    (∃ span, cause = .invalid (.databaseSource config.name) span) ∨
      cause = .invalid (.blankVariable config.name) none := by
  unfold checkDatabase at h
  split at h
  · exact .inl ⟨_, (Except.error.inj h).symm⟩
  · split at h
    · exact .inr (Except.error.inj h).symm
    · cases h
  · cases h

theorem checkMethod_eq_ok_iff {d : Declaration} :
    (Scope.mk source [config.name]).checkMethod d = .ok () ↔ Usable d.methodName := by
  rw [(checkMethod_meets source config d).eq_ok_iff, List.forall_mem_singleton, Requirement.Holds]

theorem checkName_eq_ok_iff :
    (Scope.mk source []).checkName config.name "name" "context" = .ok () ↔ Usable config.name := by
  rw [(checkName_meets source config).eq_ok_iff, List.forall_mem_singleton, Requirement.Holds]

/-! ### The declaration at fault -/

/-- Where the procedures of a group are not in order, one of them has a blank name, or its method is
not usable, or was given before; the methods before that are usable and all different. -/
theorem checkProcedures_eq_error {seen : List String} {ds : List Declaration} (hseen : seen.Nodup)
    (h : (Scope.mk source [config.name]).checkProcedures config seen ds = .error cause) :
    ∃ before d after, ds = before ++ d :: after ∧
      ((before.map (·.methodName)).reverse ++ seen).Nodup ∧ (∀ b ∈ before, Usable b.methodName) ∧
      ((∃ span, cause = .invalid (.blankProcedure config.name) span) ∨
        (Scope.mk source [config.name]).checkMethod d = .error cause ∨
        (Usable d.methodName ∧ d.methodName ∈ (before.map (·.methodName)).reverse ++ seen ∧
          cause = .duplicateMethod d.methodName config.name
            ((Scope.mk source [config.name]).methodSpan? config d.methodName 0)
            ((Scope.mk source [config.name]).methodSpan? config d.methodName 1))) := by
  induction ds generalizing seen with
  | nil => cases h
  | cons d rest ih =>
    unfold checkProcedures at h
    split at h
    · exact ⟨[], d, rest, rfl, hseen, by simp, .inl ⟨_, (Except.error.inj h).symm⟩⟩
    · split at h
      next e hmethod =>
        obtain rfl := Except.error.inj h
        exact ⟨[], d, rest, rfl, hseen, by simp, .inr (.inl hmethod)⟩
      next hmethod =>
        have husable := checkMethod_eq_ok_iff.1 hmethod
        split at h
        next hmem =>
          exact ⟨[], d, rest, rfl, hseen, by simp, .inr (.inr ⟨husable,
            List.contains_iff_mem.1 hmem, (Except.error.inj h).symm⟩)⟩
        next hnot =>
          have hfresh : d.methodName ∉ seen := fun hmem => hnot (List.contains_iff_mem.2 hmem)
          obtain ⟨before, e, after, rfl, hnodup, hbefore, hcase⟩ :=
            ih (List.nodup_cons.2 ⟨hfresh, hseen⟩) h
          refine ⟨d :: before, e, after, rfl, ?_, List.forall_mem_cons.2 ⟨husable, hbefore⟩, ?_⟩
          · simpa using hnodup
          · simpa using hcase

/-- Where the groups are not in order, the name of one of them is not usable, or was given before,
or something in it is not in order; the names before that are usable and all different. -/
theorem checkContexts_eq_error {seen : List String} {configs : List ContextConfig}
    (hseen : seen.Nodup) (h : (Scope.mk source []).checkContexts seen configs = .error cause) :
    ∃ before config after, configs = before ++ config :: after ∧
      ((before.map (·.name)).reverse ++ seen).Nodup ∧ (∀ b ∈ before, Usable b.name) ∧
      ((Scope.mk source []).checkName config.name "name" "context" = .error cause ∨
        (Usable config.name ∧
          ((config.name ∈ (before.map (·.name)).reverse ++ seen ∧
            cause = .invalid (.repeatedContext config.name) ((Scope.mk source []).find? "name"
              config.name (((before.map (·.name)).reverse ++ seen).count config.name))) ∨
          (config.name ∉ (before.map (·.name)).reverse ++ seen ∧
            (Scope.mk source [config.name]).checkContext config = .error cause)))) := by
  induction configs generalizing seen with
  | nil => cases h
  | cons config rest ih =>
    unfold checkContexts at h
    split at h
    next e hname =>
      obtain rfl := Except.error.inj h
      exact ⟨[], config, rest, rfl, hseen, by simp, .inl hname⟩
    next hname =>
      have husable := checkName_eq_ok_iff.1 hname
      split at h
      next hmem =>
        exact ⟨[], config, rest, rfl, hseen, by simp, .inr ⟨husable,
          .inl ⟨List.contains_iff_mem.1 hmem, (Except.error.inj h).symm⟩⟩⟩
      next hnot =>
        have hfresh : config.name ∉ seen := fun hmem => hnot (List.contains_iff_mem.2 hmem)
        split at h
        next e hcontext =>
          obtain rfl := Except.error.inj h
          exact ⟨[], config, rest, rfl, hseen, by simp, .inr ⟨husable, .inr ⟨hfresh, hcontext⟩⟩⟩
        next =>
          obtain ⟨before, e, after, rfl, hnodup, hbefore, hcase⟩ :=
            ih (List.nodup_cons.2 ⟨hfresh, hseen⟩) h
          refine ⟨config :: before, e, after, rfl, ?_,
            List.forall_mem_cons.2 ⟨husable, hbefore⟩, ?_⟩
          · simpa using hnodup
          · simpa using hcase

end Scope

end Sprocket
