import Mathlib.Data.List.Forall2
import Mathlib.Tactic.Common
import Sprocket.Trace

/-!
# Laws of results and traces

How the events and the ending of a composed computation follow from those of its parts.

* `mapM_eq_ok_iff`, `mapM_eq_error_iff`: a list is mapped by a function that may fail if all its
  members are, and otherwise the first member that is not decides the error;
* `bind_of_ok`, `bind_of_error`: a computation goes on after a value and stops at an error;
* `result_bind_eq_ok_iff`, `result_bind_eq_error_iff`, `result_relabel_eq_ok_iff`,
  `result_relabel_eq_error_iff`: what a value or an error at the end says of the parts;
* `result_mapM`, `result_optionMapM_eq_ok_iff`: computations for the members of a list, one after
  another, and for what is optional;
* `relabel_bind`, `relabel_relabel`: renaming goes through composition;
* `Cumulative`: a property of event lists that a composed computation has if its parts have it.
-/

namespace Sprocket

/-! ### Results -/

theorem map_eq_ok_iff {ε α β : Type} {f : α → β} {x : Except ε α} {b : β} :
    x.map f = .ok b ↔ ∃ a, x = .ok a ∧ f a = b := by
  cases x <;> simp [Except.map]

theorem mapError_eq_ok_iff {ε ε' α : Type} {f : ε → ε'} {x : Except ε α} {a : α} :
    x.mapError f = .ok a ↔ x = .ok a := by
  cases x <;> simp [Except.mapError]

theorem map_eq_error_iff {ε α β : Type} {f : α → β} {x : Except ε α} {e : ε} :
    x.map f = .error e ↔ x = .error e := by
  cases x <;> simp [Except.map]

theorem mapError_eq_error_iff {ε ε' α : Type} {f : ε → ε'} {x : Except ε α} {e' : ε'} :
    x.mapError f = .error e' ↔ ∃ e, x = .error e ∧ f e = e' := by
  cases x <;> simp [Except.mapError]

/-- A list is mapped by a function that may fail exactly when each of its members is. -/
theorem mapM_eq_ok_iff {ε α β : Type} {f : α → Except ε β} {xs : List α} {ys : List β} :
    xs.mapM f = .ok ys ↔ List.Forall₂ (fun x y => f x = .ok y) xs ys := by
  induction xs generalizing ys with
  | nil => simp [pure, Except.pure, eq_comm]
  | cons x xs ih =>
    rw [List.mapM_cons, List.forall₂_cons_left_iff]
    cases hx : f x with
    | error e => simp [bind, Except.bind]
    | ok y =>
      cases hxs : xs.mapM f with
      | error e => simp [bind, Except.bind, ← ih, hxs]
      | ok rest => simp [bind, Except.bind, pure, Except.pure, ← ih, hxs, eq_comm]

/-- Mapping a list fails with the error of its first member that is not mapped. -/
theorem mapM_eq_error_iff {ε α β : Type} {f : α → Except ε β} {xs : List α} {e : ε} :
    xs.mapM f = .error e ↔
      ∃ before x after, xs = before ++ x :: after ∧ (∀ y ∈ before, ∃ b, f y = .ok b) ∧
        f x = .error e := by
  induction xs with
  | nil => simp [pure, Except.pure]
  | cons x xs ih =>
    rw [List.mapM_cons]
    constructor
    · intro h
      cases hx : f x with
      | error e' =>
        rw [hx] at h
        cases h
        exact ⟨[], x, xs, rfl, by simp, hx⟩
      | ok y =>
        cases hxs : xs.mapM f with
        | ok ys =>
          rw [hx, hxs] at h
          cases h
        | error e' =>
          rw [hx, hxs] at h
          cases h
          obtain ⟨before, z, after, rfl, hbefore, hz⟩ := ih.1 hxs
          exact ⟨x :: before, z, after, rfl, List.forall_mem_cons.2 ⟨⟨y, hx⟩, hbefore⟩, hz⟩
    · rintro ⟨_ | ⟨w, before⟩, z, after, hsplit, hbefore, hz⟩
      · obtain ⟨rfl, rfl⟩ := List.cons.inj hsplit
        rw [hz]
        rfl
      · obtain ⟨rfl, rfl⟩ := List.cons.inj hsplit
        obtain ⟨⟨y, hy⟩, hrest⟩ := List.forall_mem_cons.1 hbefore
        rw [hy, ih.2 ⟨before, z, after, rfl, hrest, hz⟩]
        rfl

/-- Every member of the second of two related lists has a partner in the first. -/
theorem exists_mem_of_forall₂ {α β : Type} {R : α → β → Prop} {xs : List α} {ys : List β}
    (h : List.Forall₂ R xs ys) {y : β} (hy : y ∈ ys) : ∃ x ∈ xs, R x y := by
  induction h with
  | nil => cases hy
  | @cons x z xs zs hxz _ ih =>
    rcases List.mem_cons.1 hy with rfl | hmem
    · exact ⟨x, List.mem_cons_self, hxz⟩
    · obtain ⟨w, hw, hwy⟩ := ih hmem
      exact ⟨w, List.mem_cons_of_mem x hw, hwy⟩

/-- Every member of a list has a partner exactly when a list of partners exists. -/
theorem exists_forall₂_iff {α β : Type} {R : α → β → Prop} {xs : List α} :
    (∃ ys, List.Forall₂ R xs ys) ↔ ∀ x ∈ xs, ∃ y, R x y := by
  induction xs with
  | nil => simp
  | cons x xs ih => simp [List.forall₂_cons_left_iff, ih, exists_and_left]

/-- A list after another is related to one list where each of them is related to a part of it. -/
theorem forall₂_append_left_iff {α β : Type} {R : α → β → Prop} {xs ys : List α} {bs : List β} :
    List.Forall₂ R (xs ++ ys) bs ↔
      ∃ bs₁ bs₂, List.Forall₂ R xs bs₁ ∧ List.Forall₂ R ys bs₂ ∧ bs = bs₁ ++ bs₂ := by
  induction xs generalizing bs with
  | nil => simp
  | cons x xs ih =>
    simp only [List.cons_append, List.forall₂_cons_left_iff, ih]
    constructor
    · rintro ⟨b, _, hb, ⟨bs₁, bs₂, h₁, h₂, rfl⟩, rfl⟩
      exact ⟨b :: bs₁, bs₂, ⟨b, bs₁, hb, h₁, rfl⟩, h₂, rfl⟩
    · rintro ⟨_, bs₂, ⟨b, bs₁, hb, h₁, rfl⟩, h₂, rfl⟩
      exact ⟨b, _, hb, ⟨bs₁, bs₂, h₁, h₂, rfl⟩, rfl⟩

/-- What is optional has a partner exactly when it has one where it is present. -/
theorem exists_optionRel_iff {α β : Type} {R : α → β → Prop} {o : Option α} :
    (∃ p, Option.Rel R o p) ↔ ∀ x ∈ o, ∃ y, R x y := by
  cases o with
  | none => exact ⟨fun _ => nofun, fun _ => ⟨none, .none⟩⟩
  | some x =>
    constructor
    · rintro ⟨_, ⟨hxy⟩⟩ _ ⟨⟩
      exact ⟨_, hxy⟩
    · intro h
      obtain ⟨y, hxy⟩ := h x rfl
      exact ⟨some y, .some hxy⟩

namespace Trace

variable {ω ω' ω'' ε ε' ε'' α β : Type}

/-! ### Going on and stopping -/

theorem bind_of_ok {t : Trace ω ε α} {a : α} (h : t.result = .ok a) (f : α → Trace ω ε β) :
    t >>= f = ⟨t.events ++ (f a).events, (f a).result⟩ := by
  rw [bind_eq, andThen, h]

theorem bind_of_error {t : Trace ω ε α} {e : ε} (h : t.result = .error e)
    (f : α → Trace ω ε β) : t >>= f = ⟨t.events, .error e⟩ := by
  rw [bind_eq, andThen, h]

@[simp] theorem fail_bind (e : ε) (f : α → Trace ω ε β) : (fail e : Trace ω ε α) >>= f = fail e :=
  rfl

@[simp] theorem tell_bind_result (event : ω) (f : Unit → Trace ω ε β) :
    (tell event >>= f).result = (f ()).result := rfl

@[simp] theorem ofExcept_ok_bind (a : α) (f : α → Trace ω ε β) :
    (ofExcept (.ok a) : Trace ω ε α) >>= f = f a := rfl

@[simp] theorem ofExcept_error_bind (e : ε) (f : α → Trace ω ε β) :
    (ofExcept (.error e) : Trace ω ε α) >>= f = fail e := rfl

@[simp] theorem fail_events (e : ε) : (fail e : Trace ω ε α).events = [] := rfl

@[simp] theorem fail_result (e : ε) : (fail e : Trace ω ε α).result = .error e := rfl

@[simp] theorem ofExcept_events (x : Except ε α) : (ofExcept x : Trace ω ε α).events = [] := rfl

@[simp] theorem ofExcept_result (x : Except ε α) : (ofExcept x : Trace ω ε α).result = x := rfl

/-- A composed computation ends in a value exactly when both of its parts do. -/
theorem result_bind_eq_ok_iff {t : Trace ω ε α} {f : α → Trace ω ε β} {b : β} :
    (t >>= f).result = .ok b ↔ ∃ a, t.result = .ok a ∧ (f a).result = .ok b := by
  cases h : t.result with
  | error e => simp [bind_of_error h]
  | ok a => simp [bind_of_ok h]

/-- A composed computation ends in an error exactly when one of its parts does. -/
theorem result_bind_eq_error_iff {t : Trace ω ε α} {f : α → Trace ω ε β} {e : ε} :
    (t >>= f).result = .error e ↔
      t.result = .error e ∨ ∃ a, t.result = .ok a ∧ (f a).result = .error e := by
  cases h : t.result with
  | error e' => simp [bind_of_error h]
  | ok a => simp [bind_of_ok h]

/-- Computations for the members of a list, one after another, end as the list of their endings
does. -/
theorem result_mapM (f : α → Trace ω ε β) (as : List α) :
    (as.mapM f).result = as.mapM fun a => (f a).result := by
  induction as with
  | nil => rfl
  | cons a as ih =>
    rw [List.mapM_cons, List.mapM_cons, ← ih]
    cases ha : (f a).result with
    | error e =>
      rw [bind_of_error ha]
      rfl
    | ok b =>
      rw [bind_of_ok ha]
      cases has : (as.mapM f).result with
      | error e =>
        rw [bind_of_error has]
        rfl
      | ok bs =>
        rw [bind_of_ok has]
        rfl

/-- A computation for what is optional ends in a value exactly where it is not run or ends in
one. -/
theorem result_optionMapM_eq_ok_iff {f : α → Trace ω ε β} {o : Option α} {p : Option β} :
    (o.mapM f).result = .ok p ↔ Option.Rel (fun a b => (f a).result = .ok b) o p := by
  cases o with
  | none =>
    constructor
    · rintro ⟨⟩
      exact .none
    · rintro ⟨⟩
      rfl
  | some a =>
    have hmap : (some a).mapM f = f a >>= fun b => pure (some b) := (bind_pure_comp some (f a)).symm
    rw [hmap, result_bind_eq_ok_iff]
    constructor
    · rintro ⟨b, hb, ⟨⟩⟩
      exact .some hb
    · rintro ⟨hb⟩
      exact ⟨_, hb, rfl⟩

/-- What is kept of the events of a composed computation is what is kept of those of its parts. -/
theorem kept_bind_of_ok {γ : Type} (keep : ω → Option γ) {t : Trace ω ε α} {a : α}
    (h : t.result = .ok a) (f : α → Trace ω ε β) :
    (t >>= f).events.filterMap keep = t.events.filterMap keep ++ (f a).events.filterMap keep := by
  rw [bind_of_ok h, List.filterMap_append]

theorem kept_bind_of_error {γ : Type} (keep : ω → Option γ) {t : Trace ω ε α} {e : ε}
    (h : t.result = .error e) (f : α → Trace ω ε β) :
    (t >>= f).events.filterMap keep = t.events.filterMap keep := by
  rw [bind_of_error h]

/-- Nothing is added by a computation that goes on without an event that is kept. -/
theorem kept_bind_of_quiet {γ : Type} {keep : ω → Option γ} {f : α → Trace ω ε β}
    (hf : ∀ a, (f a).events.filterMap keep = []) (t : Trace ω ε α) :
    (t >>= f).events.filterMap keep = t.events.filterMap keep := by
  cases h : t.result with
  | error e => exact kept_bind_of_error keep h f
  | ok a => rw [kept_bind_of_ok keep h, hf, List.append_nil]

/-- A computation that goes on without events is seen as its first part alone. -/
theorem events_bind_ofExcept (t : Trace ω ε α) (f : α → Except ε β) :
    (t >>= fun a => ofExcept (f a)).events = t.events := by
  cases h : t.result with
  | error e => rw [bind_of_error h]
  | ok a => rw [bind_of_ok h]; simp

/-! ### Renaming -/

theorem result_relabel_eq_ok_iff {event : ω → ω'} {error : ε → ε'} {t : Trace ω ε α} {a : α} :
    (t.relabel event error).result = .ok a ↔ t.result = .ok a := by
  rw [relabel, mapError_eq_ok_iff]

theorem result_relabel_eq_error_iff {event : ω → ω'} {error : ε → ε'} {t : Trace ω ε α}
    {e' : ε'} :
    (t.relabel event error).result = .error e' ↔ ∃ e, t.result = .error e ∧ error e = e' := by
  rw [relabel, mapError_eq_error_iff]

@[simp] theorem relabel_events (event : ω → ω') (error : ε → ε') (t : Trace ω ε α) :
    (t.relabel event error).events = t.events.map event := rfl

/-- Renaming a composed computation renames its parts. -/
theorem relabel_bind (event : ω → ω') (error : ε → ε') (t : Trace ω ε α)
    (f : α → Trace ω ε β) :
    (t >>= f).relabel event error =
      t.relabel event error >>= fun a => (f a).relabel event error := by
  rcases t with ⟨es, e | a⟩
  · rfl
  · simp [bind_eq, relabel, Except.mapError]

theorem relabel_relabel (event : ω → ω') (error : ε → ε') (event' : ω' → ω'') (error' : ε' → ε'')
    (t : Trace ω ε α) :
    (t.relabel event error).relabel event' error' =
      t.relabel (event' ∘ event) (error' ∘ error) := by
  rcases t with ⟨es, e | a⟩ <;> simp [relabel, Except.mapError]

/-! ### Properties of the events -/

/-- A property of event lists that the empty list has, and that two lists one after the other have
if each of them has it. -/
structure Cumulative (P : List ω → Prop) : Prop where
  nil : P []
  append : ∀ {es fs : List ω}, P es → P fs → P (es ++ fs)

namespace Cumulative

variable {P : List ω → Prop}

/-- Whatever the first part ends in, the events of a composed computation keep a property that
those of its parts have. -/
theorem bind (hP : Cumulative P) {t : Trace ω ε α} {f : α → Trace ω ε β} (ht : P t.events)
    (hf : ∀ a, t.result = .ok a → P (f a).events) : P (t >>= f).events := by
  cases h : t.result with
  | error e => rw [bind_of_error h]; exact ht
  | ok a => rw [bind_of_ok h]; exact hP.append ht (hf a h)

/-- The events of a list of computations, one after the other, keep a property that each of them
has. -/
theorem flatMap (hP : Cumulative P) {f : α → List ω} :
    ∀ as : List α, (∀ a ∈ as, P (f a)) → P (as.flatMap f) := by
  intro as
  induction as with
  | nil => intro _; exact hP.nil
  | cons a as ih =>
    intro h
    rw [List.flatMap_cons]
    exact hP.append (h a List.mem_cons_self) (ih fun b hb => h b (List.mem_cons_of_mem a hb))

/-- A property of what a projection keeps of the events. -/
theorem filterMap {Q : List ω' → Prop} (hQ : Cumulative Q) (f : ω → Option ω') :
    Cumulative fun es => Q (es.filterMap f) where
  nil := hQ.nil
  append h h' := by rw [List.filterMap_append]; exact hQ.append h h'

end Cumulative

end Trace

end Sprocket
