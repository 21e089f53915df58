/-!
# Traces

A computation that reports events while it runs and ends in a value or an error. What was reported
before an error stays reported; nothing is reported after it.
-/

namespace Sprocket

/-- The events of a computation, in order, and how it ended. -/
structure Trace (ω ε α : Type) where
  events : List ω
  result : Except ε α

namespace Trace

variable {ω ω' ε ε' α β : Type}

/-- A computation that ends at once with a value. -/
def value (a : α) : Trace ω ε α := ⟨[], .ok a⟩

/-- A computation that ends at once with an error. -/
def fail (e : ε) : Trace ω ε α := ⟨[], .error e⟩

/-- Reports one event. -/
def tell (event : ω) : Trace ω ε Unit := ⟨[event], .ok ()⟩

/-- A computation without events. -/
def ofExcept (r : Except ε α) : Trace ω ε α := ⟨[], r⟩

/-- Goes on with the value of a computation, if it has one. -/
def andThen (t : Trace ω ε α) (f : α → Trace ω ε β) : Trace ω ε β :=
  match t.result with
  | .error e => ⟨t.events, .error e⟩
  | .ok a => ⟨t.events ++ (f a).events, (f a).result⟩

instance : Monad (Trace ω ε) where
  pure := value
  bind := andThen

/-- Renames the events and the error of a computation. -/
def relabel (event : ω → ω') (error : ε → ε') (t : Trace ω ε α) : Trace ω' ε' α :=
  ⟨t.events.map event, t.result.mapError error⟩

/-- Puts one event in front of a computation and one after it, whatever it ends in. -/
def within (before after : ω) (t : Trace ω ε α) : Trace ω ε α :=
  ⟨before :: t.events ++ [after], t.result⟩

@[simp] theorem pure_eq (a : α) : (pure a : Trace ω ε α) = ⟨[], .ok a⟩ := rfl

theorem bind_eq (t : Trace ω ε α) (f : α → Trace ω ε β) : t >>= f = t.andThen f := rfl

@[simp] theorem andThen_ok (es : List ω) (a : α) (f : α → Trace ω ε β) :
    andThen ⟨es, .ok a⟩ f = ⟨es ++ (f a).events, (f a).result⟩ := rfl

@[simp] theorem andThen_error (es : List ω) (e : ε) (f : α → Trace ω ε β) :
    andThen (⟨es, .error e⟩ : Trace ω ε α) f = ⟨es, .error e⟩ := rfl

instance : LawfulMonad (Trace ω ε) :=
  LawfulMonad.mk' _
    (by rintro α ⟨es, _ | a⟩ <;> simp [Functor.map, andThen, value])
    (by intro α β a f; simp [bind_eq])
    (by
      rintro α β γ ⟨es, _ | a⟩ f g
      · simp [bind_eq]
      · simp only [bind_eq, andThen_ok]
        cases h : (f a).result <;> simp [andThen, h])

end Trace

end Sprocket
