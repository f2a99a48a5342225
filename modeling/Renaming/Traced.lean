import Renaming.Event

/-!
# Results with a trace

`Traced ε α` is the result of a computation that may fail, with the events of the way there. A
failure keeps the events that came before it.
-/

namespace Renaming

structure Traced (ε α : Type) where
  events : List Event
  result : Except ε α

namespace Traced

variable {ε ε' α β : Type}

def pure (a : α) : Traced ε α := ⟨[], .ok a⟩

def fail (e : ε) : Traced ε α := ⟨[], .error e⟩

def tell (event : Event) : Traced ε Unit := ⟨[event], .ok ()⟩

def bind (x : Traced ε α) (f : α → Traced ε β) : Traced ε β :=
  match x.result with
  | .ok a => ⟨x.events ++ (f a).events, (f a).result⟩
  | .error e => ⟨x.events, .error e⟩

instance : Monad (Traced ε) where
  pure := pure
  bind := bind

def mapError (f : ε → ε') (x : Traced ε α) : Traced ε' α := ⟨x.events, x.result.mapError f⟩

@[simp] theorem pure_eq (a : α) : (Pure.pure a : Traced ε α) = ⟨[], .ok a⟩ := rfl

theorem bind_eq (x : Traced ε α) (f : α → Traced ε β) : (x >>= f) = bind x f := rfl

@[simp] theorem ok_bind (events : List Event) (a : α) (f : α → Traced ε β) :
    ((⟨events, .ok a⟩ : Traced ε α) >>= f) = ⟨events ++ (f a).events, (f a).result⟩ := rfl

@[simp] theorem error_bind (events : List Event) (e : ε) (f : α → Traced ε β) :
    ((⟨events, .error e⟩ : Traced ε α) >>= f) = ⟨events, .error e⟩ := rfl

theorem bind_result_eq_ok_iff {x : Traced ε α} {f : α → Traced ε β} {b : β} :
    (x >>= f).result = .ok b ↔ ∃ a, x.result = .ok a ∧ (f a).result = .ok b := by
  rcases x with ⟨events, e | a⟩ <;> simp

theorem mapError_result_eq_ok_iff {x : Traced ε α} {f : ε → ε'} {a : α} :
    (x.mapError f).result = .ok a ↔ x.result = .ok a := by
  rcases x with ⟨events, e | b⟩
  · constructor <;> intro h <;> cases h
  · show (.ok b : Except ε' α) = .ok a ↔ (.ok b : Except ε α) = .ok a
    rw [Except.ok.injEq, Except.ok.injEq]

theorem bind_result_eq_error_iff {x : Traced ε α} {f : α → Traced ε β} {e : ε} :
    (x >>= f).result = .error e ↔
      x.result = .error e ∨ ∃ a, x.result = .ok a ∧ (f a).result = .error e := by
  rcases x with ⟨events, e' | a⟩ <;> simp

theorem mapError_result_eq_error_iff {x : Traced ε α} {f : ε → ε'} {e' : ε'} :
    (x.mapError f).result = .error e' ↔ ∃ e, x.result = .error e ∧ f e = e' := by
  rcases x with ⟨events, e | a⟩
  · show (.error (f e) : Except ε' α) = .error e' ↔ _
    simp
  · show (.ok a : Except ε' α) = .error e' ↔ _
    simp

end Traced

end Renaming
