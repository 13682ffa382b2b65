/-! Computations with a state that may fail, and their results part by part. -/
namespace PageTemplate

variable {ε ε' σ τ α β : Type} {m : EStateM ε σ α} {f : α → EStateM ε σ β} {s s' : σ}

theorem bind_of_ok {a : α} (h : m s = .ok a s') (f : α → EStateM ε σ β) :
    (m >>= f) s = f a s' := by
  change EStateM.bind m f s = _
  unfold EStateM.bind
  rw [h]

theorem bind_of_error {e : ε} (h : m s = .error e s') (f : α → EStateM ε σ β) :
    (m >>= f) s = .error e s' := by
  change EStateM.bind m f s = _
  unfold EStateM.bind
  rw [h]

/-- A failure comes from the first part, or from the second after the first. -/
theorem error_of_bind {e : ε} (h : (m >>= f) s = .error e s') :
    m s = .error e s' ∨ ∃ a s₁, m s = .ok a s₁ ∧ f a s₁ = .error e s' := by
  cases hm : m s with
  | ok a s₁ =>
    rw [bind_of_ok hm] at h
    exact .inr ⟨a, s₁, rfl, h⟩
  | error e' s₁ =>
    rw [bind_of_error hm] at h
    cases h
    exact .inl rfl

theorem ok_of_bind {b : β} (h : (m >>= f) s = .ok b s') :
    ∃ a s₁, m s = .ok a s₁ ∧ f a s₁ = .ok b s' := by
  cases hm : m s with
  | ok a s₁ =>
    rw [bind_of_ok hm] at h
    exact ⟨a, s₁, rfl, h⟩
  | error e s₁ =>
    rw [bind_of_error hm] at h
    cases h

/-! ## Parts of a result -/

/-- The state that a computation leaves. -/
def endState : EStateM.Result ε σ α → σ
  | .ok _ s => s
  | .error _ s => s

/-- The error that a computation ends with, if it fails. -/
def failure? : EStateM.Result ε σ α → Option ε
  | .ok _ _ => none
  | .error e _ => some e

theorem eq_ok_of_failure? {x : EStateM.Result ε σ Unit} (h : failure? x = none) :
    x = .ok () (endState x) := by
  cases x with
  | ok a s => rfl
  | error e s => cases h

theorem eq_error_of_failure? {x : EStateM.Result ε σ α} {e : ε} (h : failure? x = some e) :
    x = .error e (endState x) := by
  cases x with
  | ok a s => cases h
  | error e s =>
    cases h
    rfl

/-- A result told in other terms. -/
def mapResult (value : α → σ → β) (wrap : ε → ε') (put : σ → τ) :
    EStateM.Result ε σ α → EStateM.Result ε' τ β
  | .ok a s => .ok (value a s) (put s)
  | .error e s => .error (wrap e) (put s)

variable {value : α → σ → β} {wrap : ε → ε'} {put : σ → τ}

@[simp] theorem endState_mapResult (x : EStateM.Result ε σ α) :
    endState (mapResult value wrap put x) = put (endState x) := by
  cases x <;> rfl

@[simp] theorem failure?_mapResult (x : EStateM.Result ε σ α) :
    failure? (mapResult value wrap put x) = (failure? x).map wrap := by
  cases x <;> rfl

end PageTemplate
