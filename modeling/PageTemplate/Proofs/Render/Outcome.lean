import PageTemplate.Proofs.Render.Point

/-! Renders without their bindings. A run puts the bindings back as they were, so what counts is
its result and the context it leaves, and two runs can be compared whose bindings differ. -/
namespace PageTemplate.Render

variable {ω α β : Type}

/-- How a computation ends from given bindings, without the bindings at the end. -/
def outcome (m : Render ω α) (b : Bindings) (c : Context ω) : EStateM.Result Halt (Context ω) α :=
  match m ⟨b, c⟩ with
  | .ok a r => .ok a r.context
  | .error e r => .error e r.context

variable {b b₁ b₂ : Bindings} {c c' : Context ω}

theorem outcome_onBindings_of_ok {ε : Type} {wrap : ε → RenderError}
    {f : Bindings → Except ε α} {a : α} (h : f b = .ok a) :
    outcome (onBindings wrap f) b c = .ok a c := by
  unfold outcome
  rw [onBindings_of_ok h]

theorem outcome_onBindings_of_error {ε : Type} {wrap : ε → RenderError}
    {f : Bindings → Except ε α} {e : ε} (h : f b = .error e) :
    outcome (onBindings wrap f) b c = .error (.failed (wrap e)) c := by
  unfold outcome
  rw [onBindings_of_error h]

/-- A computation that keeps the bindings is the outcome and the bindings. -/
theorem Keeps.run_eq {m : Render ω α} (h : m.Keeps) (r : Rendering ω) :
    m r = match outcome m r.bindings r.context with
      | .ok a c => .ok a ⟨r.bindings, c⟩
      | .error e c => .error e ⟨r.bindings, c⟩ := by
  have hkeeps := h r
  unfold outcome
  cases hm : m r with
  | ok a r' =>
    rw [final_of_ok hm] at hkeeps
    simp only [← hkeeps]
  | error e r' =>
    rw [final_of_error hm] at hkeeps
    simp only [← hkeeps]

theorem outcome_bind_of_ok {m : Render ω α} (hm : m.Keeps) (f : α → Render ω β) {a : α}
    (h : outcome m b c = .ok a c') : outcome (m >>= f) b c = outcome (f a) b c' := by
  have hrun := hm.run_eq ⟨b, c⟩
  rw [h] at hrun
  unfold outcome
  rw [bind_of_ok hrun]

theorem outcome_bind_of_error {m : Render ω α} (f : α → Render ω β) {e : Halt}
    (h : outcome m b c = .error e c') : outcome (m >>= f) b c = .error e c' := by
  unfold outcome at h ⊢
  cases hm : m ⟨b, c⟩ with
  | ok a r =>
    rw [hm] at h
    cases h
  | error e' r =>
    rw [hm] at h
    cases h
    rw [bind_of_error hm]

/-! ## Runs from different bindings -/

/-- Computations that end alike from two bindings, whatever the context. -/
def Alike (b₁ b₂ : Bindings) (m₁ m₂ : Render ω α) : Prop :=
  ∀ c, outcome m₁ b₁ c = outcome m₂ b₂ c

/-- Two computations that keep the bindings and always end alike are one. -/
theorem Keeps.ext {m₁ m₂ : Render ω α} (h₁ : m₁.Keeps) (h₂ : m₂.Keeps)
    (h : ∀ b, Alike b b m₁ m₂) : m₁ = m₂ := by
  funext r
  rw [h₁.run_eq r, h₂.run_eq r, h r.bindings]

theorem alike_onBindings {ε : Type} {wrap : ε → RenderError} {f₁ f₂ : Bindings → Except ε α}
    (h : f₁ b₁ = f₂ b₂) :
    Alike b₁ b₂ (onBindings wrap f₁ : Render ω α) (onBindings wrap f₂) := by
  intro c
  cases hf : f₂ b₂ with
  | ok a => rw [outcome_onBindings_of_ok hf, outcome_onBindings_of_ok (h.trans hf)]
  | error e => rw [outcome_onBindings_of_error hf, outcome_onBindings_of_error (h.trans hf)]

theorem Alike.bind {m₁ m₂ : Render ω α} {f₁ f₂ : α → Render ω β} (h₁ : m₁.Keeps)
    (h₂ : m₂.Keeps) (hm : Alike b₁ b₂ m₁ m₂) (hf : ∀ a, Alike b₁ b₂ (f₁ a) (f₂ a)) :
    Alike b₁ b₂ (m₁ >>= f₁) (m₂ >>= f₂) := by
  intro c
  have hc := hm c
  cases ho : outcome m₂ b₂ c with
  | ok a c' =>
    rw [ho] at hc
    rw [outcome_bind_of_ok h₁ f₁ hc, outcome_bind_of_ok h₂ f₂ ho]
    exact hf a c'
  | error e c' =>
    rw [ho] at hc
    rw [outcome_bind_of_error f₁ hc, outcome_bind_of_error f₂ ho]

/-! ## Loops -/

theorem outcome_withBinding (name : Text) (cell : Cell) (m : Render ω α) :
    outcome (withBinding name cell m) b c = outcome m (b.push name cell) c := by
  unfold outcome withBinding
  dsimp only
  cases m ⟨b.push name cell, c⟩ <;> rfl

section Turns

variable {name : Text} {stop step : Value} {body rest : Render ω Unit} {cell d : Cell} {left : Nat}

theorem binding_push : binding name ⟨b.push name cell, c⟩ = .ok cell ⟨b.push name cell, c⟩ :=
  binding_of_peek (Bindings.peek_push b name cell)

/-- A step of a loop adds to the cell on top. -/
theorem advance_push_of_ok (h : cell.add (some step) = .ok d) :
    advance name step ⟨b.push name cell, c⟩ = .ok () ⟨b.push name d, c⟩ := by
  unfold advance
  rw [bind_of_ok binding_push, bind_of_ok (onBindings_of_ok (by exact h))]
  change EStateM.Result.ok () (⟨(b.push name cell).replace name d, c⟩ : Rendering ω) = _
  rw [Bindings.replace_push]

theorem advance_push_of_error {e : ValueError} (h : cell.add (some step) = .error e) :
    advance name step ⟨b.push name cell, c⟩ =
      .error (.failed (.value e)) ⟨b.push name cell, c⟩ := by
  unfold advance
  rw [bind_of_ok binding_push]
  exact bind_of_error (onBindings_of_error (by exact h)) _

theorem outcome_iterate_of_error {e : ValueError} (h : cell.compare (some stop) = .error e) :
    outcome (iterate name stop step body (left + 1)) (b.push name cell) c =
      .error (.failed (.value e)) c := by
  unfold outcome
  rw [iterate, bind_of_ok binding_push, bind_of_error (onBindings_of_error (by exact h))]

theorem outcome_iterate_of_gt (h : cell.compare (some stop) = .ok .gt) :
    outcome (iterate name stop step body (left + 1)) (b.push name cell) c = .ok () c := by
  unfold outcome
  rw [iterate, bind_of_ok binding_push, bind_of_ok (onBindings_of_ok (by exact h))]
  rfl

theorem outcome_iterate_of_turn {order : Ordering} (h : cell.compare (some stop) = .ok order)
    (hgt : order ≠ .gt) :
    outcome (iterate name stop step body (left + 1)) (b.push name cell) c =
      outcome (do
        body
        advance name step
        iterate name stop step body left) (b.push name cell) c := by
  unfold outcome
  rw [iterate_succ (Bindings.peek_push b name cell) h hgt]

/-- After a body that succeeds the loop goes on with the next cell. -/
theorem outcome_turn_of_ok (hbody : body.Keeps)
    (hout : outcome body (b.push name cell) c = .ok () c') (hadd : cell.add (some step) = .ok d) :
    outcome (do body; advance name step; rest) (b.push name cell) c =
      outcome rest (b.push name d) c' := by
  rw [outcome_bind_of_ok hbody _ hout]
  unfold outcome
  rw [bind_of_ok (advance_push_of_ok hadd)]

theorem outcome_turn_of_error {e : ValueError} (hbody : body.Keeps)
    (hout : outcome body (b.push name cell) c = .ok () c')
    (hadd : cell.add (some step) = .error e) :
    outcome (do body; advance name step; rest) (b.push name cell) c =
      .error (.failed (.value e)) c' := by
  rw [outcome_bind_of_ok hbody _ hout]
  unfold outcome
  rw [bind_of_error (advance_push_of_error hadd)]

end Turns

section Alike

variable {name₁ name₂ : Text} {stop step : Value} {body₁ body₂ : Render ω Unit}

/-- Turns over two variables end alike if the bodies do, whatever the cell. -/
theorem alike_iterate (h₁ : body₁.Keeps) (h₂ : body₂.Keeps)
    (hbody : ∀ cell, Alike (b₁.push name₁ cell) (b₂.push name₂ cell) body₁ body₂) (turns : Nat)
    (cell : Cell) :
    Alike (b₁.push name₁ cell) (b₂.push name₂ cell) (iterate name₁ stop step body₁ turns)
      (iterate name₂ stop step body₂ turns) := by
  induction turns generalizing cell with
  | zero => exact fun c => rfl
  | succ turns ih =>
    intro c
    cases ho : cell.compare (some stop) with
    | error e => rw [outcome_iterate_of_error ho, outcome_iterate_of_error ho]
    | ok order =>
      by_cases hgt : order = .gt
      · subst hgt
        rw [outcome_iterate_of_gt ho, outcome_iterate_of_gt ho]
      · rw [outcome_iterate_of_turn ho hgt, outcome_iterate_of_turn ho hgt]
        have hc := hbody cell c
        cases hout : outcome body₂ (b₂.push name₂ cell) c with
        | error e c' =>
          rw [hout] at hc
          rw [outcome_bind_of_error _ hc, outcome_bind_of_error _ hout]
        | ok a c' =>
          rw [hout] at hc
          cases hadd : cell.add (some step) with
          | error e => rw [outcome_turn_of_error h₁ hc hadd, outcome_turn_of_error h₂ hout hadd]
          | ok d =>
            rw [outcome_turn_of_ok h₁ hc hadd, outcome_turn_of_ok h₂ hout hadd]
            exact ih d c'

/-- Loops end alike if the values in their heads are the same and the bodies end alike. -/
theorem alike_loop {head₁ head₂ : LoopHead} (h₁ : body₁.Keeps) (h₂ : body₂.Keeps)
    (hstart : head₁.start.value? b₁ = head₂.start.value? b₂)
    (hstop : head₁.stop.value? b₁ = head₂.stop.value? b₂)
    (hstep : head₁.stepValue? b₁ = head₂.stepValue? b₂)
    (hbody : ∀ cell, Alike (b₁.push head₁.name cell) (b₂.push head₂.name cell) body₁ body₂)
    (turns : Nat) : Alike b₁ b₂ (loop head₁ body₁ turns) (loop head₂ body₂ turns) := by
  rw [loop_eq, loop_eq]
  refine (alike_onBindings hstart).bind (keeps_onBindings _ _) (keeps_onBindings _ _) ?_
  intro start
  refine (alike_onBindings hstop).bind (keeps_onBindings _ _) (keeps_onBindings _ _) ?_
  intro stop
  refine (alike_onBindings hstep).bind (keeps_onBindings _ _) (keeps_onBindings _ _) ?_
  intro step
  have hcell : Alike b₁ b₂ (onBindings .value fun _ => Cell.ofValue (some start) : Render ω Cell)
      (onBindings .value fun _ => Cell.ofValue (some start)) := alike_onBindings rfl
  refine hcell.bind (keeps_onBindings _ _) (keeps_onBindings _ _) fun cell => ?_
  intro c
  rw [outcome_withBinding, outcome_withBinding]
  exact alike_iterate h₁ h₂ hbody turns cell c

end Alike

end PageTemplate.Render
