import PageTemplate.Proofs.Render.Point

/-! Renders in lockstep. Two renders of one document do the same as long as their pages answer
alike. If one of them is refused something, the other may go on alone. -/
namespace PageTemplate

/-! ## Computations on a part of the state -/

section Parts

variable {ω α : Type}

/-- The end of a render that its context refuses something. -/
def Halt.ofContext (e : ContextError) : Halt := .failed (.context e)

theorem Context.onPage_eq (m : EStateM ContextError ω Unit) (c : Context ω) :
    onPage m c = mapResult (fun a _ => a) id (fun page => ⟨c.parameters, page⟩) (m c.page) := by
  obtain ⟨parameters, page⟩ := c
  unfold onPage
  dsimp only
  cases m page <;> rfl

theorem Eval.onContext_eq (m : EStateM ContextError (Context ω) α) (s : Evaluation ω) :
    onContext m s = mapResult (fun a _ => a) RenderError.context (fun c => ⟨s.stack, c⟩)
      (m s.context) := by
  obtain ⟨stack, context⟩ := s
  unfold onContext
  dsimp only
  cases m context <;> rfl

namespace Render

theorem withBinding_eq (name : Text) (cell : Cell) (m : Render ω α) (r : Rendering ω) :
    withBinding name cell m r = mapResult (fun a _ => a) id
      (fun r' => { r' with bindings := r'.bindings.pop name })
      (m ⟨r.bindings.push name cell, r.context⟩) := by
  obtain ⟨bindings, context⟩ := r
  unfold withBinding
  dsimp only
  cases m ⟨bindings.push name cell, context⟩ <;> rfl

variable [Page ω]

theorem write_eq (s : Text) (r : Rendering ω) :
    write s r = mapResult (fun a _ => a) Halt.ofContext (fun c => ⟨r.bindings, c⟩)
      (r.context.write s) := by
  obtain ⟨bindings, context⟩ := r
  unfold write
  dsimp only
  cases context.write s <;> rfl

theorem evaluate_eq (es : List Element) (r : Rendering ω) :
    evaluate es r = mapResult (fun _ s => s.stack.reverse) Halt.failed
      (fun s => ⟨r.bindings, s.context⟩) (evalAll r.bindings es ⟨[], r.context⟩) := by
  obtain ⟨bindings, context⟩ := r
  unfold evaluate
  dsimp only
  cases evalAll bindings es ⟨[], context⟩ <;> rfl

end Render

theorem Document.render_eq [Page ω] (d : Document) (turns : Nat) (c : Context ω) :
    d.render turns c = mapResult (fun a _ => a) id (·.context)
      (d.run turns ⟨Bindings.empty, c⟩) := by
  unfold render
  cases d.run turns (⟨Bindings.empty, c⟩ : Rendering ω) <;> rfl

end Parts

/-! ## Lockstep -/

/-- How the states of two computations belong together: both have come equally far, or the
second has stopped with an error and the first may have gone on. -/
structure Lockstep (ε σ₁ σ₂ : Type) where
  related : σ₁ → σ₂ → Prop
  stopped : σ₁ → ε → σ₂ → Prop

namespace Lockstep

variable {ε ε' σ₁ σ₂ τ₁ τ₂ α β : Type}

/-- Two results in lockstep. -/
inductive Along (L : Lockstep ε σ₁ σ₂) : EStateM.Result ε σ₁ α → EStateM.Result ε σ₂ α → Prop
  | ok {a : α} {s₁ : σ₁} {s₂ : σ₂} (h : L.related s₁ s₂) : Along L (.ok a s₁) (.ok a s₂)
  | error {e : ε} {s₁ : σ₁} {s₂ : σ₂} (h : L.related s₁ s₂) :
      Along L (.error e s₁) (.error e s₂)
  | stopped {x : EStateM.Result ε σ₁ α} {e : ε} {s₂ : σ₂} (h : L.stopped (endState x) e s₂) :
      Along L x (.error e s₂)

/-- The second computation follows the first, and once it has stopped whatever the first does
makes no difference. -/
structure Follows (L : Lockstep ε σ₁ σ₂) (m₁ : EStateM ε σ₁ α) (m₂ : EStateM ε σ₂ α) : Prop where
  along : ∀ s₁ s₂, L.related s₁ s₂ → L.Along (m₁ s₁) (m₂ s₂)
  stays : ∀ s₁ e s₂, L.stopped s₁ e s₂ → L.stopped (endState (m₁ s₁)) e s₂

variable {L : Lockstep ε σ₁ σ₂}

theorem follows_pure (a : α) : L.Follows (pure a) (pure a) :=
  ⟨fun _ _ h => .ok h, fun _ _ _ h => h⟩

theorem follows_throw (e : ε) : L.Follows (throw e : EStateM ε σ₁ α) (throw e) :=
  ⟨fun _ _ h => .error h, fun _ _ _ h => h⟩

theorem follows_modify {f₁ : σ₁ → σ₁} {f₂ : σ₂ → σ₂}
    (hrelated : ∀ s₁ s₂, L.related s₁ s₂ → L.related (f₁ s₁) (f₂ s₂))
    (hstopped : ∀ s₁ e s₂, L.stopped s₁ e s₂ → L.stopped (f₁ s₁) e s₂) :
    L.Follows (modify f₁) (modify f₂) :=
  ⟨fun s₁ s₂ h => .ok (hrelated s₁ s₂ h), hstopped⟩

theorem Follows.bind {m₁ : EStateM ε σ₁ α} {m₂ : EStateM ε σ₂ α} {f₁ : α → EStateM ε σ₁ β}
    {f₂ : α → EStateM ε σ₂ β} (hm : L.Follows m₁ m₂) (hf : ∀ a, L.Follows (f₁ a) (f₂ a)) :
    L.Follows (m₁ >>= f₁) (m₂ >>= f₂) := by
  have hstays : ∀ s₁ e s₂, L.stopped (endState (m₁ s₁)) e s₂ →
      L.stopped (endState ((m₁ >>= f₁) s₁)) e s₂ := by
    intro s₁ e s₂ h
    cases h₁ : m₁ s₁ with
    | ok a s =>
      rw [h₁] at h
      rw [bind_of_ok h₁]
      exact (hf a).stays _ _ _ h
    | error e' s =>
      rw [h₁] at h
      rwa [bind_of_error h₁]
  refine ⟨fun s₁ s₂ h => ?_, fun s₁ e s₂ h => hstays s₁ e s₂ (hm.stays s₁ e s₂ h)⟩
  have halong := hm.along s₁ s₂ h
  generalize h₁ : m₁ s₁ = x₁ at halong
  generalize h₂ : m₂ s₂ = x₂ at halong
  cases halong with
  | ok h =>
    rw [bind_of_ok h₁, bind_of_ok h₂]
    exact (hf _).along _ _ h
  | error h =>
    rw [bind_of_error h₁, bind_of_error h₂]
    exact .error h
  | stopped h =>
    -- the first may go on with the rest, the second does not
    rw [bind_of_error h₂]
    exact .stopped (hstays _ _ _ (h₁ ▸ h))

/-- Results in lockstep are so in other terms too. -/
theorem Along.map {M : Lockstep ε' τ₁ τ₂} {x₁ : EStateM.Result ε σ₁ α}
    {x₂ : EStateM.Result ε σ₂ α} (h : L.Along x₁ x₂) {value₁ : α → σ₁ → β} {value₂ : α → σ₂ → β}
    {wrap : ε → ε'} {put₁ : σ₁ → τ₁} {put₂ : σ₂ → τ₂}
    (hvalue : ∀ a s₁ s₂, L.related s₁ s₂ → value₁ a s₁ = value₂ a s₂)
    (hrelated : ∀ s₁ s₂, L.related s₁ s₂ → M.related (put₁ s₁) (put₂ s₂))
    (hstopped : ∀ s₁ e s₂, L.stopped s₁ e s₂ → M.stopped (put₁ s₁) (wrap e) (put₂ s₂)) :
    M.Along (mapResult value₁ wrap put₁ x₁) (mapResult value₂ wrap put₂ x₂) := by
  cases h with
  | @ok a s₁ s₂ h =>
    simp only [mapResult, hvalue a s₁ s₂ h]
    exact .ok (hrelated s₁ s₂ h)
  | @error e s₁ s₂ h => exact .error (hrelated s₁ s₂ h)
  | @stopped _ e s₂ h =>
    refine .stopped ?_
    rw [endState_mapResult]
    exact hstopped _ e s₂ h

/-! ## Evaluations, renders and pages -/

variable {ω₁ ω₂ : Type}

/-- Contexts in lockstep if their pages are; the parameters are the same. -/
def ofPages (P : Lockstep ContextError ω₁ ω₂) :
    Lockstep ContextError (Context ω₁) (Context ω₂) where
  related c₁ c₂ := c₁.parameters = c₂.parameters ∧ P.related c₁.page c₂.page
  stopped c₁ e c₂ := P.stopped c₁.page e c₂.page

/-- Contexts in lockstep for computations that have other errors too. -/
def ofErrors (C : Lockstep ContextError (Context ω₁) (Context ω₂)) (wrap : ContextError → ε) :
    Lockstep ε (Context ω₁) (Context ω₂) where
  related := C.related
  stopped c₁ e c₂ := ∃ e', e = wrap e' ∧ C.stopped c₁ e' c₂

def evaluation (C : Lockstep ContextError (Context ω₁) (Context ω₂)) :
    Lockstep RenderError (Evaluation ω₁) (Evaluation ω₂) where
  related s₁ s₂ := s₁.stack = s₂.stack ∧ C.related s₁.context s₂.context
  stopped s₁ e s₂ := (C.ofErrors RenderError.context).stopped s₁.context e s₂.context

def rendering (C : Lockstep ContextError (Context ω₁) (Context ω₂)) :
    Lockstep Halt (Rendering ω₁) (Rendering ω₂) where
  related r₁ r₂ := r₁.bindings = r₂.bindings ∧ C.related r₁.context r₂.context
  stopped r₁ e r₂ := (C.ofErrors Halt.ofContext).stopped r₁.context e r₂.context

variable {P : Lockstep ContextError ω₁ ω₂} {C : Lockstep ContextError (Context ω₁) (Context ω₂)}

theorem follows_onPage {m₁ : EStateM ContextError ω₁ Unit} {m₂ : EStateM ContextError ω₂ Unit}
    (h : P.Follows m₁ m₂) : P.ofPages.Follows (Context.onPage m₁) (Context.onPage m₂) where
  along c₁ c₂ hc := by
    rw [Context.onPage_eq, Context.onPage_eq]
    exact (h.along _ _ hc.2).map (fun _ _ _ _ => rfl) (fun _ _ hp => ⟨hc.1, hp⟩)
      fun _ _ _ hp => hp
  stays c₁ e c₂ hc := by
    rw [Context.onPage_eq, endState_mapResult]
    exact h.stays _ e _ hc

/-! ## The operand stack -/

section Stack

open Eval

theorem follows_push (v : Value) : C.evaluation.Follows (push v) (push v) where
  along := by
    rintro ⟨stack, c₁⟩ ⟨_, c₂⟩ ⟨rfl, h⟩
    exact .ok ⟨rfl, h⟩
  stays _ _ _ h := h

theorem follows_pop (function : Text) :
    C.evaluation.Follows (pop function) (pop function) where
  along := by
    rintro ⟨stack, c₁⟩ ⟨_, c₂⟩ ⟨rfl, h⟩
    rcases stack with _ | ⟨a, stack⟩
    · exact .error ⟨rfl, h⟩
    · exact .ok ⟨rfl, h⟩
  stays := by
    rintro ⟨_ | ⟨a, stack⟩, c₁⟩ e s₂ h <;> exact h

theorem follows_popTwo (function : Text) :
    C.evaluation.Follows (popTwo function) (popTwo function) where
  along := by
    rintro ⟨stack, c₁⟩ ⟨_, c₂⟩ ⟨rfl, h⟩
    rcases stack with _ | ⟨b, _ | ⟨a, stack⟩⟩
    · exact .error ⟨rfl, h⟩
    · exact .error ⟨rfl, h⟩
    · exact .ok ⟨rfl, h⟩
  stays := by
    rintro ⟨_ | ⟨b, _ | ⟨a, stack⟩⟩, c₁⟩ e s₂ h <;> exact h

theorem follows_peek (function : Text) :
    C.evaluation.Follows (peek function) (peek function) where
  along := by
    rintro ⟨stack, c₁⟩ ⟨_, c₂⟩ ⟨rfl, h⟩
    rcases stack with _ | ⟨a, stack⟩
    · exact .error ⟨rfl, h⟩
    · exact .ok ⟨rfl, h⟩
  stays := by
    rintro ⟨_ | ⟨a, stack⟩, c₁⟩ e s₂ h <;> exact h

theorem follows_ofExcept (wrap : ε → RenderError) (r : Except ε α) :
    C.evaluation.Follows (ofExcept wrap r) (ofExcept wrap r) := by
  cases r with
  | ok a => exact follows_pure a
  | error e => exact follows_throw (wrap e)

theorem follows_onContext {m₁ : EStateM ContextError (Context ω₁) α}
    {m₂ : EStateM ContextError (Context ω₂) α} (h : C.Follows m₁ m₂) :
    C.evaluation.Follows (onContext m₁) (onContext m₂) where
  along s₁ s₂ hs := by
    rw [onContext_eq, onContext_eq]
    exact (h.along _ _ hs.2).map (fun _ _ _ _ => rfl) (fun _ _ hc => ⟨hs.1, hc⟩)
      fun _ e _ hc => ⟨e, rfl, hc⟩
  stays s₁ e s₂ hs := by
    obtain ⟨e', rfl, hc⟩ := hs
    rw [onContext_eq, endState_mapResult]
    exact ⟨e', rfl, h.stays _ e' _ hc⟩

theorem follows_operator (o : Operator) :
    C.evaluation.Follows (o.run : Eval ω₁ Unit) (o.run : Eval ω₂ Unit) := by
  unfold Operator.run
  cases o.cellFunction? with
  | none => exact follows_throw _
  | some f =>
    refine (follows_popTwo _).bind fun ab => ?_
    refine (follows_ofExcept _ _).bind fun c => ?_
    exact (follows_ofExcept _ _).bind fun d => follows_push _

end Stack

/-! ## Functions -/

section Functions

open Builtin

theorem follows_getWith (f : Builtin) {find₁ : Context ω₁ → Text → Option Text}
    {find₂ : Context ω₂ → Text → Option Text}
    (h : ∀ c₁ c₂, C.related c₁ c₂ → find₁ c₁ = find₂ c₂) :
    C.evaluation.Follows (f.getWith find₁) (f.getWith find₂) := by
  refine (follows_popTwo _).bind fun ⟨key, default⟩ => ⟨?_, fun _ _ _ h => h⟩
  rintro ⟨stack, c₁⟩ ⟨_, c₂⟩ ⟨rfl, hc⟩
  have hfind := h c₁ c₂ hc
  refine .ok ⟨?_, hc⟩
  change (find₁ c₁ key.text).elim default Value.str :: stack =
    (find₂ c₂ key.text).elim default Value.str :: stack
  rw [hfind]

theorem follows_change {f₁ : Context ω₁ → Context ω₁} {f₂ : Context ω₂ → Context ω₂}
    (hrelated : ∀ c₁ c₂, C.related c₁ c₂ → C.related (f₁ c₁) (f₂ c₂))
    (hstopped : ∀ c₁ e c₂, C.stopped c₁ e c₂ → C.stopped (f₁ c₁) e c₂) :
    C.evaluation.Follows (change f₁) (change f₂) :=
  follows_modify (fun _ _ h => ⟨h.1, hrelated _ _ h.2⟩)
    fun _ _ _ ⟨e', he, h⟩ => ⟨e', he, hstopped _ _ _ h⟩

variable [Page ω₁] [Page ω₂]

theorem follows_setMimeType
    (h : ∀ s, C.Follows (Context.setMimeType s : EStateM _ (Context ω₁) Unit)
      (Context.setMimeType s)) :
    C.evaluation.Follows (setMimeType.run : Eval ω₁ Unit) (setMimeType.run : Eval ω₂ Unit) := by
  refine (follows_pop _).bind fun a => ?_
  by_cases hmime : unquoteMime a.text ≠ []
  · simp only [if_pos hmime]
    exact follows_onContext (h _)
  · simp only [if_neg hmime]
    exact follows_pure ()

/-- Functions that use the stack alone follow in any contexts. -/
theorem follows_of_not_usesContext {f : Builtin} (h : f.usesContext = false) :
    C.evaluation.Follows (f.run : Eval ω₁ Unit) (f.run : Eval ω₂ Unit) := by
  cases f with
  | sin =>
    refine (follows_pop _).bind fun a => ?_
    exact (follows_ofExcept _ _).bind fun x => follows_push _
  | decfmt =>
    refine (follows_popTwo _).bind fun ⟨number, pattern⟩ => ?_
    refine (follows_ofExcept _ _).bind fun x => ?_
    exact (follows_ofExcept _ _).bind fun p => follows_push _
  | dup => exact (follows_peek _).bind fun a => follows_push _
  | swap =>
    exact (follows_popTwo _).bind fun ⟨a, b⟩ => (follows_push _).bind fun _ => follows_push _
  | _ => cases h

end Functions

/-! ## Renders -/

section Renders

open Render

variable {name : Text}

theorem follows_onBindings (wrap : ε → RenderError) (f : Bindings → Except ε α) :
    C.rendering.Follows (onBindings wrap f) (onBindings wrap f) where
  along := by
    rintro ⟨b, c₁⟩ ⟨_, c₂⟩ ⟨rfl, h⟩
    unfold onBindings
    dsimp only
    cases f b with
    | ok a => exact .ok ⟨rfl, h⟩
    | error e => exact .error ⟨rfl, h⟩
  stays := by
    rintro ⟨b, c₁⟩ e r₂ h
    unfold onBindings
    dsimp only
    cases f b <;> exact h

theorem follows_withBinding {m₁ : Render ω₁ α} {m₂ : Render ω₂ α} (h : C.rendering.Follows m₁ m₂)
    (cell : Cell) :
    C.rendering.Follows (withBinding name cell m₁) (withBinding name cell m₂) where
  along r₁ r₂ hr := by
    rw [withBinding_eq, withBinding_eq]
    have halong := h.along ⟨r₁.bindings.push name cell, r₁.context⟩
      ⟨r₂.bindings.push name cell, r₂.context⟩ ⟨congrArg (·.push name cell) hr.1, hr.2⟩
    exact halong.map (fun _ _ _ _ => rfl) (fun _ _ h => ⟨congrArg (·.pop name) h.1, h.2⟩)
      fun _ _ _ h => h
  stays r₁ e r₂ hr := by
    rw [withBinding_eq, endState_mapResult]
    exact h.stays ⟨r₁.bindings.push name cell, r₁.context⟩ e r₂ hr

theorem follows_advance (name : Text) (step : Value) :
    C.rendering.Follows (advance name step) (advance name step) := by
  refine (follows_onBindings _ _).bind fun cell => ?_
  refine (follows_onBindings _ _).bind fun d => ?_
  exact follows_modify (fun _ _ h => ⟨congrArg (·.replace name d) h.1, h.2⟩) fun _ _ _ h => h

variable {body₁ : Render ω₁ Unit} {body₂ : Render ω₂ Unit}

theorem follows_iterate (h : C.rendering.Follows body₁ body₂) (stop step : Value) (turns : Nat) :
    C.rendering.Follows (iterate name stop step body₁ turns)
      (iterate name stop step body₂ turns) := by
  induction turns with
  | zero => exact follows_throw _
  | succ turns ih =>
    refine (follows_onBindings _ _).bind fun cell => ?_
    refine (follows_onBindings _ _).bind fun order => ?_
    cases order with
    | gt => exact follows_pure ()
    | _ => exact h.bind fun _ => (follows_advance name step).bind fun _ => ih

theorem follows_loop (h : C.rendering.Follows body₁ body₂) (head : LoopHead) (turns : Nat) :
    C.rendering.Follows (loop head body₁ turns) (loop head body₂ turns) := by
  rw [loop_eq, loop_eq]
  refine (follows_onBindings _ _).bind fun start => ?_
  refine (follows_onBindings _ _).bind fun stop => ?_
  refine (follows_onBindings _ _).bind fun step => ?_
  refine (follows_onBindings _ _).bind fun cell => ?_
  exact follows_withBinding (follows_iterate h stop step turns) cell

variable [Page ω₁] [Page ω₂]

/-- All that a document with some functions does to its context keeps the lockstep. -/
structure Serves (C : Lockstep ContextError (Context ω₁) (Context ω₂)) (fs : List Builtin) :
    Prop where
  write : ∀ s, C.Follows (Context.write s) (Context.write s)
  run : ∀ f ∈ fs, C.evaluation.Follows (f.run : Eval ω₁ Unit) (f.run : Eval ω₂ Unit)

theorem Serves.mono {fs gs : List Builtin} (h : C.Serves gs) (hsub : fs ⊆ gs) : C.Serves fs :=
  ⟨h.write, fun f hf => h.run f (hsub hf)⟩

theorem follows_write (h : ∀ s, C.Follows (Context.write s) (Context.write s)) (s : Text) :
    C.rendering.Follows (write s : Render ω₁ Unit) (write s : Render ω₂ Unit) where
  along r₁ r₂ hr := by
    rw [write_eq, write_eq]
    exact ((h s).along _ _ hr.2).map (fun _ _ _ _ => rfl) (fun _ _ hc => ⟨hr.1, hc⟩)
      fun _ e _ hc => ⟨e, rfl, hc⟩
  stays r₁ e r₂ hr := by
    obtain ⟨e', rfl, hc⟩ := hr
    rw [write_eq, endState_mapResult]
    exact ⟨e', rfl, (h s).stays _ e' _ hc⟩

theorem follows_writeValues (h : ∀ s, C.Follows (Context.write s) (Context.write s))
    (vs : List Value) :
    C.rendering.Follows (writeValues vs : Render ω₁ Unit) (writeValues vs : Render ω₂ Unit) := by
  induction vs with
  | nil => exact follows_pure ()
  | cons v vs ih => exact (follows_write h v.text).bind fun _ => ih

end Renders

end Lockstep

/-! ## Documents -/

/-- The functions that occur in a tag. -/
def Element.builtins : Element → List Builtin
  | .fn name => (Builtin.ofName? name).toList
  | _ => []

/-- The functions that occur in a document. -/
def Document.builtins : Document → List Builtin
  | .nil => []
  | .text _ rest => rest.builtins
  | .echo es rest => es.flatMap Element.builtins ++ rest.builtins
  | .loop _ inner rest => inner.builtins ++ rest.builtins

namespace Lockstep

open Render

variable {ω₁ ω₂ : Type} [Page ω₁] [Page ω₂] {P : Lockstep ContextError ω₁ ω₂}
  {C : Lockstep ContextError (Context ω₁) (Context ω₂)}

theorem follows_element (b : Bindings) (e : Element) (h : C.Serves e.builtins) :
    C.evaluation.Follows (e.eval b : Eval ω₁ Unit) (e.eval b : Eval ω₂ Unit) := by
  cases e with
  | operand o => exact (follows_ofExcept _ _).bind fun v => follows_push v
  | op o => exact follows_operator o
  | fn name =>
    unfold Element.eval
    dsimp only
    cases hf : Builtin.ofName? name with
    | none => exact follows_throw _
    | some f =>
      refine h.run f ?_
      rw [Element.builtins, hf]
      exact List.mem_singleton.2 rfl

theorem follows_evalAll (b : Bindings) (es : List Element)
    (h : C.Serves (es.flatMap Element.builtins)) :
    C.evaluation.Follows (evalAll b es : Eval ω₁ Unit) (evalAll b es : Eval ω₂ Unit) := by
  induction es with
  | nil => exact follows_pure ()
  | cons e es ih =>
    rw [List.flatMap_cons] at h
    have he := follows_element b e (h.mono (List.subset_append_left _ _))
    exact he.bind fun _ => ih (h.mono (List.subset_append_right _ _))

theorem follows_evaluate (es : List Element) (h : C.Serves (es.flatMap Element.builtins)) :
    C.rendering.Follows (evaluate es : Render ω₁ (List Value)) (evaluate es) where
  along r₁ r₂ hr := by
    rw [evaluate_eq, evaluate_eq, hr.1]
    have halong := (follows_evalAll r₂.bindings es h).along ⟨[], r₁.context⟩ ⟨[], r₂.context⟩
      ⟨rfl, hr.2⟩
    exact halong.map (fun _ _ _ hs => congrArg List.reverse hs.1) (fun _ _ hs => ⟨rfl, hs.2⟩)
      fun _ _ _ ⟨e, he, hs⟩ => ⟨e, congrArg Halt.failed he, hs⟩
  stays r₁ e r₂ hr := by
    obtain ⟨e', rfl, hc⟩ := hr
    rw [evaluate_eq, endState_mapResult]
    have hstays := (follows_evalAll r₁.bindings es h).stays ⟨[], r₁.context⟩ (.context e')
      ⟨[], r₂.context⟩ ⟨e', rfl, hc⟩
    obtain ⟨_, he, hs⟩ := hstays
    cases he
    exact ⟨e', rfl, hs⟩

theorem follows_run (d : Document) (h : C.Serves d.builtins) (turns : Nat) :
    C.rendering.Follows (d.run turns : Render ω₁ Unit) (d.run turns : Render ω₂ Unit) := by
  induction d with
  | nil => exact follows_pure ()
  | text s rest ih => exact (follows_write h.write s).bind fun _ => ih h
  | echo es rest ih =>
    have hecho : C.rendering.Follows (echo es : Render ω₁ Unit) (echo es : Render ω₂ Unit) :=
      (follows_evaluate es (h.mono (List.subset_append_left _ _))).bind fun vs =>
        follows_writeValues h.write vs
    exact hecho.bind fun _ => ih (h.mono (List.subset_append_right _ _))
  | loop head inner rest ihi ihr =>
    have hloop := follows_loop (ihi (h.mono (List.subset_append_left _ _))) head turns
    exact hloop.bind fun _ => ihr (h.mono (List.subset_append_right _ _))

/-- Renders of a document whose functions keep the lockstep are in lockstep. -/
theorem follows_render (d : Document) (h : C.Serves d.builtins) (turns : Nat) :
    (C.ofErrors Halt.ofContext).Follows (d.render turns : EStateM Halt (Context ω₁) Unit)
      (d.render turns) where
  along c₁ c₂ hc := by
    rw [Document.render_eq, Document.render_eq]
    have halong := (follows_run d h turns).along ⟨Bindings.empty, c₁⟩ ⟨Bindings.empty, c₂⟩
      ⟨rfl, hc⟩
    exact halong.map (fun _ _ _ _ => rfl) (fun _ _ hr => hr.2) fun _ _ _ hr => hr
  stays c₁ e c₂ hc := by
    rw [Document.render_eq, endState_mapResult]
    exact (follows_run d h turns).stays ⟨Bindings.empty, c₁⟩ e ⟨Bindings.empty, c₂⟩ hc

/-! ## Contexts with the same parameters -/

/-- Apart from the media type, functions work on the parameters, which are the same on both
sides, and on the stack. -/
theorem follows_builtin_ofPages {f : Builtin} (hf : f ≠ .setMimeType) :
    P.ofPages.evaluation.Follows (f.run : Eval ω₁ Unit) (f.run : Eval ω₂ Unit) := by
  by_cases hctx : f.usesContext = false
  · exact follows_of_not_usesContext hctx
  have hparams : ∀ c₁ c₂, P.ofPages.related c₁ c₂ → c₁.parameters = c₂.parameters :=
    fun _ _ h => h.1
  cases f with
  | getRequest =>
    have hfind : ∀ c₁ c₂, P.ofPages.related c₁ c₂ → c₁.request? = c₂.request? := by
      intro c₁ c₂ h
      unfold Context.request?
      rw [hparams c₁ c₂ h]
    exact follows_getWith _ hfind
  | getStored s =>
    have hfind : ∀ c₁ c₂, P.ofPages.related c₁ c₂ → c₁.get? s = c₂.get? s := by
      intro c₁ c₂ h
      unfold Context.get?
      rw [hparams c₁ c₂ h]
    exact follows_getWith _ hfind
  | setStored s =>
    refine (follows_popTwo _).bind fun ⟨key, value⟩ => ?_
    refine follows_change (fun c₁ c₂ h => ⟨?_, h.2⟩) fun _ _ _ h => h
    unfold Context.set
    rw [hparams c₁ c₂ h]
  | deleteStored s =>
    refine (follows_pop _).bind fun key => ?_
    refine follows_change (fun c₁ c₂ h => ⟨?_, h.2⟩) fun _ _ _ h => h
    unfold Context.delete
    rw [hparams c₁ c₂ h]
  | setMimeType => exact absurd rfl hf
  | _ => exact absurd rfl hctx

/-- If the pages answer alike, every document renders in lockstep. -/
theorem serves_ofPages (hwrite : ∀ s, P.Follows (Page.write s) (Page.write s))
    (hmime : ∀ s, P.Follows (Page.setMimeType s) (Page.setMimeType s)) (fs : List Builtin) :
    P.ofPages.Serves fs := by
  refine ⟨fun s => follows_onPage (hwrite s), fun f _ => ?_⟩
  by_cases hf : f = .setMimeType
  · subst hf
    exact follows_setMimeType fun s => follows_onPage (hmime s)
  · exact follows_builtin_ofPages hf

/-- Pages that take text alike are enough for a document that does not set the media type. -/
theorem serves_ofPages_of_not_mem (hwrite : ∀ s, P.Follows (Page.write s) (Page.write s))
    {fs : List Builtin} (hfs : .setMimeType ∉ fs) : P.ofPages.Serves fs :=
  ⟨fun s => follows_onPage (hwrite s),
    fun _ hf => follows_builtin_ofPages fun he => hfs (he ▸ hf)⟩

end Lockstep
end PageTemplate
