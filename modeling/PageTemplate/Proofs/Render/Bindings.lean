import PageTemplate.Proofs.Render.Result
import PageTemplate.Render.Document

/-! Renders and their bindings. A run leaves the bindings as it found them, however it ends: a
loop changes no cell but its own and drops that one at its end. -/
namespace PageTemplate.Render

variable {ω α β : Type}

/-- How a computation leaves the rendering. -/
def final (m : Render ω α) (r : Rendering ω) : Rendering ω :=
  match m r with
  | .ok _ r' => r'
  | .error _ r' => r'

/-- A property of the bindings that holds after a computation if it held before. -/
def Preserves (P : Bindings → Prop) (m : Render ω α) : Prop :=
  ∀ r, P r.bindings → P (m.final r).bindings

/-- A computation that leaves the bindings as they were. -/
def Keeps (m : Render ω α) : Prop := ∀ r, (m.final r).bindings = r.bindings

theorem Keeps.preserves {m : Render ω α} (h : m.Keeps) (P : Bindings → Prop) :
    m.Preserves P := by
  intro r hr
  rwa [h r]

theorem keeps_of_preserves {m : Render ω α} (h : ∀ b, m.Preserves (· = b)) : m.Keeps :=
  fun r => h r.bindings r rfl

theorem final_of_ok {m : Render ω α} {r r' : Rendering ω} {a : α} (h : m r = .ok a r') :
    m.final r = r' := by
  rw [final, h]

theorem final_of_error {m : Render ω α} {r r' : Rendering ω} {e : Halt}
    (h : m r = .error e r') : m.final r = r' := by
  rw [final, h]

theorem Keeps.bindings_of_ok {m : Render ω α} {a : α} {r r' : Rendering ω}
    (h : m.Keeps) (hm : m r = .ok a r') : r'.bindings = r.bindings := by
  have hkeeps := h r
  rwa [final_of_ok hm] at hkeeps

theorem Preserves.bind {P : Bindings → Prop} {m : Render ω α} {f : α → Render ω β}
    (hm : m.Preserves P) (hf : ∀ a, (f a).Preserves P) : (m >>= f).Preserves P := by
  intro r hr
  have hm := hm r hr
  cases h : m r with
  | ok a r' =>
    rw [final_of_ok h] at hm
    have hbind : (m >>= f).final r = (f a).final r' := by rw [final, bind_of_ok h, ← final]
    rw [hbind]
    exact hf a r' hm
  | error e r' =>
    rw [final_of_error h] at hm
    rwa [final_of_error (bind_of_error h f)]

theorem Keeps.bind {m : Render ω α} {f : α → Render ω β} (hm : m.Keeps)
    (hf : ∀ a, (f a).Keeps) : (m >>= f).Keeps :=
  keeps_of_preserves fun _ => (hm.preserves _).bind fun a => (hf a).preserves _

theorem keeps_pure (a : α) : (pure a : Render ω α).Keeps := fun _ => rfl

theorem keeps_throw (e : Halt) : (throw e : Render ω α).Keeps := fun _ => rfl

theorem keeps_onBindings {ε : Type} (wrap : ε → RenderError) (f : Bindings → Except ε α) :
    (onBindings wrap f : Render ω α).Keeps := by
  intro r
  unfold final onBindings
  cases f r.bindings <;> rfl

theorem ok_onBindings {ε : Type} {wrap : ε → RenderError} {f : Bindings → Except ε α} {a : α}
    {r r' : Rendering ω} (h : onBindings wrap f r = .ok a r') :
    f r.bindings = .ok a ∧ r' = r := by
  cases hf : f r.bindings with
  | ok b =>
    simp only [onBindings, hf] at h
    cases h
    exact ⟨rfl, rfl⟩
  | error e =>
    simp only [onBindings, hf] at h
    cases h

theorem onBindings_of_ok {ε : Type} {wrap : ε → RenderError} {f : Bindings → Except ε α} {a : α}
    {r : Rendering ω} (h : f r.bindings = .ok a) : onBindings wrap f r = .ok a r := by
  simp only [onBindings, h]

theorem onBindings_of_error {ε : Type} {wrap : ε → RenderError} {f : Bindings → Except ε α}
    {e : ε} {r : Rendering ω} (h : f r.bindings = .error e) :
    onBindings wrap f r = .error (.failed (wrap e)) r := by
  simp only [onBindings, h]

theorem error_onBindings {ε : Type} {wrap : ε → RenderError} {f : Bindings → Except ε α}
    {err : Halt} {r r' : Rendering ω} (h : onBindings wrap f r = .error err r') :
    ∃ e, f r.bindings = .error e ∧ err = .failed (wrap e) ∧ r' = r := by
  cases hf : f r.bindings with
  | ok b =>
    simp only [onBindings, hf] at h
    cases h
  | error e =>
    simp only [onBindings, hf] at h
    cases h
    exact ⟨e, rfl, rfl, rfl⟩

section Pages

variable [Page ω]

theorem keeps_write (s : Text) : (write s : Render ω Unit).Keeps := by
  rintro ⟨bindings, context⟩
  cases h : context.write s <;> simp [final, write, h]

theorem keeps_writeValues (vs : List Value) : (writeValues vs : Render ω Unit).Keeps := by
  induction vs with
  | nil => exact keeps_pure ()
  | cons v vs ih => exact (keeps_write v.text).bind fun _ => ih

theorem keeps_evaluate (es : List Element) : (evaluate es : Render ω (List Value)).Keeps := by
  rintro ⟨bindings, context⟩
  cases h : evalAll bindings es ⟨[], context⟩ <;> simp [final, evaluate, h]

theorem keeps_echo (es : List Element) : (echo es : Render ω Unit).Keeps :=
  (keeps_evaluate es).bind keeps_writeValues

end Pages

/-! ## Loops -/

/-- The bindings of a loop on top of others, whatever its cell is. -/
def InLoop (b : Bindings) (name : Text) (b' : Bindings) : Prop := ∃ c, b' = b.push name c

theorem final_withBinding (name : Text) (c : Cell) (m : Render ω α) (r : Rendering ω) :
    ((withBinding name c m).final r).bindings =
      (m.final ⟨r.bindings.push name c, r.context⟩).bindings.pop name := by
  cases h : m ⟨r.bindings.push name c, r.context⟩ <;> simp [final, withBinding, h]

theorem keeps_withBinding {name : Text} {m : Render ω α} (h : ∀ b, m.Preserves (InLoop b name))
    (c : Cell) : (withBinding name c m).Keeps := by
  intro r
  obtain ⟨d, hd⟩ := h r.bindings ⟨r.bindings.push name c, r.context⟩ ⟨c, rfl⟩
  rw [final_withBinding, hd, Bindings.pop_push]

theorem keeps_binding (name : Text) : (binding name : Render ω Cell).Keeps :=
  keeps_onBindings _ _

theorem preserves_advance (b : Bindings) (name : Text) (step : Value) :
    (advance name step : Render ω Unit).Preserves (InLoop b name) := by
  refine ((keeps_binding name).preserves _).bind fun c => ?_
  refine ((keeps_onBindings _ _).preserves _).bind fun d => ?_
  rintro r ⟨e, he⟩
  refine ⟨d, ?_⟩
  change r.bindings.replace name d = _
  rw [he, Bindings.replace_push]

theorem preserves_iterate {name : Text} {body : Render ω Unit} (hbody : body.Keeps)
    (b : Bindings) (stop step : Value) (turns : Nat) :
    (iterate name stop step body turns).Preserves (InLoop b name) := by
  induction turns with
  | zero => exact (keeps_throw _).preserves _
  | succ turns ih =>
    refine ((keeps_binding name).preserves _).bind fun c => ?_
    refine ((keeps_onBindings _ _).preserves _).bind fun order => ?_
    have hturn : (do body; advance name step; iterate name stop step body turns).Preserves
        (InLoop b name) :=
      (hbody.preserves _).bind fun _ => (preserves_advance b name step).bind fun _ => ih
    cases order with
    | lt => exact hturn
    | eq => exact hturn
    | gt => exact (keeps_pure ()).preserves _

theorem keeps_loop {body : Render ω Unit} (hbody : body.Keeps) (h : LoopHead) (turns : Nat) :
    (loop h body turns).Keeps := by
  refine (keeps_onBindings _ _).bind fun start => ?_
  refine (keeps_onBindings _ _).bind fun stop => ?_
  have hrest : ∀ step, (do
      let c ← onBindings .value fun _ => Cell.ofValue (some start)
      withBinding h.name c (iterate h.name stop step body turns) : Render ω Unit).Keeps :=
    fun step => (keeps_onBindings _ _).bind fun c =>
      keeps_withBinding (fun b => preserves_iterate hbody b stop step turns) c
  cases h.step with
  | none => exact hrest (.int 1)
  | some o => exact (keeps_onBindings _ _).bind hrest

theorem keeps_run [Page ω] (d : Document) (turns : Nat) : (d.run turns : Render ω Unit).Keeps := by
  induction d with
  | nil => exact keeps_pure ()
  | text s rest ih => exact (keeps_write s).bind fun _ => ih
  | echo es rest ih => exact (keeps_echo es).bind fun _ => ih
  | loop h inner rest ihi ihr => exact (keeps_loop ihi h turns).bind fun _ => ihr

end PageTemplate.Render
