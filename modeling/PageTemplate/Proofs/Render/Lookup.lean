import PageTemplate.Proofs.Render.Bindings

/-! Where an unbound variable is reported. No operator and no function looks a variable up, so
an echo that fails for want of one has got as far as a reference to it. -/
namespace PageTemplate

variable {ω α β : Type}

/-! ## Evaluations -/

namespace Eval

/-- A computation that never reports an unbound variable. -/
def NoLookup (m : Eval ω α) : Prop := ∀ name s s', m s ≠ .error (.unboundVariable name) s'

theorem NoLookup.bind {m : Eval ω α} {f : α → Eval ω β} (hm : m.NoLookup)
    (hf : ∀ a, (f a).NoLookup) : (m >>= f).NoLookup := by
  intro name s s' h
  rcases error_of_bind h with h | ⟨a, s₁, -, h⟩
  · exact hm name s s' h
  · exact hf a name s₁ s' h

theorem noLookup_pure (a : α) : (pure a : Eval ω α).NoLookup := by
  intro name s s' h
  cases h

theorem noLookup_push (v : Value) : (push v : Eval ω Unit).NoLookup := by
  intro name s s' h
  cases h

theorem noLookup_modify (f : Evaluation ω → Evaluation ω) :
    (modify f : Eval ω Unit).NoLookup := by
  intro name s s' h
  cases h

theorem noLookup_get : (get : Eval ω (Evaluation ω)).NoLookup := by
  intro name s s' h
  cases h

theorem noLookup_popArgs (function : Text) (n : Nat) :
    (popArgs function n : Eval ω (Vector Value n)).NoLookup := by
  intro name s s' h
  unfold popArgs at h
  split at h <;> cases h

theorem noLookup_pop (function : Text) : (pop function : Eval ω Value).NoLookup :=
  (noLookup_popArgs function 1).bind fun _ => noLookup_pure _

theorem noLookup_popTwo (function : Text) :
    (popTwo function : Eval ω (Value × Value)).NoLookup :=
  (noLookup_popArgs function 2).bind fun _ => noLookup_pure _

theorem noLookup_peek (function : Text) : (peek function : Eval ω Value).NoLookup := by
  intro name s s' h
  unfold peek at h
  split at h <;> cases h

theorem noLookup_ofExcept {ε : Type} {wrap : ε → RenderError}
    (hwrap : ∀ e name, wrap e ≠ .unboundVariable name) (r : Except ε α) :
    (ofExcept wrap r : Eval ω α).NoLookup := by
  intro name s s' h
  cases r with
  | ok a => cases h
  | error e =>
    change EStateM.Result.error (wrap e) s = _ at h
    injection h with h
    exact hwrap e name h

theorem noLookup_onContext (m : EStateM ContextError (Context ω) α) :
    (onContext m : Eval ω α).NoLookup := by
  intro name s s' h
  unfold onContext at h
  split at h
  split at h <;> cases h

end Eval

theorem Operator.noLookup_run (o : Operator) : (o.run : Eval ω Unit).NoLookup := by
  unfold run
  split
  · intro name s s' h
    cases h
  · refine (Eval.noLookup_popTwo _).bind fun _ => ?_
    refine (Eval.noLookup_ofExcept (by simp) _).bind fun _ => ?_
    exact (Eval.noLookup_ofExcept (by simp) _).bind fun _ => Eval.noLookup_push _

theorem Builtin.noLookup_getWith (f : Builtin)
    (find : Context ω → Text → Option Text) : (f.getWith find : Eval ω Unit).NoLookup :=
  (Eval.noLookup_popTwo _).bind fun _ => Eval.noLookup_get.bind fun _ => Eval.noLookup_push _

theorem Builtin.noLookup_run [Page ω] (f : Builtin) : (f.run : Eval ω Unit).NoLookup := by
  cases f with
  | sin =>
    refine (Eval.noLookup_pop _).bind fun _ => ?_
    exact (Eval.noLookup_ofExcept (by simp) _).bind fun _ => Eval.noLookup_push _
  | decfmt =>
    refine (Eval.noLookup_popTwo _).bind fun _ => ?_
    refine (Eval.noLookup_ofExcept (by simp) _).bind fun _ => ?_
    exact (Eval.noLookup_ofExcept (by simp) _).bind fun _ => Eval.noLookup_push _
  | dup => exact (Eval.noLookup_peek _).bind fun _ => Eval.noLookup_push _
  | swap =>
    refine (Eval.noLookup_popTwo _).bind fun _ => ?_
    exact (Eval.noLookup_push _).bind fun _ => Eval.noLookup_push _
  | setMimeType =>
    refine (Eval.noLookup_pop _).bind fun a => ?_
    have hset : (Eval.onContext (Context.setMimeType (unquoteMime a.text)) :
        Eval ω Unit).NoLookup := Eval.noLookup_onContext _
    by_cases h : unquoteMime a.text ≠ []
    · simpa [h] using hset
    · simpa [h] using Eval.noLookup_pure ()
  | getRequest => exact noLookup_getWith _ _
  | getStored s => exact noLookup_getWith (.getStored s) fun c => c.get? s
  | setStored s => exact (Eval.noLookup_popTwo _).bind fun _ => Eval.noLookup_modify _
  | deleteStored s => exact (Eval.noLookup_pop _).bind fun _ => Eval.noLookup_modify _

/-- An operand that is not bound is a variable without a binding. -/
theorem Operand.unbound_of_value? {b : Bindings} {o : Operand} {name : Text}
    (h : o.value? b = .error (.unboundVariable name)) : o = .var name ∧ b.peek name = none := by
  cases o with
  | const v => cases h
  | var other =>
    unfold value? at h
    simp only at h
    cases hp : b.peek other with
    | some c =>
      rw [hp] at h
      cases h
    | none =>
      rw [hp] at h
      cases h
      exact ⟨rfl, hp⟩

theorem Operand.value?_of_unbound {b : Bindings} {name : Text} (h : b.peek name = none) :
    (Operand.var name).value? b = .error (.unboundVariable name) := by
  simp only [value?, h]

theorem Element.noLookup_fn [Page ω] (b : Bindings) (f : Text) :
    ((Element.fn f).eval b : Eval ω Unit).NoLookup := by
  cases hf : Builtin.ofName? f with
  | some g =>
    have heval : ((Element.fn f).eval b : Eval ω Unit) = g.run := by simp [eval, hf]
    rw [heval]
    exact Builtin.noLookup_run g
  | none =>
    have heval : ((Element.fn f).eval b : Eval ω Unit) = throw (.unknownFunction f) := by
      simp [eval, hf]
    rw [heval]
    intro name s s' h
    cases h

/-- An element that reports an unbound variable is a reference to it. -/
theorem Element.unbound_of_eval [Page ω] {b : Bindings} {e : Element} {name : Text}
    {s s' : Evaluation ω} (h : e.eval b s = .error (.unboundVariable name) s') :
    e = .operand (.var name) ∧ b.peek name = none := by
  cases e with
  | operand o =>
    rcases error_of_bind h with h | ⟨v, s₁, -, h⟩
    · cases hv : o.value? b with
      | ok v =>
        rw [hv] at h
        cases h
      | error err =>
        rw [hv] at h
        cases h
        obtain ⟨rfl, hnone⟩ := Operand.unbound_of_value? hv
        exact ⟨rfl, hnone⟩
    · cases h
  | op o => exact absurd h (Operator.noLookup_run o name s s')
  | fn f => exact absurd h (Element.noLookup_fn b f name s s')

theorem evalAll_append [Page ω] {b : Bindings} {before : List Element} {s s₁ : Evaluation ω}
    (h : evalAll b before s = .ok () s₁) (es : List Element) :
    evalAll b (before ++ es) s = evalAll b es s₁ := by
  induction before generalizing s with
  | nil =>
    cases h
    rfl
  | cons e before ih =>
    obtain ⟨⟨⟩, s₂, he, hrest⟩ := ok_of_bind h
    exact (bind_of_ok he _).trans (ih hrest)

/-- An evaluation fails as the first of its elements does that fails. -/
theorem evalAll_eq_error_iff [Page ω] {b : Bindings} {es : List Element} {err : RenderError}
    {s s' : Evaluation ω} :
    evalAll b es s = .error err s' ↔
      ∃ before e after s₁, es = before ++ e :: after ∧ evalAll b before s = .ok () s₁ ∧
        e.eval b s₁ = .error err s' := by
  constructor
  · intro h
    induction es generalizing s with
    | nil => cases h
    | cons e es ih =>
      rcases error_of_bind h with he | ⟨u, s₁, he, hrest⟩
      · exact ⟨[], e, es, s, rfl, rfl, he⟩
      · obtain ⟨before, e', after, s₂, rfl, hbefore, he'⟩ := ih hrest
        exact ⟨e :: before, e', after, s₂, rfl, (bind_of_ok he _).trans hbefore, he'⟩
  · rintro ⟨before, e, after, s₁, rfl, hbefore, he⟩
    rw [evalAll_append hbefore]
    exact bind_of_error he _

/-- Elements that report an unbound variable have been evaluated up to a reference to it. -/
theorem unbound_of_evalAll [Page ω] {b : Bindings} {es : List Element} {name : Text}
    {s s' : Evaluation ω} (h : evalAll b es s = .error (.unboundVariable name) s') :
    ∃ before after s₁, es = before ++ .operand (.var name) :: after ∧
      evalAll b before s = .ok () s₁ ∧ b.peek name = none := by
  obtain ⟨before, e, after, s₁, rfl, hbefore, he⟩ := evalAll_eq_error_iff.1 h
  obtain ⟨rfl, hnone⟩ := Element.unbound_of_eval he
  exact ⟨before, after, s₁, rfl, hbefore, hnone⟩

/-! ## Echoes -/

namespace Render

variable [Page ω]

theorem write_ne_unbound (s name : Text) (r r' : Rendering ω) :
    write s r ≠ .error (.failed (.unboundVariable name)) r' := by
  obtain ⟨bindings, context⟩ := r
  cases h : context.write s <;> simp [write, h]

theorem writeValues_ne_unbound (vs : List Value) (name : Text) (r r' : Rendering ω) :
    writeValues vs r ≠ .error (.failed (.unboundVariable name)) r' := by
  induction vs generalizing r with
  | nil =>
    intro h
    cases h
  | cons v vs ih =>
    intro h
    rcases error_of_bind h with h | ⟨a, r₁, -, h⟩
    · exact write_ne_unbound v.text name r r' h
    · exact ih r₁ h

/-- An echo that reports an unbound variable has come to a reference to it. -/
theorem unbound_of_echo {es : List Element} {name : Text} {r r' : Rendering ω}
    (h : echo es r = .error (.failed (.unboundVariable name)) r') :
    ∃ before after s, es = before ++ .operand (.var name) :: after ∧
      evalAll r.bindings before ⟨[], r.context⟩ = .ok () s ∧ r.bindings.peek name = none := by
  obtain ⟨bindings, context⟩ := r
  rcases error_of_bind h with h | ⟨vs, r₁, -, h⟩
  · cases heval : evalAll bindings es ⟨[], context⟩ with
    | ok a s =>
      simp only [evaluate, heval] at h
      cases h
    | error e s =>
      simp only [evaluate, heval] at h
      cases h
      exact unbound_of_evalAll heval
  · exact absurd h (writeValues_ne_unbound vs name r₁ r')

/-- An echo that comes to a reference without a binding reports it. -/
theorem echo_of_unbound {before after : List Element} {name : Text} {r : Rendering ω}
    {s : Evaluation ω} (h : evalAll r.bindings before ⟨[], r.context⟩ = .ok () s)
    (hnone : r.bindings.peek name = none) :
    ∃ r', echo (before ++ .operand (.var name) :: after) r =
      .error (.failed (.unboundVariable name)) r' := by
  obtain ⟨bindings, context⟩ := r
  have helement : (Element.operand (.var name)).eval bindings s =
      .error (.unboundVariable name) s := by
    apply bind_of_error
    rw [Operand.value?_of_unbound hnone]
    rfl
  have heval : evalAll bindings (before ++ .operand (.var name) :: after) ⟨[], context⟩ =
      .error (.unboundVariable name) s := by
    rw [evalAll_append h]
    exact bind_of_error helement _
  refine ⟨⟨bindings, s.context⟩, bind_of_error ?_ _⟩
  simp only [evaluate, heval]

end Render
end PageTemplate
