import PageTemplate.Proofs.Render.Lockstep

/-! What elements take off the operand stack and put back. An element works on its own operands
and on the context: what lies beneath the operands makes no difference to it and is left there.
An element that fails has taken its operands, unless there are too few or it always fails. -/
namespace PageTemplate

/-- How many operands are taken off the stack, and how many are put back. -/
structure Arity where
  takes : Nat
  gives : Nat
deriving DecidableEq

def Arity.effect (a : Arity) : Int := a.gives - a.takes

def Builtin.arity : Builtin → Arity
  | .sin => ⟨1, 1⟩
  | .decfmt => ⟨2, 1⟩
  | .dup => ⟨1, 2⟩
  | .swap => ⟨2, 2⟩
  | .setMimeType => ⟨1, 0⟩
  | .getRequest => ⟨2, 1⟩
  | .getStored _ => ⟨2, 1⟩
  | .setStored _ => ⟨2, 0⟩
  | .deleteStored _ => ⟨1, 0⟩

/-- A power and an unknown function have no arity: they always fail. -/
def Element.arity? : Element → Option Arity
  | .operand _ => some ⟨0, 1⟩
  | .op o => if o = .pow then none else some ⟨2, 1⟩
  | .fn name => (Builtin.ofName? name).map Builtin.arity

/-- The name under which an element reports missing operands. -/
def Element.label : Element → Text
  | .operand o => o.source
  | .fn name => name
  | .op o => o.symbol

def RenderError.isUnderflow : RenderError → Bool
  | .tooFewOperands _ _ _ => true
  | _ => false

variable {ω : Type}

/-! ## Steps with an arity -/

namespace Eval

/-- A result with more operands beneath those that are left. -/
def above (rest : List Value) (x : EStateM.Result RenderError (Evaluation ω) Unit) :
    EStateM.Result RenderError (Evaluation ω) Unit :=
  mapResult (fun a _ => a) id (fun s => ⟨s.stack ++ rest, s.context⟩) x

theorem above_above (p q : List Value) (x : EStateM.Result RenderError (Evaluation ω) Unit) :
    above q (above p x) = above (p ++ q) x := by
  cases x <;> simp [above, mapResult]

variable [Page ω]

/-- What a step may ask of the page: nothing, or one media type. -/
inductive Asks (page : ω) : ω → Prop
  | nothing : Asks page page
  | mimeType (t : Text) : Asks page (endState (Page.setMimeType t page))

/-- How a step ends that began with nothing but its own operands on the stack. -/
inductive Ends (gives : Nat) (c : Context ω) : EStateM.Result RenderError (Evaluation ω) Unit → Prop
  | ok {stack : List Value} {c' : Context ω} (h : stack.length = gives)
      (hpage : Asks c.page c'.page) : Ends gives c (.ok () ⟨stack, c'⟩)
  | failed {e : RenderError} (h : e.isUnderflow = false) : Ends gives c (.error e ⟨[], c⟩)
  | refused {t : Text} {e : ContextError} {c' : Context ω}
      (h : Context.setMimeType t c = .error e c') : Ends gives c (.error (.context e) ⟨[], c'⟩)

/-- A step of the given arity. -/
structure Uses (a : Arity) (label : Text) (m : Eval ω Unit) : Prop where
  short : ∀ s, s.stack.length < a.takes → m s = underflow label a.takes s
  frame : ∀ args rest c, args.length = a.takes → m ⟨args ++ rest, c⟩ = above rest (m ⟨args, c⟩)
  ends : ∀ args c, args.length = a.takes → Ends a.gives c (m ⟨args, c⟩)

/-! ## Steps without operands -/

variable {n : Nat} {label : Text}

theorem uses_of_ok {m : Eval ω Unit} (values : Context ω → List Value)
    (next : Context ω → Context ω)
    (h : ∀ stack c, m ⟨stack, c⟩ = .ok () ⟨values c ++ stack, next c⟩)
    (hvalues : ∀ c, (values c).length = n) (hpage : ∀ c, (next c).page = c.page) :
    Uses ⟨0, n⟩ label m where
  short s hs := absurd hs (Nat.not_lt_zero _)
  frame args rest c hargs := by
    obtain rfl := List.length_eq_zero_iff.1 hargs
    rw [h, h]
    simp [above, mapResult]
  ends args c hargs := by
    obtain rfl := List.length_eq_zero_iff.1 hargs
    rw [h]
    refine .ok (by simp [hvalues]) ?_
    rw [hpage]
    exact .nothing

theorem uses_push (v : Value) : Uses ⟨0, 1⟩ label (push v : Eval ω Unit) :=
  uses_of_ok (fun _ => [v]) id (fun _ _ => rfl) (fun _ => rfl) fun _ => rfl

theorem uses_throw {e : RenderError} (h : e.isUnderflow = false) :
    Uses ⟨0, n⟩ label (throw e : Eval ω Unit) where
  short s hs := absurd hs (Nat.not_lt_zero _)
  frame args rest c _ := rfl
  ends args c hargs := by
    obtain rfl := List.length_eq_zero_iff.1 hargs
    exact .failed h

theorem uses_ofExcept_bind {ε α : Type} {wrap : ε → RenderError} {r : Except ε α}
    {f : α → Eval ω Unit} (hr : ∀ e, r = .error e → (wrap e).isUnderflow = false)
    (hf : ∀ a, Uses ⟨0, n⟩ label (f a)) : Uses ⟨0, n⟩ label (ofExcept wrap r >>= f) := by
  cases r with
  | ok a => exact hf a
  | error e => exact uses_throw (hr e rfl)

theorem uses_onContext (t : Text) :
    Uses ⟨0, 0⟩ label (onContext (Context.setMimeType t) : Eval ω Unit) where
  short s hs := absurd hs (Nat.not_lt_zero _)
  frame args rest c _ := by
    rw [onContext_eq, onContext_eq]
    cases Context.setMimeType t c <;> rfl
  ends args c hargs := by
    obtain rfl := List.length_eq_zero_iff.1 hargs
    rw [onContext_eq]
    cases h : Context.setMimeType t c with
    | ok u c' =>
      refine .ok rfl ?_
      have hend : c' = endState (Context.setMimeType t c) := by rw [h]; rfl
      rw [hend, Context.setMimeType, Context.onPage_eq, endState_mapResult]
      exact .mimeType t
    | error e c' => exact .refused h

/-! ## Steps that take operands -/

theorem uses_pop_bind {f : Value → Eval ω Unit} (h : ∀ a, Uses ⟨0, n⟩ label (f a)) :
    Uses ⟨1, n⟩ label (pop label >>= f) where
  short s hs := by
    obtain ⟨stack, c⟩ := s
    obtain rfl := List.length_eq_zero_iff.1 (Nat.lt_one_iff.1 hs)
    rfl
  frame args rest c hargs := by
    obtain ⟨a, rfl⟩ := List.length_eq_one_iff.1 hargs
    exact (h a).frame [] rest c rfl
  ends args c hargs := by
    obtain ⟨a, rfl⟩ := List.length_eq_one_iff.1 hargs
    exact (h a).ends [] c rfl

theorem uses_popTwo_bind {f : Value × Value → Eval ω Unit} (h : ∀ ab, Uses ⟨0, n⟩ label (f ab)) :
    Uses ⟨2, n⟩ label (popTwo label >>= f) where
  short s hs := by
    obtain ⟨stack, c⟩ := s
    match stack, hs with
    | [], _ => rfl
    | [_], _ => rfl
  frame args rest c hargs := by
    match args, hargs with
    | [b, a], _ => exact (h (a, b)).frame [] rest c rfl
  ends args c hargs := by
    match args, hargs with
    | [b, a], _ => exact (h (a, b)).ends [] c rfl

theorem uses_peek_push : Uses ⟨1, 2⟩ label (peek label >>= push : Eval ω Unit) where
  short s hs := by
    obtain ⟨stack, c⟩ := s
    obtain rfl := List.length_eq_zero_iff.1 (Nat.lt_one_iff.1 hs)
    rfl
  frame args rest c hargs := by
    obtain ⟨a, rfl⟩ := List.length_eq_one_iff.1 hargs
    rfl
  ends args c hargs := by
    obtain ⟨a, rfl⟩ := List.length_eq_one_iff.1 hargs
    exact .ok rfl .nothing

/-! ## Runs of a step -/

namespace Uses

variable {a : Arity} {m : Eval ω Unit} {s s' : Evaluation ω}

/-- With enough operands a step runs on them alone, above the others. -/
theorem run_eq (h : Uses a label m) (hs : a.takes ≤ s.stack.length) :
    m s = above (s.stack.drop a.takes) (m ⟨s.stack.take a.takes, s.context⟩) := by
  rw [← h.frame _ _ _ (List.length_take_of_le hs), List.take_append_drop]

theorem of_ok (h : Uses a label m) (hm : m s = .ok () s') :
    a.takes ≤ s.stack.length ∧ s'.stack.length + a.takes = s.stack.length + a.gives ∧
      Asks s.context.page s'.context.page := by
  rcases Nat.lt_or_ge s.stack.length a.takes with hs | hs
  · rw [h.short s hs] at hm
    cases hm
  · rw [h.run_eq hs] at hm
    have hends := h.ends _ s.context (List.length_take_of_le hs)
    generalize m ⟨s.stack.take a.takes, s.context⟩ = x at hm hends
    cases hends with
    | ok hgives hpage =>
      cases hm
      refine ⟨hs, ?_, hpage⟩
      simp only [List.length_append, List.length_drop]
      omega
    | failed => cases hm
    | refused => cases hm

theorem of_error {e : RenderError} (h : Uses a label m) (hm : m s = .error e s') :
    (s.stack.length < a.takes ∧ e = .tooFewOperands label a.takes s.stack.length ∧ s' = s) ∨
      (a.takes ≤ s.stack.length ∧ e.isUnderflow = false ∧ s'.stack = s.stack.drop a.takes ∧
        (s'.context = s.context ∨
          ∃ t err, Context.setMimeType t s.context = .error err s'.context)) := by
  rcases Nat.lt_or_ge s.stack.length a.takes with hs | hs
  · rw [h.short s hs] at hm
    cases hm
    exact .inl ⟨hs, rfl, rfl⟩
  · rw [h.run_eq hs] at hm
    have hends := h.ends _ s.context (List.length_take_of_le hs)
    generalize m ⟨s.stack.take a.takes, s.context⟩ = x at hm hends
    cases hends with
    | ok => cases hm
    | failed he =>
      cases hm
      exact .inr ⟨hs, he, rfl, .inl rfl⟩
    | refused hrefused =>
      cases hm
      exact .inr ⟨hs, rfl, rfl, .inr ⟨_, _, hrefused⟩⟩

end Uses

end Eval

/-! ## Operators, functions and elements -/

open Eval

variable [Page ω]

theorem Operator.uses_run {o : Operator} (h : o ≠ .pow) :
    Uses ⟨2, 1⟩ o.symbol (o.run : Eval ω Unit) := by
  unfold run
  cases hf : o.cellFunction? with
  | none =>
    cases o with
    | pow => exact absurd rfl h
    | _ => cases hf
  | some f =>
    refine uses_popTwo_bind fun ab => ?_
    refine uses_ofExcept_bind (fun _ _ => rfl) fun c => ?_
    exact uses_ofExcept_bind (fun _ _ => rfl) fun d => uses_push _

theorem Builtin.uses_getWith (f : Builtin) (find : Context ω → Text → Option Text) :
    Uses ⟨2, 1⟩ f.name (f.getWith find : Eval ω Unit) := by
  refine uses_popTwo_bind fun ⟨key, default⟩ => ?_
  exact uses_of_ok (fun c => [(find c key.text).elim default .str]) id (fun _ _ => rfl)
    (fun _ => rfl) fun _ => rfl

theorem Builtin.uses_change {label : Text} {f : Context ω → Context ω}
    (h : ∀ c, (f c).page = c.page) : Uses ⟨0, 0⟩ label (change f : Eval ω Unit) :=
  uses_of_ok (fun _ => []) f (fun _ _ => rfl) (fun _ => rfl) h

theorem Builtin.uses_run (f : Builtin) : Uses f.arity f.name (f.run : Eval ω Unit) := by
  cases f with
  | sin =>
    refine uses_pop_bind fun a => ?_
    exact uses_ofExcept_bind (fun _ _ => rfl) fun x => uses_push _
  | decfmt =>
    refine uses_popTwo_bind fun ⟨number, pattern⟩ => ?_
    refine uses_ofExcept_bind (fun _ _ => rfl) fun x => ?_
    exact uses_ofExcept_bind (fun _ _ => rfl) fun p => uses_push _
  | dup => exact uses_peek_push
  | swap =>
    refine uses_popTwo_bind fun ⟨a, b⟩ => ?_
    exact uses_of_ok (fun _ => [a, b]) id (fun _ _ => rfl) (fun _ => rfl) fun _ => rfl
  | setMimeType =>
    refine uses_pop_bind fun a => ?_
    by_cases h : unquoteMime a.text ≠ []
    · simp only [if_pos h]
      exact uses_onContext _
    · simp only [if_neg h]
      exact uses_of_ok (fun _ => []) id (fun _ _ => rfl) (fun _ => rfl) fun _ => rfl
  | getRequest => exact uses_getWith _ _
  | getStored s => exact uses_getWith (.getStored s) fun c => c.get? s
  | setStored s => exact uses_popTwo_bind fun _ => uses_change fun _ => rfl
  | deleteStored s => exact uses_pop_bind fun _ => uses_change fun _ => rfl

namespace Element

/-- An element with an arity is a step of that arity. -/
theorem uses_eval {e : Element} {a : Arity} (h : e.arity? = some a) (b : Bindings) :
    Uses a e.label (e.eval b : Eval ω Unit) := by
  cases e with
  | operand o =>
    cases h
    refine uses_ofExcept_bind (fun err herr => ?_) fun v => uses_push v
    cases o with
    | const v => cases herr
    | var name =>
      unfold Operand.value? at herr
      dsimp only at herr
      split at herr <;> cases herr
      rfl
  | op o =>
    by_cases ho : o = .pow
    · simp [arity?, ho] at h
    · simp only [arity?, if_neg ho, Option.some.injEq] at h
      subst h
      exact Operator.uses_run ho
  | fn name =>
    obtain ⟨f, hf, rfl⟩ := Option.map_eq_some_iff.1 h
    have heval : ((Element.fn name).eval b : Eval ω Unit) = f.run := by simp [eval, hf]
    rw [heval, label, ← Builtin.name_of_ofName? hf]
    exact Builtin.uses_run f

variable (ω) in
/-- An element without an arity fails with an error of its own and leaves everything as it was. -/
theorem eval_of_arity?_none {e : Element} (h : e.arity? = none) (b : Bindings) :
    (e = .op .pow ∧ ∀ s : Evaluation ω, e.eval b s = .error (.unsupportedOperator .pow) s) ∨
      ∃ name, e = .fn name ∧ Builtin.ofName? name = none ∧
        ∀ s : Evaluation ω, e.eval b s = .error (.unknownFunction name) s := by
  cases e with
  | operand o => cases h
  | op o =>
    by_cases ho : o = .pow
    · subst ho
      exact .inl ⟨rfl, fun _ => rfl⟩
    · simp [arity?, ho] at h
  | fn name =>
    have hnone : Builtin.ofName? name = none := Option.map_eq_none_iff.1 h
    refine .inr ⟨name, rfl, hnone, fun s => ?_⟩
    unfold eval
    simp only [hnone]
    rfl

variable (ω) in
theorem exists_error_of_arity?_none {e : Element} (h : e.arity? = none) (b : Bindings) :
    ∃ err, ∀ s : Evaluation ω, e.eval b s = .error err s := by
  rcases eval_of_arity?_none ω h b with ⟨-, heval⟩ | ⟨name, -, -, heval⟩
  · exact ⟨_, heval⟩
  · exact ⟨_, heval⟩

end Element
end PageTemplate
