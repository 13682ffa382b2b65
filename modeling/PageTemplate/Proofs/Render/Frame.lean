import PageTemplate.Context.Capture
import PageTemplate.Proofs.Render.Arity
import PageTemplate.Response.Basic

/-! Postfix programs on top of other operands. A program that finds enough operands of its own does
the same whatever lies beneath them, so that programs can be put one after another. An element that
fails leaves the context as it was. -/
namespace PageTemplate

open Eval

/-- A page that is as it was when it has refused a media type. -/
class Page.Steady (ω : Type) [Page ω] : Prop where
  eq_of_refused : ∀ {t : Text} {page page' : ω} {e : ContextError},
    Page.setMimeType t page = .error e page' → page' = page

instance : Page.Steady Capture where
  eq_of_refused h := by cases h

instance : Page.Steady Response where
  eq_of_refused {t page page' e} h := by
    change Response.setMimeType t page = _ at h
    unfold Response.setMimeType Response.change at h
    split at h <;> cases h
    rfl

variable {ω : Type} [Page ω] {b : Bindings}

theorem Context.eq_of_refused [Page.Steady ω] {t : Text} {c c' : Context ω} {e : ContextError}
    (h : setMimeType t c = .error e c') : c' = c := by
  rw [setMimeType, onPage_eq] at h
  cases hpage : (Page.setMimeType t c.page : EStateM.Result ContextError ω Unit) with
  | ok u page =>
    rw [hpage] at h
    cases h
  | error e' page =>
    rw [hpage] at h
    cases h
    rw [Page.Steady.eq_of_refused hpage]

/-! ## Elements -/

/-- What a failing element leaves: the context as it was, and the stack too if there are too few
operands or the element always fails. Otherwise its own operands are gone. -/
def Element.FailsInPlace (ω : Type) [Page ω] (b : Bindings) (e : Element) : Prop :=
  ∀ (s s' : Evaluation ω) (err : RenderError), e.eval b s = .error err s' →
    s'.context = s.context ∧
    if err.isUnderflow ∨ e.arity? = none then s'.stack = s.stack
    else ∃ a, e.arity? = some a ∧ a.takes ≤ s.stack.length ∧ s'.stack = s.stack.drop a.takes

namespace Element

theorem failsInPlace [Page.Steady ω] (b : Bindings) (e : Element) : e.FailsInPlace ω b := by
  intro s s' err h
  cases harity : e.arity? with
  | none =>
    obtain ⟨_, heval⟩ := exists_error_of_arity?_none ω harity b
    rw [heval] at h
    cases h
    rw [if_pos (.inr rfl)]
    exact ⟨rfl, rfl⟩
  | some a =>
    rcases (uses_eval harity b).of_error h with ⟨-, rfl, rfl⟩ | ⟨hs, herr, hstack, hcontext⟩
    · rw [if_pos (.inl rfl)]
      exact ⟨rfl, rfl⟩
    · rw [if_neg (by simp [herr])]
      refine ⟨?_, a, rfl, hs, hstack⟩
      rcases hcontext with hsame | ⟨t, err', hrefused⟩
      · exact hsame
      · exact Context.eq_of_refused hrefused

/-- An element that does not want for operands does not see what is beneath them. -/
theorem eval_above {e : Element} {s : Evaluation ω}
    (h : ∀ err, failure? (e.eval b s) = some err → err.isUnderflow = false)
    (rest : List Value) :
    e.eval b ⟨s.stack ++ rest, s.context⟩ = above rest (e.eval b s) := by
  cases harity : e.arity? with
  | none =>
    obtain ⟨_, heval⟩ := exists_error_of_arity?_none ω harity b
    rw [heval, heval]
    rfl
  | some a =>
    have huses : Uses a e.label (e.eval b : Eval ω Unit) := uses_eval harity b
    have hs : a.takes ≤ s.stack.length := by
      refine Nat.le_of_not_lt fun hlt => ?_
      have hfail : failure? (e.eval b s) =
          some (.tooFewOperands e.label a.takes s.stack.length) := by
        rw [huses.short s hlt]
        rfl
      cases h _ hfail
    have hs' : a.takes ≤ (s.stack ++ rest).length := by
      rw [List.length_append]
      omega
    rw [huses.run_eq hs, huses.run_eq (s := ⟨s.stack ++ rest, s.context⟩) hs', above_above,
      List.take_append_of_le_length hs, List.drop_append_of_le_length hs]

end Element

/-! ## Programs -/

/-- A program that does not want for operands does not see what is beneath them. -/
theorem evalAll_above {es : List Element} {s : Evaluation ω}
    (h : ∀ err, failure? (evalAll b es s) = some err → err.isUnderflow = false)
    (rest : List Value) :
    evalAll b es ⟨s.stack ++ rest, s.context⟩ = above rest (evalAll b es s) := by
  induction es generalizing s with
  | nil => rfl
  | cons e es ih =>
    cases he : e.eval b s with
    | error err s₁ =>
      have hrun : evalAll b (e :: es) s = .error err s₁ := bind_of_error he _
      have hstep := Element.eval_above (b := b) (e := e) (s := s)
        (by rw [he]; rwa [hrun] at h) rest
      rw [he] at hstep
      rw [hrun]
      exact bind_of_error hstep _
    | ok u s₁ =>
      have hrun : evalAll b (e :: es) s = evalAll b es s₁ := bind_of_ok he _
      have hstep := Element.eval_above (b := b) (e := e) (s := s)
        (by rw [he]; intro err herr; cases herr) rest
      rw [he] at hstep
      rw [hrun] at h ⊢
      rw [← ih h]
      exact bind_of_ok hstep _

/-- Programs are local. One that does not fail for want of operands ends in the same way above
other operands and leaves those as they are, also when it fails. An element that fails in it
changes nothing but the stack, from which at most its own operands are gone. -/
theorem evalAll_local (b : Bindings) (es : List Element) :
    (∀ {ω : Type} [Page ω] (stack rest : List Value) (c : Context ω),
      (∀ err, failure? (evalAll b es ⟨stack, c⟩) = some err → err.isUnderflow = false) →
      evalAll b es ⟨stack ++ rest, c⟩ = above rest (evalAll b es ⟨stack, c⟩)) ∧
    ∀ e : Element, e.FailsInPlace Capture b ∧ e.FailsInPlace Response b :=
  ⟨fun _ rest _ h => evalAll_above h rest, fun e => ⟨e.failsInPlace b, e.failsInPlace b⟩⟩

/-- A division by zero takes its two operands, and the one beneath them stays. -/
theorem evalAll_local_division :
    let es : List Element := [.operand (.const (.int 0)), .op .div]
    let c : Context Capture := ⟨⟨.empty, .empty, .empty⟩, .empty⟩
    failure? (evalAll .empty es ⟨[.int 7], c⟩) = some (.value .divisionByZero) ∧
      evalAll .empty es ⟨[.int 7] ++ [.str ['p']], c⟩ =
        above [.str ['p']] (evalAll .empty es ⟨[.int 7], c⟩) := by
  intro es c
  have hfail : failure? (evalAll .empty es ⟨[.int 7], c⟩) = some (.value .divisionByZero) := by
    decide +kernel
  refine ⟨hfail, (evalAll_local .empty es).1 [.int 7] [.str ['p']] c fun err herr => ?_⟩
  rw [hfail] at herr
  cases herr
  rfl

end PageTemplate
