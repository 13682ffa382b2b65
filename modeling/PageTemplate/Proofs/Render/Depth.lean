import PageTemplate.Context.Capture
import PageTemplate.Proofs.Render.Arity
import PageTemplate.Proofs.Render.Lookup
import PageTemplate.Response.Basic

/-! The height of the operand stack. It depends on the elements that were evaluated and not on any
value, so the elements before one tell whether it finds its operands. Nothing is written before the
last element is evaluated; then the operands that are left are, and as many as the elements tell. -/
namespace PageTemplate

open Eval

def Element.effect (e : Element) : Int := e.arity?.elim 0 Arity.effect

/-- The sum of the effects of elements, which is the height of the stack after they all succeed. -/
def heightAfter : List Element → Int
  | [] => 0
  | e :: es => e.effect + heightAfter es

variable {ω : Type} [Page ω] {b : Bindings}

theorem Element.exists_arity_of_ok {e : Element} {s s' : Evaluation ω}
    (h : e.eval b s = .ok () s') : ∃ a, e.arity? = some a := by
  cases harity : e.arity? with
  | some a => exact ⟨a, rfl⟩
  | none =>
    obtain ⟨err, heval⟩ := exists_error_of_arity?_none ω harity b
    rw [heval] at h
    cases h

theorem Element.height_of_ok {e : Element} {s s' : Evaluation ω} (h : e.eval b s = .ok () s') :
    (s'.stack.length : Int) = s.stack.length + e.effect := by
  obtain ⟨a, harity⟩ := exists_arity_of_ok h
  obtain ⟨-, hlength, -⟩ := (uses_eval harity b).of_ok h
  simp only [effect, harity, Option.elim_some, Arity.effect]
  omega

theorem height_of_evalAll {es : List Element} {s s' : Evaluation ω}
    (h : evalAll b es s = .ok () s') :
    (s'.stack.length : Int) = s.stack.length + heightAfter es := by
  induction es generalizing s with
  | nil =>
    cases h
    simp [heightAfter]
  | cons e es ih =>
    obtain ⟨u, s₁, he, hrest⟩ := ok_of_bind h
    rw [ih hrest, Element.height_of_ok he]
    rw [heightAfter]
    omega

/-! ## One element -/

/-- How an element fares where the stack has a certain height. One with an arity wants for operands
exactly if it takes more than that, and reports both numbers; one without always fails. -/
structure Element.Fares (b : Bindings) (e : Element) (height : Int) (s : Evaluation ω) : Prop where
  height_eq : (s.stack.length : Int) = height
  short : ∀ a, e.arity? = some a → height < a.takes →
    e.eval b s = .error (.tooFewOperands e.label a.takes s.stack.length) s
  enough : ∀ a, e.arity? = some a → a.takes ≤ height →
    ∀ err s', e.eval b s = .error err s' → err.isUnderflow = false
  always : e.arity? = none →
    e = .op .pow ∧ e.eval b s = .error (.unsupportedOperator .pow) s ∨
      ∃ name, e = .fn name ∧ Builtin.ofName? name = none ∧
        e.eval b s = .error (.unknownFunction name) s

theorem Element.fares (b : Bindings) (e : Element) {height : Int} {s : Evaluation ω}
    (h : (s.stack.length : Int) = height) : e.Fares b height s where
  height_eq := h
  short a harity hlt := (uses_eval harity b).short s (by omega)
  enough a harity hle err s' heval := by
    rcases (uses_eval harity b).of_error heval with ⟨hlt, -, -⟩ | ⟨-, herr, -, -⟩
    · omega
    · exact herr
  always harity := by
    rcases eval_of_arity?_none ω harity b with ⟨he, heval⟩ | ⟨name, he, hname, heval⟩
    · exact .inl ⟨he, heval s⟩
    · exact .inr ⟨name, he, hname, heval s⟩

/-! ## The page during an evaluation -/

section Observation

variable {β : Type} {f : ω → β}

/-- What no media type changes about a page, no element does. -/
theorem Element.observe_eval (hf : ∀ t page, f (endState (Page.setMimeType t page)) = f page)
    (e : Element) (s : Evaluation ω) :
    f (endState (e.eval b s)).context.page = f s.context.page := by
  cases he : e.eval b s with
  | ok u s' =>
    obtain ⟨a, harity⟩ := exists_arity_of_ok he
    obtain ⟨-, -, hasks⟩ := (uses_eval harity b).of_ok he
    change f s'.context.page = _
    generalize s'.context.page = page' at hasks
    cases hasks with
    | nothing => rfl
    | mimeType t => exact hf t _
  | error err s' =>
    change f s'.context.page = _
    cases harity : e.arity? with
    | none =>
      obtain ⟨_, heval⟩ := exists_error_of_arity?_none ω harity b
      rw [heval] at he
      cases he
      rfl
    | some a =>
      rcases (uses_eval harity b).of_error he with
        ⟨-, -, rfl⟩ | ⟨-, -, -, hsame | ⟨t, err', hrefused⟩⟩
      · rfl
      · rw [hsame]
      · have hend : s'.context = endState (Context.setMimeType t s.context) := by
          rw [hrefused]
          rfl
        rw [hend, Context.setMimeType, Context.onPage_eq, endState_mapResult]
        exact hf t _

theorem observe_evalAll (hf : ∀ t page, f (endState (Page.setMimeType t page)) = f page)
    (es : List Element) (s : Evaluation ω) :
    f (endState (evalAll b es s)).context.page = f s.context.page := by
  induction es generalizing s with
  | nil => rfl
  | cons e es ih =>
    have hstep := Element.observe_eval (b := b) hf e s
    cases he : e.eval b s with
    | ok u s₁ =>
      have hrun : evalAll b (e :: es) s = evalAll b es s₁ := bind_of_ok he _
      rw [hrun, ih, ← hstep, he]
      rfl
    | error err s₁ =>
      have hrun : evalAll b (e :: es) s = .error err s₁ := bind_of_error he _
      rw [hrun, ← hstep, he]

end Observation

theorem Capture.output_setMimeType (t : Text) (page : Capture) :
    (endState (Page.setMimeType t page)).output = page.output := rfl

theorem Response.sink_setMimeType (t : Text) (page : Response) :
    (endState (Page.setMimeType t page)).sink = page.sink := by
  change (endState (Response.setMimeType t page)).sink = _
  unfold Response.setMimeType Response.change
  split <;> rfl

/-! ## Echoes -/

theorem Render.writeValues_capture (vs : List Value) (b : Bindings) (p : Parameters)
    (output : String) (mime : Option Text) :
    (Render.writeValues vs : Render Capture Unit) ⟨b, p, output, mime⟩ =
      .ok () ⟨b, p, output ++ String.ofList (vs.flatMap Value.text), mime⟩ := by
  induction vs generalizing output with
  | nil =>
    rw [List.flatMap_nil, String.ofList_nil, String.append_empty]
    rfl
  | cons v vs ih =>
    have hwrite : Render.write v.text (⟨b, p, output, mime⟩ : Rendering Capture) =
        .ok () ⟨b, p, output ++ String.ofList v.text, mime⟩ := rfl
    refine (bind_of_ok hwrite _).trans ?_
    rw [ih, List.flatMap_cons, String.ofList_append, String.append_assoc]

theorem Render.echo_capture_eq_ok_iff {es : List Element} {c : Context Capture}
    {r : Rendering Capture} :
    Render.echo es ⟨b, c⟩ = .ok () r ↔ ∃ s, evalAll b es ⟨[], c⟩ = .ok () s ∧
      r = ⟨b, s.context.parameters,
        c.page.output ++ String.ofList (s.stack.reverse.flatMap Value.text),
        s.context.page.mime⟩ := by
  have hwrite : ∀ s, evalAll b es ⟨[], c⟩ = .ok () s →
      Render.echo es ⟨b, c⟩ = .ok () ⟨b, s.context.parameters,
        c.page.output ++ String.ofList (s.stack.reverse.flatMap Value.text),
        s.context.page.mime⟩ := by
    intro s hs
    have houtput := observe_evalAll (b := b) Capture.output_setMimeType es ⟨[], c⟩
    rw [hs] at houtput
    have heval : Render.evaluate es ⟨b, c⟩ = .ok s.stack.reverse ⟨b, s.context⟩ := by
      rw [Render.evaluate_eq, hs]
      rfl
    refine (bind_of_ok heval _).trans ?_
    rw [← houtput]
    exact Render.writeValues_capture s.stack.reverse b _ _ _
  constructor
  · intro h
    cases hs : evalAll b es ⟨[], c⟩ with
    | ok u s =>
      rw [hwrite s hs] at h
      cases h
      exact ⟨s, rfl, rfl⟩
    | error err s =>
      have heval : Render.evaluate es ⟨b, c⟩ = .error (.failed err) ⟨b, s.context⟩ := by
        rw [Render.evaluate_eq, hs]
        rfl
      have herror : Render.echo es ⟨b, c⟩ = .error (.failed err) ⟨b, s.context⟩ :=
        bind_of_error heval _
      rw [herror] at h
      cases h
  · rintro ⟨s, hs, rfl⟩
    exact hwrite s hs

/-- The stack of an echo is known from its elements. An element that an evaluation comes to finds
the height that the elements before it tell, and wants for operands exactly if that is too little;
the evaluation fails as its first failing element does. Nothing is written meanwhile. A successful
echo adds the texts of the operands that are left, which are as many as the elements tell, the
bottom one first. -/
theorem echo_stack (b : Bindings) (es : List Element) :
    (∀ {ω : Type} [Page ω] (c : Context ω),
      (∀ before e after s, es = before ++ e :: after → evalAll b before ⟨[], c⟩ = .ok () s →
        e.Fares b (heightAfter before) s) ∧
      ∀ err s', evalAll b es ⟨[], c⟩ = .error err s' ↔
        ∃ before e after s, es = before ++ e :: after ∧ evalAll b before ⟨[], c⟩ = .ok () s ∧
          e.eval b s = .error err s') ∧
    (∀ c : Context Capture,
      (endState (evalAll b es ⟨[], c⟩)).context.page.output = c.page.output) ∧
    (∀ c : Context Response, (endState (evalAll b es ⟨[], c⟩)).context.page.sink = c.page.sink) ∧
    ∀ (c : Context Capture) r, Render.echo es ⟨b, c⟩ = .ok () r ↔
      ∃ s, evalAll b es ⟨[], c⟩ = .ok () s ∧ (s.stack.length : Int) = heightAfter es ∧
        r = ⟨b, s.context.parameters,
          c.page.output ++ String.ofList (s.stack.reverse.flatMap Value.text),
          s.context.page.mime⟩ := by
  refine ⟨fun c => ⟨fun before e after s _ hs => ?_, fun err s' => evalAll_eq_error_iff⟩,
    fun c => observe_evalAll Capture.output_setMimeType es ⟨[], c⟩,
    fun c => observe_evalAll Response.sink_setMimeType es ⟨[], c⟩, fun c r => ?_⟩
  · refine e.fares b ?_
    rw [height_of_evalAll hs]
    simp
  · rw [Render.echo_capture_eq_ok_iff]
    constructor
    · rintro ⟨s, hs, rfl⟩
      refine ⟨s, hs, ?_, rfl⟩
      rw [height_of_evalAll hs]
      simp
    · rintro ⟨s, hs, -, rfl⟩
      exact ⟨s, hs, rfl⟩

/-- After a duplicate and a look-up one operand is left, which is too little for a swap. -/
theorem echo_stack_swap :
    let before : List Element :=
      [.operand (.const (.int 2)), .fn "dup".toList, .fn "paramGet".toList]
    let swap : Element := .fn "swap".toList
    let c : Context Capture := ⟨⟨.empty, .empty, .empty⟩, .empty⟩
    ∃ s, evalAll .empty before ⟨[], c⟩ = .ok () s ∧ heightAfter before = 1 ∧
      swap.Fares .empty 1 s ∧
      swap.eval .empty s = .error (.tooFewOperands "swap".toList 2 1) s := by
  intro before swap c
  have hbefore : evalAll .empty before ⟨[], c⟩ = .ok () ⟨[.int 2], c⟩ := rfl
  have hheight : heightAfter before = 1 := by decide
  have hfares := ((echo_stack .empty (before ++ [swap])).1 c).1 before swap [] _ rfl hbefore
  rw [hheight] at hfares
  exact ⟨_, hbefore, hheight, hfares, hfares.short ⟨2, 2⟩ rfl (by decide)⟩

end PageTemplate
