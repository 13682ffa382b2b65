import PageTemplate.Proofs.Number.Integer
import PageTemplate.Proofs.Render.Depth

/-! Arithmetic in postfix form. An echo of an expression, written with its operators after their
operands, writes the exact value as long as no part of the expression is beyond `2 ^ 53`. -/
namespace PageTemplate

/-! ## Expressions -/

inductive Arithmetic
  | add
  | sub
  | mul
deriving DecidableEq

def Arithmetic.operator : Arithmetic → Operator
  | .add => .add
  | .sub => .sub
  | .mul => .mul

def Arithmetic.apply : Arithmetic → Int → Int → Int
  | .add => (· + ·)
  | .sub => (· - ·)
  | .mul => (· * ·)

/-- Arithmetic on integer literals and variables. -/
inductive Expression
  | lit (n : Int64)
  | var (name : Text)
  | apply (o : Arithmetic) (left right : Expression)
deriving DecidableEq

namespace Expression

/-- The elements of an expression, each operator after its operands. -/
def elements : Expression → List Element
  | .lit n => [.operand (.const (.int n))]
  | .var name => [.operand (.var name)]
  | .apply o left right => left.elements ++ right.elements ++ [.op o.operator]

/-- The exact value, for exact values of the variables. -/
def value (σ : Text → Int) : Expression → Int
  | .lit n => n.toInt
  | .var name => σ name
  | .apply o left right => o.apply (left.value σ) (right.value σ)

/-- An expression and all that it is made of. -/
def parts : Expression → List Expression
  | .apply o left right => .apply o left right :: (left.parts ++ right.parts)
  | e => [e]

/-- The variables that occur in an expression. -/
def names : Expression → List Text
  | .lit _ => []
  | .var name => [name]
  | .apply _ left right => left.names ++ right.names

/-- No part of an expression has a value beyond `2 ^ 53`. -/
def Bounded (σ : Text → Int) (e : Expression) : Prop :=
  ∀ part ∈ e.parts, (part.value σ).natAbs ≤ 2 ^ 53

theorem self_mem_parts (e : Expression) : e ∈ e.parts := by
  cases e <;> simp [parts]

theorem Bounded.value_le {σ : Text → Int} {e : Expression} (h : e.Bounded σ) :
    (e.value σ).natAbs ≤ 2 ^ 53 := h e e.self_mem_parts

theorem bounded_apply_iff {σ : Text → Int} {o : Arithmetic} {left right : Expression} :
    (apply o left right).Bounded σ ↔ ((apply o left right).value σ).natAbs ≤ 2 ^ 53 ∧
      left.Bounded σ ∧ right.Bounded σ := by
  simp only [Bounded, parts, List.mem_cons, List.mem_append, or_imp, forall_and,
    forall_eq]

end Expression

/-- The bindings give integers to some variables. -/
def Bindings.Integral (b : Bindings) (σ : Text → Int) (names : List Text) : Prop :=
  ∀ name ∈ names, ∃ c n, b.peek name = some c ∧ c.value = .int n ∧ n.toInt = σ name

/-! ## Evaluation -/

variable {ω : Type}

theorem toInt_ofInt_of_natAbs_le {n : Int} (h : n.natAbs ≤ 2 ^ 53) :
    (Int64.ofInt n).toInt = n := Int64.toInt_ofInt_of_le (by omega) (by omega)

/-- An operator takes the two integers on top and puts back the exact result. -/
theorem Arithmetic.run_operator (o : Arithmetic) {i j : Int64} (hi : i.toInt.natAbs ≤ 2 ^ 53)
    (hj : j.toInt.natAbs ≤ 2 ^ 53) (h : (o.apply i.toInt j.toInt).natAbs ≤ 2 ^ 53)
    (stack : List Value) (c : Context ω) :
    o.operator.run ⟨.int j :: .int i :: stack, c⟩ =
      .ok () ⟨.int (Int64.ofInt (o.apply i.toInt j.toInt)) :: stack, c⟩ := by
  have hx := Double.toInt?_ofInt_of_le hi
  have hy := Double.toInt?_ofInt_of_le hj
  have hpush : ∀ x : Float, Double.toInt? x = some (o.apply i.toInt j.toInt) →
      EStateM.Result.ok () (⟨Value.narrow x :: stack, c⟩ : Evaluation ω) =
        (.ok () ⟨.int (Int64.ofInt (o.apply i.toInt j.toInt)) :: stack, c⟩ :
          EStateM.Result RenderError (Evaluation ω) Unit) := by
    intro x hnarrow
    rw [Value.narrow_of_toInt? hnarrow (by omega)]
  cases o with
  | add => exact hpush _ (Double.toInt?_add hx hy h)
  | sub => exact hpush _ (Double.toInt?_sub hx hy h)
  | mul => exact hpush _ (Double.toInt?_mul hx hy h)

variable [Page ω] {b : Bindings} {σ : Text → Int}

/-- The elements of an expression put its value on top of the stack. -/
theorem Expression.evalAll_elements {e : Expression} (hb : b.Integral σ e.names)
    (he : e.Bounded σ) (stack : List Value) (c : Context ω) :
    evalAll b e.elements ⟨stack, c⟩ = .ok () ⟨.int (Int64.ofInt (e.value σ)) :: stack, c⟩ := by
  induction e generalizing stack with
  | lit n =>
    rw [value, Int64.ofInt_toInt]
    rfl
  | var name =>
    obtain ⟨cell, n, hpeek, hvalue, hn⟩ := hb name (List.mem_singleton_self name)
    have hoperand : (Operand.var name).value? b = .ok (.int n) := by
      simp only [Operand.value?, hpeek, hvalue]
    have heval : (Element.operand (.var name)).eval b ⟨stack, c⟩ = .ok () ⟨.int n :: stack, c⟩ := by
      unfold Element.eval
      dsimp only
      rw [hoperand]
      rfl
    rw [value, ← hn, Int64.ofInt_toInt]
    exact bind_of_ok heval _
  | apply o left right ihl ihr =>
    obtain ⟨hvalue, hleft, hright⟩ := bounded_apply_iff.1 he
    have hl := ihl (fun name h => hb name (List.mem_append_left _ h)) hleft stack
    have hr := ihr (fun name h => hb name (List.mem_append_right _ h)) hright
      (.int (Int64.ofInt (left.value σ)) :: stack)
    have hi := toInt_ofInt_of_natAbs_le hleft.value_le
    have hj := toInt_ofInt_of_natAbs_le hright.value_le
    have ho := o.run_operator (i := Int64.ofInt (left.value σ)) (j := Int64.ofInt (right.value σ))
      (by rw [hi]; exact hleft.value_le) (by rw [hj]; exact hright.value_le)
      (by rw [hi, hj]; exact hvalue) stack c
    rw [hi, hj] at ho
    rw [elements, List.append_assoc, evalAll_append hl, evalAll_append hr]
    exact bind_of_ok ho _

/-! ## Echoes -/

theorem Render.echo_of_singleton {es : List Element} {v : Value} {c c' : Context ω}
    (h : evalAll b es ⟨[], c⟩ = .ok () ⟨[v], c'⟩) :
    Render.echo es ⟨b, c⟩ = Render.write v.text ⟨b, c'⟩ := by
  have heval : Render.evaluate es ⟨b, c⟩ = .ok [v] ⟨b, c'⟩ := by
    rw [Render.evaluate_eq, h]
    rfl
  refine (bind_of_ok heval _).trans ?_
  cases hw : Render.write v.text ⟨b, c'⟩ with
  | ok u r => exact bind_of_ok hw _
  | error e r => exact bind_of_error hw _

/-- Postfix arithmetic is exact. If the variables of an expression stand for integers and no part
of it has a value beyond `2 ^ 53`, an echo of its elements writes the decimal text of its value,
and nothing can fail but the page. -/
theorem echo_expression (b : Bindings) (σ : Text → Int) (e : Expression)
    (hb : b.Integral σ e.names) (he : e.Bounded σ) :
    (∀ {ω : Type} [Page ω] (c : Context ω),
      Render.echo e.elements ⟨b, c⟩ = Render.write (intText (e.value σ)) ⟨b, c⟩) ∧
    ∀ c : Context Capture, Render.echo e.elements ⟨b, c⟩ =
      .ok () ⟨b, c.parameters, c.page.output ++ String.ofList (intText (e.value σ)),
        c.page.mime⟩ := by
  have hecho : ∀ {ω : Type} [Page ω] (c : Context ω),
      Render.echo e.elements ⟨b, c⟩ = Render.write (intText (e.value σ)) ⟨b, c⟩ := by
    intro ω _ c
    rw [Render.echo_of_singleton (e.evalAll_elements hb he [] c)]
    simp only [Value.text, toInt_ofInt_of_natAbs_le he.value_le]
  refine ⟨hecho, fun c => ?_⟩
  rw [hecho c]
  rfl

/-- A negative zero on the way to `2 ^ 53` does not show. -/
theorem echo_expression_zero :
    let e : Expression :=
      .apply .add (.apply .mul (.apply .sub (.lit 2) (.var ['i'])) (.lit 0)) (.lit 9007199254740992)
    let b : Bindings := ⟨[(['i'], ⟨5⟩)]⟩
    let σ : Text → Int := fun _ => 5
    let c : Context Capture := ⟨⟨.empty, .empty, .empty⟩, .empty⟩
    b.Integral σ e.names ∧ e.Bounded σ ∧ Render.echo e.elements ⟨b, c⟩ =
      .ok () ⟨b, c.parameters, "" ++ String.ofList "9007199254740992".toList, none⟩ := by
  intro e b σ c
  have hb : b.Integral σ e.names := by
    intro name hname
    obtain rfl := List.mem_singleton.1 hname
    exact ⟨⟨5⟩, 5, rfl, by decide +kernel, rfl⟩
  have he : e.Bounded σ := by
    show ∀ part ∈ e.parts, (part.value σ).natAbs ≤ 2 ^ 53
    decide +kernel
  have htext : intText (e.value σ) = "9007199254740992".toList := by decide +kernel
  have hecho := (echo_expression b σ e hb he).2 c
  rw [htext] at hecho
  exact ⟨hb, he, hecho⟩

end PageTemplate
