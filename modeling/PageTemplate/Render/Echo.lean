import PageTemplate.Render.Builtin
import PageTemplate.Value.Bindings

/-! Evaluation of an echo tag. Its elements are a postfix program that starts on an empty
stack. -/
namespace PageTemplate

/-- The value that an operand stands for. -/
def Operand.value? (b : Bindings) : Operand → Except RenderError Value
  | .const v => .ok v
  | .var name =>
    match b.peek name with
    | some c => .ok c.value
    | none => .error (.unboundVariable name)

variable {ω : Type} [Page ω]

def Element.eval (b : Bindings) : Element → Eval ω Unit
  | .operand o => do
    let v ← Eval.ofExcept id (o.value? b)
    Eval.push v
  | .op o => o.run
  | .fn name =>
    match Builtin.ofName? name with
    | some f => f.run
    | none => throw (.unknownFunction name)

def evalAll (b : Bindings) : List Element → Eval ω Unit
  | [] => pure ()
  | e :: es => do
    e.eval b
    evalAll b es

end PageTemplate
