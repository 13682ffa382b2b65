import PageTemplate.Context.Basic
import PageTemplate.Element.Basic
import PageTemplate.Number.Pattern

/-! The operand stack of an echo tag. Taking more operands than there are fails and leaves the
stack alone; any other failure comes after the operands are taken. -/
namespace PageTemplate

inductive RenderError
  | unboundVariable (name : Text)
  | unsupportedOperator (o : Operator)
  | unknownFunction (name : Text)
  | tooFewOperands (function : Text) (needed available : Nat)
  | value (e : ValueError)
  | format (e : FormatError)
  | context (e : ContextError)
deriving DecidableEq

def RenderError.message : RenderError → String
  | .unboundVariable name => "variable " ++ Text.quoted name ++ " is not bound"
  | .unsupportedOperator o => "unsupported operator " ++ Text.quoted o.symbol
  | .unknownFunction name => "unknown function @" ++ String.ofList name
  | .tooFewOperands function needed available =>
    String.ofList function ++ " needs " ++ toString needed ++ " operand(s), stack holds " ++
      toString available
  | .value e => e.message
  | .format e => e.message
  | .context e => e.message

/-- The operands, the top first, and the context that functions work on. -/
structure Evaluation (ω : Type) where
  stack : List Value
  context : Context ω

/-- A step of an evaluation. -/
abbrev Eval (ω : Type) := EStateM RenderError (Evaluation ω)

namespace Eval

variable {ω : Type}

def push (v : Value) : Eval ω Unit
  | ⟨stack, context⟩ => .ok () ⟨v :: stack, context⟩

/-- Fails for want of operands. -/
def underflow {α : Type} (function : Text) (needed : Nat) : Eval ω α := fun s =>
  .error (.tooFewOperands function needed s.stack.length) s

/-- Takes `n` operands, in the order in which they were pushed. -/
def popArgs (function : Text) (n : Nat) : Eval ω (Vector Value n) := fun s =>
  if h : n ≤ s.stack.length then
    .ok ⟨(s.stack.take n).reverse.toArray, by simp [h]⟩ ⟨s.stack.drop n, s.context⟩
  else underflow function n s

def pop (function : Text) : Eval ω Value := do
  let args ← popArgs function 1
  return args[0]

def popTwo (function : Text) : Eval ω (Value × Value) := do
  let args ← popArgs function 2
  return (args[0], args[1])

def peek (function : Text) : Eval ω Value := fun s =>
  match s.stack with
  | a :: _ => .ok a s
  | [] => underflow function 1 s

/-- A computation that needs neither the stack nor the context. -/
def ofExcept {ε α : Type} (wrap : ε → RenderError) (r : Except ε α) : Eval ω α :=
  match r with
  | .ok a => pure a
  | .error e => throw (wrap e)

/-- An operation of the context. -/
def onContext {α : Type} (m : EStateM ContextError (Context ω) α) : Eval ω α
  | ⟨stack, context⟩ =>
    match m context with
    | .ok a context => .ok a ⟨stack, context⟩
    | .error e context => .error (.context e) ⟨stack, context⟩

end Eval
end PageTemplate
