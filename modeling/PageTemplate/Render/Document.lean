import PageTemplate.Document.Basic
import PageTemplate.Render.Echo

/-! Rendering. Text is written as it is, an echo writes the operands that are left, the bottom
one first, and a loop binds its variable while it repeats what is in it. A loop may run for
ever, so a render has a bound on the turns of each loop; a loop that gets there is no error
of the template. -/
namespace PageTemplate

/-- Why a render stops early. -/
inductive Halt
  | failed (e : RenderError)
  | outOfTurns
deriving DecidableEq

structure Rendering (ω : Type) where
  bindings : Bindings
  context : Context ω

abbrev Render (ω : Type) := EStateM Halt (Rendering ω)

namespace Render

variable {ω : Type}

/-- A computation on the bindings alone. -/
def onBindings {ε α : Type} (wrap : ε → RenderError) (f : Bindings → Except ε α) : Render ω α :=
  fun r =>
    match f r.bindings with
    | .ok a => .ok a r
    | .error e => .error (.failed (wrap e)) r

def write [Page ω] (s : Text) : Render ω Unit
  | ⟨bindings, context⟩ =>
    match context.write s with
    | .ok _ context => .ok () ⟨bindings, context⟩
    | .error e context => .error (.failed (.context e)) ⟨bindings, context⟩

/-- Writes the texts of values in order. -/
def writeValues [Page ω] : List Value → Render ω Unit
  | [] => pure ()
  | v :: vs => do
    write v.text
    writeValues vs

/-- Evaluates elements on an empty stack; nothing is written before the last of them. -/
def evaluate [Page ω] (es : List Element) : Render ω (List Value)
  | ⟨bindings, context⟩ =>
    match evalAll bindings es ⟨[], context⟩ with
    | .ok _ s => .ok s.stack.reverse ⟨bindings, s.context⟩
    | .error e s => .error (.failed e) ⟨bindings, s.context⟩

def echo [Page ω] (es : List Element) : Render ω Unit := do
  let vs ← evaluate es
  writeValues vs

/-- Runs with a variable bound, and drops the binding however the run ends. -/
def withBinding {α : Type} (name : Text) (c : Cell) (m : Render ω α) : Render ω α
  | ⟨bindings, context⟩ =>
    match m ⟨bindings.push name c, context⟩ with
    | .ok a r => .ok a { r with bindings := r.bindings.pop name }
    | .error e r => .error e { r with bindings := r.bindings.pop name }

/-- The cell bound to a name. -/
def binding (name : Text) : Render ω Cell :=
  onBindings id fun b =>
    match b.peek name with
    | some c => .ok c
    | none => .error (.unboundVariable name)

/-- Adds a step to the cell bound to a name. -/
def advance (name : Text) (step : Value) : Render ω Unit := do
  let c ← binding name
  let d ← onBindings .value fun _ => c.add (some step)
  modify fun r => { r with bindings := r.bindings.replace name d }

/-- Repeats a body while the variable is not past the end. -/
def iterate (name : Text) (stop step : Value) (body : Render ω Unit) : Nat → Render ω Unit
  | 0 => throw .outOfTurns
  | turns + 1 => do
    let c ← binding name
    let order ← onBindings .value fun _ => c.compare (some stop)
    match order with
    | .gt => pure ()
    | _ =>
      body
      advance name step
      iterate name stop step body turns

/-- Runs a loop. Its head is evaluated once, outside the scope of its own variable. -/
def loop (h : LoopHead) (body : Render ω Unit) (turns : Nat) : Render ω Unit := do
  let start ← onBindings id h.start.value?
  let stop ← onBindings id h.stop.value?
  let step ← match h.step with
    | some o => onBindings id o.value?
    | none => pure (.int 1)
  let c ← onBindings .value fun _ => Cell.ofValue (some start)
  withBinding h.name c (iterate h.name stop step body turns)

end Render

/-- As many turns as a program allows a loop, more than one could wait for. -/
def turnLimit : Nat := 4611686018427387904

namespace Document

variable {ω : Type} [Page ω]

/-- Runs the nodes in order, every loop for at most `turns` comparisons with its end. -/
def run (turns : Nat) : Document → Render ω Unit
  | .nil => pure ()
  | .text s rest => do
    Render.write s
    rest.run turns
  | .echo es rest => do
    Render.echo es
    rest.run turns
  | .loop h inner rest => do
    Render.loop h (inner.run turns) turns
    rest.run turns

/-- Renders into a context, with no variable bound. What was written before a failure stays
written. -/
def render (turns : Nat) (d : Document) : EStateM Halt (Context ω) Unit := fun context =>
  match d.run turns ⟨Bindings.empty, context⟩ with
  | .ok _ r => .ok () r.context
  | .error e r => .error e r.context

end Document
end PageTemplate
