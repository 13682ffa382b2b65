import PageTemplate.Value.Bindings

/-! Operations on stacks of cells: on one stack, and on the stacks of many names, each of which is
pushed, popped, read and edited by its name. -/
namespace PageTemplate

/-! ## Cells -/

/-- What is done with a cell in its place. A comparison changes nothing. -/
inductive Edit
  | set (v : Option Value)
  | add (v : Option Value)
  | sub (v : Option Value)
  | mul (v : Option Value)
  | div (v : Option Value)
  | compare (v : Option Value)
deriving DecidableEq

namespace Edit

inductive Answer
  | done
  | compared (o : Ordering)
  | failed (e : ValueError)
deriving DecidableEq

/-- Puts a new cell, if there is one, in the place of `c`. -/
def inPlace (c : Cell) : Except ValueError Cell → Answer × Cell
  | .ok d => (.done, d)
  | .error e => (.failed e, c)

/-- What an edit answers, and the cell after it. -/
def run (c : Cell) : Edit → Answer × Cell
  | set v => inPlace c (c.set v)
  | add v => inPlace c (c.add v)
  | sub v => inPlace c (c.sub v)
  | mul v => inPlace c (c.mul v)
  | div v => inPlace c (c.div v)
  | compare v =>
    match c.compare v with
    | .ok o => (.compared o, c)
    | .error e => (.failed e, c)

theorem inPlace_of_failed {c : Cell} {r : Except ValueError Cell} {err : ValueError}
    (h : (inPlace c r).1 = .failed err) : (inPlace c r).2 = c := by
  cases r with
  | ok d => cases h
  | error e => rfl

/-- An edit that fails leaves the cell. -/
theorem run_of_failed {c : Cell} {e : Edit} {err : ValueError}
    (h : (e.run c).1 = .failed err) : (e.run c).2 = c := by
  cases e with
  | set v => exact inPlace_of_failed h
  | add v => exact inPlace_of_failed h
  | sub v => exact inPlace_of_failed h
  | mul v => exact inPlace_of_failed h
  | div v => exact inPlace_of_failed h
  | compare v =>
    rw [run]
    split <;> rfl

end Edit

/-! ## One stack -/

/-- An operation on a stack of cells; an edit is done with the top cell. -/
inductive StackOp
  | push (c : Cell)
  | pop
  | peek
  | edit (e : Edit)
deriving DecidableEq

/-- What an operation answers. A stack without a cell has nothing to pop, to read or to edit. -/
inductive StackAnswer
  | pushed
  | popped (c : Option Cell)
  | peeked (c : Option Cell)
  | edited (result : Option (Edit.Answer × Cell))
deriving DecidableEq

namespace StackOp

/-- An operation on a stack, the top first. -/
def run (cs : List Cell) : StackOp → StackAnswer × List Cell
  | push c => (.pushed, c :: cs)
  | pop => (.popped cs.head?, cs.tail)
  | peek => (.peeked cs.head?, cs)
  | edit e =>
    match cs with
    | [] => (.edited none, [])
    | c :: cs => (.edited (some (e.run c)), (e.run c).2 :: cs)

/-- The answers to operations in order, and the stack after them. -/
def runAll (cs : List Cell) : List StackOp → List StackAnswer × List Cell
  | [] => ([], cs)
  | op :: ops =>
    let first := op.run cs
    let rest := runAll first.2 ops
    (first.1 :: rest.1, rest.2)

end StackOp

/-! ## Stacks of many names -/

/-- Every name has a stack of its own: what is done under a name leaves the other stacks. -/
class NamedStacks (σ : Type) where
  /-- The cells of a name, the top first. -/
  stack : σ → Text → List Cell
  push : σ → Text → Cell → σ
  pop : σ → Text → σ
  peek : σ → Text → Option Cell
  /-- Puts a cell in the place of the top one of a name that has one. -/
  replace : σ → Text → Cell → σ
  peek_eq (s : σ) (name : Text) : peek s name = (stack s name).head?
  stack_push (s : σ) (name other : Text) (c : Cell) :
    stack (push s name c) other = if name = other then c :: stack s name else stack s other
  stack_pop (s : σ) (name other : Text) :
    stack (pop s name) other = if name = other then (stack s name).tail else stack s other
  stack_replace (s : σ) (name other : Text) (c : Cell) :
    stack (replace s name c) other =
      if name = other then (stack s name).modifyHead fun _ => c else stack s other

namespace NamedStacks

variable {σ : Type} [NamedStacks σ]

/-- An operation under a name. -/
def apply (s : σ) (name : Text) : StackOp → StackAnswer × σ
  | .push c => (.pushed, push s name c)
  | .pop => (.popped (peek s name), pop s name)
  | .peek => (.peeked (peek s name), s)
  | .edit e =>
    match peek s name with
    | none => (.edited none, s)
    | some c => (.edited (some (e.run c)), replace s name (e.run c).2)

/-- The answers to operations in order, each with its name, and the stacks after them. -/
def applyAll (s : σ) : List (Text × StackOp) → List (Text × StackAnswer) × σ
  | [] => ([], s)
  | (name, op) :: ops =>
    let first := apply s name op
    let rest := applyAll first.2 ops
    ((name, first.1) :: rest.1, rest.2)

end NamedStacks

namespace Bindings

theorem stack_replace_self (b : Bindings) (name : Text) (c : Cell) :
    (b.replace name c).stack name = (b.stack name).modifyHead fun _ => c := by
  obtain ⟨es⟩ := b
  induction es with
  | nil => rfl
  | cons e es ih =>
    by_cases h : e.1 = name
    · simp [replace, replaceFirst, stack, h]
    · simpa [replace, replaceFirst, stack, h] using ih

theorem stack_replace_of_ne (b : Bindings) {name other : Text} (h : name ≠ other) (c : Cell) :
    (b.replace name c).stack other = b.stack other := by
  obtain ⟨es⟩ := b
  induction es with
  | nil => rfl
  | cons e es ih =>
    by_cases he : e.1 = name
    · simp [replace, replaceFirst, stack, he, h]
    · by_cases ho : e.1 = other
      · simpa [replace, replaceFirst, stack, he, ho, Ne.symm h] using ih
      · simpa [replace, replaceFirst, stack, he, ho] using ih

instance : NamedStacks Bindings where
  stack := stack
  push := push
  pop := pop
  peek := peek
  replace := replace
  peek_eq := peek_eq_head?_stack
  stack_push b name other c := by
    rw [stack_push]
    split
    · subst name
      rfl
    · rfl
  stack_pop b name other := by
    split
    · subst name
      exact stack_pop_self b other
    · exact stack_pop_of_ne b ‹_›
  stack_replace b name other c := by
    split
    · subst name
      exact stack_replace_self b other c
    · exact stack_replace_of_ne b ‹_› c

end Bindings
end PageTemplate
