import PageTemplate.Value.Cell

/-! Variable bindings. Every name has a stack of cells of its own: a binding hides the
earlier ones of its name and leaves those of other names alone. -/
namespace PageTemplate

/-- The bindings in force, the most recent first. -/
structure Bindings where
  entries : List (Text × Cell)
deriving DecidableEq

namespace Bindings

def empty : Bindings := ⟨[]⟩

/-- The cells bound to a name, the top first. -/
def stack (b : Bindings) (name : Text) : List Cell :=
  (b.entries.filter (·.1 = name)).map (·.2)

def push (b : Bindings) (name : Text) (c : Cell) : Bindings := ⟨(name, c) :: b.entries⟩

def peek (b : Bindings) (name : Text) : Option Cell :=
  (b.entries.find? (·.1 = name)).map (·.2)

/-- Drops the top binding of a name, if it has one. -/
def pop (b : Bindings) (name : Text) : Bindings :=
  ⟨b.entries.eraseP (·.1 = name)⟩

def replaceFirst (name : Text) (c : Cell) : List (Text × Cell) → List (Text × Cell)
  | [] => []
  | e :: es => if e.1 = name then (name, c) :: es else e :: replaceFirst name c es

/-- Replaces the cell on top of a name; a name without one is left unbound. -/
def replace (b : Bindings) (name : Text) (c : Cell) : Bindings :=
  ⟨replaceFirst name c b.entries⟩

@[simp] theorem pop_push (b : Bindings) (name : Text) (c : Cell) :
    (b.push name c).pop name = b := by
  simp [push, pop]

@[simp] theorem peek_push (b : Bindings) (name : Text) (c : Cell) :
    (b.push name c).peek name = some c := by
  simp [push, peek]

@[simp] theorem replace_push (b : Bindings) (name : Text) (c d : Cell) :
    (b.push name c).replace name d = b.push name d := by
  simp [push, replace, replaceFirst]

theorem peek_eq_head?_stack (b : Bindings) (name : Text) :
    b.peek name = (b.stack name).head? := by
  simp [peek, stack, List.head?_map, List.head?_filter]

@[simp] theorem stack_push (b : Bindings) (name other : Text) (c : Cell) :
    (b.push name c).stack other = if name = other then c :: b.stack other else b.stack other := by
  by_cases h : name = other <;> simp [push, stack, h]

theorem stack_pop_self (b : Bindings) (name : Text) :
    (b.pop name).stack name = (b.stack name).tail := by
  obtain ⟨es⟩ := b
  induction es with
  | nil => rfl
  | cons e es ih =>
    by_cases h : e.1 = name
    · simp [pop, stack, h]
    · simpa [pop, stack, h] using ih

theorem stack_pop_of_ne (b : Bindings) {name other : Text} (h : name ≠ other) :
    (b.pop name).stack other = b.stack other := by
  obtain ⟨es⟩ := b
  induction es with
  | nil => rfl
  | cons e es ih =>
    by_cases he : e.1 = name
    · simp [pop, stack, he, h]
    · by_cases ho : e.1 = other
      · simpa [pop, stack, he, ho, Ne.symm h] using ih
      · simpa [pop, stack, he, ho] using ih

end Bindings
end PageTemplate
