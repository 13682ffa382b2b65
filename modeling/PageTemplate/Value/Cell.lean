import PageTemplate.Value.Basic

/-! Numeric cells. A cell holds a double; a missing operand counts as zero, except as a
divisor. No operation changes a cell that it fails on. -/
namespace PageTemplate

structure Cell where
  number : Float
deriving DecidableEq

namespace Cell

/-- The number of an operand that may be missing. -/
def operand : Option Value → Except ValueError Float
  | none => .ok 0
  | some v => v.toNumber

def ofValue (v : Option Value) : Except ValueError Cell :=
  (operand v).map Cell.mk

/-- What the cell holds, narrowed. -/
def value (c : Cell) : Value := Value.narrow c.number

def set (_ : Cell) (v : Option Value) : Except ValueError Cell := ofValue v

def add (c : Cell) (v : Option Value) : Except ValueError Cell :=
  (operand v).map fun x => ⟨c.number + x⟩

def sub (c : Cell) (v : Option Value) : Except ValueError Cell :=
  (operand v).map fun x => ⟨c.number - x⟩

def mul (c : Cell) (v : Option Value) : Except ValueError Cell :=
  (operand v).map fun x => ⟨c.number * x⟩

/-- Divisors of at most this magnitude count as zero. -/
def negligible : Float := 1e-10

def div (c : Cell) : Option Value → Except ValueError Cell
  | none => .error .divisionByZero
  | some v => do
    let x ← v.toNumber
    if x.abs ≤ negligible then .error .divisionByZero else .ok ⟨c.number / x⟩

/-- Compares by the sign of the difference; a difference that is no number counts as zero. -/
def compare (c : Cell) (v : Option Value) : Except ValueError Ordering :=
  (operand v).map fun x =>
    let d := c.number - x
    if 0 < d then .gt else if d < 0 then .lt else .eq

theorem div_none (c : Cell) : c.div none = .error .divisionByZero := rfl

end Cell
end PageTemplate
