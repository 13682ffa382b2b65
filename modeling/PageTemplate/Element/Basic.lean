import PageTemplate.Element.Literal
import PageTemplate.Value.Basic

/-! The elements of a tag: operands, functions and operators, and how each is written. -/
namespace PageTemplate

/-- The arithmetic operators; the last can be written but not evaluated. -/
inductive Operator
  | add
  | sub
  | mul
  | div
  | pow
deriving DecidableEq

def Operator.symbol : Operator → Text
  | .add => ['+']
  | .sub => ['-']
  | .mul => ['*']
  | .div => ['/']
  | .pow => ['^']

def Operator.ofSymbol? (s : Text) : Option Operator :=
  [Operator.add, .sub, .mul, .div, .pow].find? fun o => o.symbol = s

/-- What stands for a value: a constant, or a variable for the value bound to it. -/
inductive Operand
  | const (v : Value)
  | var (name : Text)
deriving DecidableEq

inductive Element
  | operand (o : Operand)
  | fn (name : Text)
  | op (o : Operator)
deriving DecidableEq

/-- A value as it is written in a tag; text becomes a string literal. -/
def Value.source : Value → Text
  | .str s => Literal.ofText s
  | v => v.text

def Operand.source : Operand → Text
  | .const v => v.source
  | .var name => name

namespace Element

def source : Element → Text
  | .operand o => o.source
  | .fn name => '@' :: name
  | .op o => o.symbol

end Element

theorem Operator.ofSymbol?_symbol (o : Operator) : Operator.ofSymbol? o.symbol = some o := by
  cases o <;> decide

theorem Operator.symbol_of_ofSymbol? {s : Text} {o : Operator}
    (h : Operator.ofSymbol? s = some o) : o.symbol = s := by
  simpa using List.find?_some h

end PageTemplate
