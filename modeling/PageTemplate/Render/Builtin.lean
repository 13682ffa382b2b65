import PageTemplate.Render.Stack
import PageTemplate.Value.Cell

/-! Operators and functions. Each takes its operands off the stack and puts its results back;
the names of parameters, the media type and the pattern are taken by their text. -/
namespace PageTemplate

namespace Operator

/-- What an operator does to a cell; a power is not evaluated. -/
def cellFunction? : Operator → Option (Cell → Option Value → Except ValueError Cell)
  | .add => some Cell.add
  | .sub => some Cell.sub
  | .mul => some Cell.mul
  | .div => some Cell.div
  | .pow => none

/-- Replaces two operands by their narrowed result. -/
def run {ω : Type} (o : Operator) : Eval ω Unit :=
  match o.cellFunction? with
  | none => throw (.unsupportedOperator o)
  | some f => do
    let (a, b) ← Eval.popTwo o.symbol
    let c ← Eval.ofExcept .value (Cell.ofValue (some a))
    let d ← Eval.ofExcept .value (f c (some b))
    Eval.push d.value

end Operator

inductive Builtin
  | sin
  | decfmt
  | dup
  | swap
  | setMimeType
  | getRequest
  | getStored (s : Store)
  | setStored (s : Store)
  | deleteStored (s : Store)
deriving DecidableEq

namespace Builtin

def name : Builtin → Text
  | .sin => "sin".toList
  | .decfmt => "decfmt".toList
  | .dup => "dup".toList
  | .swap => "swap".toList
  | .setMimeType => "setMimeType".toList
  | .getRequest => "paramGet".toList
  | .getStored .persistent => "pparamGet".toList
  | .getStored .temporary => "tparamGet".toList
  | .setStored .persistent => "pparamSet".toList
  | .setStored .temporary => "tparamSet".toList
  | .deleteStored .persistent => "pparamDel".toList
  | .deleteStored .temporary => "tparamDel".toList

def all : List Builtin :=
  [.sin, .decfmt, .dup, .swap, .setMimeType, .getRequest,
    .getStored .persistent, .getStored .temporary, .setStored .persistent, .setStored .temporary,
    .deleteStored .persistent, .deleteStored .temporary]

def ofName? (name : Text) : Option Builtin := all.find? fun f => f.name = name

/-- Whether a function works on the context and not on the stack alone. -/
def usesContext : Builtin → Bool
  | .sin | .decfmt | .dup | .swap => false
  | _ => true

/-- One degree in radians. -/
def degree : Float := 0.017453292519943295

/-- A media type without the double quotes around it, if both are there. -/
def unquoteMime (s : Text) : Text :=
  match s with
  | '"' :: r => if r.getLast? = some '"' then r.dropLast else s
  | _ => s

variable {ω : Type} [Page ω]

/-- Formats a number; the number is looked at before the pattern. -/
def formatted (number pattern : Value) : Eval ω Unit := do
  let x ← Eval.ofExcept .value number.toNumber
  let p ← Eval.ofExcept .format (Pattern.parse pattern.text)
  Eval.push (.str (p.format x))

/-- Replaces a name and a default by the parameter of that name, or else the default. -/
def getWith (f : Builtin) (find : Context ω → Text → Option Text) : Eval ω Unit := do
  let (key, default) ← Eval.popTwo f.name
  let s ← get
  Eval.push ((find s.context key.text).elim default .str)

def change (f : Context ω → Context ω) : Eval ω Unit :=
  modify fun s => { s with context := f s.context }

def run (f : Builtin) : Eval ω Unit :=
  match f with
  | .sin => do
    let a ← Eval.pop f.name
    let x ← Eval.ofExcept .value a.toNumber
    Eval.push (.double (x * degree).sin)
  | .decfmt => do
    let (number, pattern) ← Eval.popTwo f.name
    formatted number pattern
  | .dup => do
    let a ← Eval.peek f.name
    Eval.push a
  | .swap => do
    let (a, b) ← Eval.popTwo f.name
    Eval.push b
    Eval.push a
  | .setMimeType => do
    let a ← Eval.pop f.name
    let mime := unquoteMime a.text
    if mime ≠ [] then Eval.onContext (Context.setMimeType mime)
  | .getRequest => f.getWith Context.request?
  | .getStored s => f.getWith fun c => c.get? s
  | .setStored s => do
    let (key, value) ← Eval.popTwo f.name
    change fun c => c.set s key.text value.text
  | .deleteStored s => do
    let key ← Eval.pop f.name
    change fun c => c.delete s key.text

theorem ofName?_name (f : Builtin) : ofName? f.name = some f := by
  cases f with
  | getStored s => cases s <;> decide
  | setStored s => cases s <;> decide
  | deleteStored s => cases s <;> decide
  | _ => decide

theorem name_of_ofName? {name : Text} {f : Builtin} (h : ofName? name = some f) :
    f.name = name := by
  simpa using List.find?_some h

end Builtin
end PageTemplate
