import PageTemplate.Element.Basic

/-! Which element a chunk is. An integer that fits 64 bits comes first, then a finite double,
a variable, a function, a string and an operator; a numeral too large for a double is no
element at all. -/
namespace PageTemplate

/-- An ASCII letter, then ASCII letters, digits and underscores. -/
def isIdentifier : Text → Bool
  | [] => false
  | c :: s => c.isAlpha && s.all fun d => d.isAlphanum || d == '_'

namespace Element

/-- What a chunk that is no number is. -/
def ofWord? (s : Text) : Option Element :=
  if isIdentifier s then some (.operand (.var s))
  else match s with
    | '@' :: name => if isIdentifier name then some (.fn name) else none
    | '"' :: _ => (Literal.toText? s).map fun t => .operand (.const (.str t))
    | _ => (Operator.ofSymbol? s).map .op

def ofChunk? (s : Text) : Option Element :=
  match int64? s with
  | some n => some (.operand (.const (.int n)))
  | none =>
    match Numeral.parse? s with
    | some n =>
      if n.toFloat.isFinite then some (.operand (.const (.double n.toFloat))) else none
    | none => ofWord? s

theorem ofChunk?_of_int64? {s : Text} {n : Int64} (h : int64? s = some n) :
    ofChunk? s = some (.operand (.const (.int n))) := by
  simp [ofChunk?, h]

end Element
end PageTemplate
