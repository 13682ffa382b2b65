import PageTemplate.Number.Numeral
import PageTemplate.Number.Shortest
import PageTemplate.Text.Quoted

/-! The values that a template computes with: integers of 64 bits, doubles and text. A text
counts as a number if it spells one, and a whole double is turned back into an integer when
it fits. -/
namespace PageTemplate

inductive Value
  | int (n : Int64)
  | double (x : Float)
  | str (s : Text)
deriving DecidableEq

inductive ValueError
  | notANumber (text : Text)
  | divisionByZero
deriving DecidableEq

def ValueError.message : ValueError → String
  | .notANumber s => "value " ++ Text.quoted s ++ " is not a valid number"
  | .divisionByZero => "division by zero"

/-- The decimal digits of an integer, after a minus if it is negative. -/
def intText (n : Int) : Text := signText (n < 0) ++ Nat.toDigits 10 n.natAbs

namespace Value

instance : Inhabited Value := ⟨.int 0⟩

/-- The text that a template writes for a value. -/
def text : Value → Text
  | .int n => intText n.toInt
  | .double x => Double.text x
  | .str s => s

/-- The number that a value stands for. Space around a number is ignored, and the words for
infinities and NaN are not numbers. -/
def toNumber : Value → Except ValueError Float
  | .int n => .ok (Float.ofInt n.toInt)
  | .double x => .ok x
  | .str s =>
    match Numeral.parse? (Text.trim s) with
    | some n => .ok n.toFloat
    | none => .error (.notANumber s)

/-- A whole double whose magnitude is below `2 ^ 63` becomes an integer. -/
def narrow (x : Float) : Value :=
  match Double.toInt? x with
  | some n => if n.natAbs < 9223372036854775808 then .int (Int64.ofInt n) else .double x
  | none => .double x

theorem narrow_of_toInt? {x : Float} {n : Int} (h : Double.toInt? x = some n)
    (hn : n.natAbs < 9223372036854775808) : narrow x = .int (Int64.ofInt n) := by
  unfold narrow
  rw [h]
  exact if_pos hn

theorem narrow_of_large {x : Float} {n : Int} (h : Double.toInt? x = some n)
    (hn : 9223372036854775808 ≤ n.natAbs) : narrow x = .double x := by
  unfold narrow
  rw [h]
  exact if_neg (Nat.not_lt.2 hn)

theorem narrow_of_not_whole {x : Float} (h : Double.toInt? x = none) : narrow x = .double x := by
  simp [narrow, h]

end Value
end PageTemplate
