import PageTemplate.Number.Decimal

/-! Numbers as they are written: an optional sign and ASCII digits for an integer, and for a
double also a point and an exponent. -/
namespace PageTemplate

/-- Splits off an optional sign; `true` is a minus. -/
def splitSign : List Char → Bool × List Char
  | '+' :: s => (false, s)
  | '-' :: s => (true, s)
  | s => (false, s)

/-- The value of a non-empty run of ASCII digits. -/
def digitsValue? (s : List Char) : Option Nat :=
  if s ≠ [] ∧ s.all Char.isDigit then some (Nat.ofDigitChars 10 s 0) else none

/-- Reads an optional sign and one or more digits. -/
def integer? (s : List Char) : Option Int :=
  let (negative, digits) := splitSign s
  (digitsValue? digits).map fun n => if negative then -n else n

/-- Reads an integer that fits 64 bits. -/
def int64? (s : List Char) : Option Int64 :=
  (integer? s).bind fun n =>
    if Int64.minValue.toInt ≤ n ∧ n ≤ Int64.maxValue.toInt then some (Int64.ofInt n) else none

/-- Reads a natural number below `bound`; a plus may stand before it, a minus may not. -/
def natBelow? (bound : Nat) (s : List Char) : Option Nat :=
  let digits := match s with
    | '+' :: r => r
    | r => r
  (digitsValue? digits).filter (· < bound)

/-- A number with a sign of its own, so that `-0` stays apart from `0`. -/
structure Numeral where
  negative : Bool
  magnitude : Decimal
deriving DecidableEq

namespace Numeral

/-- The power of ten at the end of a numeral: nothing, or an `e` and an integer. -/
def exponent? : List Char → Option Int
  | [] => some 0
  | c :: s => if c = 'e' ∨ c = 'E' then integer? s else none

/-- What follows the digits before the point: the digits after it, and the rest. -/
def fraction : List Char → List Char × List Char
  | '.' :: s => (s.takeWhile Char.isDigit, s.dropWhile Char.isDigit)
  | s => ([], s)

/-- Reads a numeral: digits with an optional point among, before or after them, at least
one digit in all, then an optional exponent. -/
def parse? (s : List Char) : Option Numeral :=
  let (negative, s) := splitSign s
  let whole := s.takeWhile Char.isDigit
  let (part, rest) := fraction (s.dropWhile Char.isDigit)
  if whole ++ part = [] then none
  else (exponent? rest).map fun e =>
    ⟨negative, ⟨Nat.ofDigitChars 10 (whole ++ part) 0, e - part.length⟩⟩

/-- The nearest double; a numeral too large for any reads as an infinity. -/
def toFloat (n : Numeral) : Float :=
  if n.negative then -n.magnitude.toFloat else n.magnitude.toFloat

end Numeral

theorem digitsValue?_toDigits (n : Nat) : digitsValue? (Nat.toDigits 10 n) = some n := by
  have hd : (Nat.toDigits 10 n).all Char.isDigit := by
    rw [List.all_eq_true]
    exact fun c hc => Nat.isDigit_of_mem_toDigits (by decide) (by decide) hc
  simp [digitsValue?, Nat.toDigits_ne_nil, Nat.ofDigitChars_ten_toDigits]
  simpa using hd

end PageTemplate
