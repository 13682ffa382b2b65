/-! Decimal numbers as digits and a power of ten, their positional text and the double
nearest to them. -/
namespace PageTemplate

/-- A minus before a negative number. -/
def signText (negative : Bool) : List Char := if negative then ['-'] else []

/-- The number `digits * 10 ^ exponent`. -/
structure Decimal where
  digits : Nat
  exponent : Int
deriving DecidableEq

namespace Decimal

/-- The nearest double, ties to the even mantissa; an infinity past the largest one. -/
def toFloat (d : Decimal) : Float :=
  Float.ofScientific d.digits (d.exponent < 0) d.exponent.natAbs

/-- How many digits stand after the point. -/
def places (d : Decimal) : Nat := (-d.exponent).toNat

/-- The digits before the point, at least one. -/
def wholeDigits (d : Decimal) : List Char :=
  Nat.toDigits 10 (d.digits * Nat.pow 10 d.exponent.toNat / Nat.pow 10 d.places)

/-- The digits after the point, as many as there are places. -/
def fractionDigits (d : Decimal) : List Char :=
  if d.places = 0 then []
  else (Nat.toDigits 10 (d.digits % Nat.pow 10 d.places)).leftpad d.places '0'

/-- Positional text, never with an exponent. -/
def text (d : Decimal) : List Char :=
  if d.places = 0 then d.wholeDigits else d.wholeDigits ++ '.' :: d.fractionDigits

theorem places_eq_zero_iff {d : Decimal} : d.places = 0 ↔ 0 ≤ d.exponent := by
  unfold places; omega

theorem wholeDigits_ne_nil (d : Decimal) : d.wholeDigits ≠ [] :=
  List.ne_nil_of_length_pos Nat.length_toDigits_pos

theorem length_fractionDigits (d : Decimal) : d.fractionDigits.length = d.places := by
  unfold fractionDigits
  split
  · simp_all
  · rename_i h
    have hlt : d.digits % Nat.pow 10 d.places < Nat.pow 10 d.places :=
      Nat.mod_lt _ (Nat.pow_pos (by decide))
    have hle := (Nat.length_toDigits_le_iff (by decide) (by omega)).2 hlt
    simp only [List.leftpad, List.length_append, List.length_replicate]
    omega

end Decimal
end PageTemplate
