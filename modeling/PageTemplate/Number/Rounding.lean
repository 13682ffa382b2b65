import PageTemplate.Number.Decimal
import PageTemplate.Number.Double

/-! Rounding a double to a fixed number of decimal places. The exact binary value is
rounded, and a tie goes to the even last digit. -/
namespace PageTemplate

/-- The natural number nearest to `num / den`, the even one of two. -/
def roundHalfEven (num den : Nat) : Nat :=
  let q := num / den
  let r := num % den
  if den < 2 * r ∨ (2 * r = den ∧ q % 2 = 1) then q + 1 else q

/-- A tie goes to the even neighbour, and nothing is moved by more than half a unit. -/
theorem roundHalfEven_near (num : Nat) {den : Nat} (h : 0 < den) :
    2 * (roundHalfEven num den * den) ≤ 2 * num + den ∧
      2 * num ≤ 2 * (roundHalfEven num den * den) + den := by
  have hdiv := Nat.div_add_mod num den
  have hlt := Nat.mod_lt num h
  have hmul : num / den * den = den * (num / den) := Nat.mul_comm _ _
  unfold roundHalfEven
  dsimp only
  split
  · rw [Nat.add_mul]; omega
  · omega

theorem roundHalfEven_exact (n : Nat) {den : Nat} (h : 0 < den) :
    roundHalfEven (n * den) den = n := by
  simp [roundHalfEven, Nat.mul_div_cancel n h]
  omega

/-- The number `mantissa * 2 ^ exponent`, rounded to the given number of places. -/
def Double.rounded (mantissa : Nat) (exponent : Int) (places : Nat) : Decimal :=
  let (num, den) := ratio mantissa exponent
  ⟨roundHalfEven (num * Nat.pow 10 places) den, -places⟩

end PageTemplate
