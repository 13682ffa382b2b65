import PageTemplate.Number.Decimal
import PageTemplate.Number.Double

/-! The text of a double. A whole double is written with all its digits and `.0`; any other
finite one with the fewest digits that read back to it, and of those the nearest, the upper
of two equally near. -/
namespace PageTemplate.Double

/-- An exponent such that `num / den < 10 ^ exponent`, one more than that of the leading
digit; right for every positive double, none of which is below `10 ^ -400`. -/
def leadingExponent (num den : Nat) : Int :=
  (Nat.toDigits 10 (num * Nat.pow 10 400 / den)).length - 400

/-- The two neighbours of `num / den` among the multiples of `10 ^ exponent`, the nearer
first and the upper first when they are equally near. -/
def neighbours (num den : Nat) (exponent : Int) : List Decimal :=
  let n := num * Nat.pow 10 (-exponent).toNat
  let d := den * Nat.pow 10 exponent.toNat
  let below := n / d
  let r := n % d
  if d ≤ 2 * r then [⟨below + 1, exponent⟩, ⟨below, exponent⟩]
  else [⟨below, exponent⟩, ⟨below + 1, exponent⟩]

/-- The first decimal that reads back as `x`, over coarser grids before finer ones. -/
def firstReadingBack (x : Float) (num den : Nat) : Nat → Int → Option Decimal
  | 0, _ => none
  | steps + 1, exponent =>
    match (neighbours num den exponent).find? (fun d => d.toFloat = x) with
    | some d => some d
    | none => firstReadingBack x num den steps (exponent - 1)

/-- The exact decimal value of `mantissa * 2 ^ exponent`. -/
def exact (mantissa : Nat) (exponent : Int) : Decimal :=
  ⟨mantissa * Nat.pow 2 exponent.toNat * Nat.pow 5 (-exponent).toNat, -(-exponent).toNat⟩

/-- The shortest decimal that reads back as the positive double `x`, whose value is
`mantissa * 2 ^ exponent`. Seventeen digits are always enough, so `exact` only makes the
function total. -/
def shortest (x : Float) (mantissa : Nat) (exponent : Int) : Decimal :=
  let (num, den) := ratio mantissa exponent
  (firstReadingBack x num den 18 (leadingExponent num den)).getD (exact mantissa exponent)

/-- The text of a double. -/
def text (x : Float) : List Char :=
  match reading x with
  | .nan => ['N', 'a', 'N']
  | .infinite negative => signText negative ++ ['i', 'n', 'f']
  | .finite negative m e =>
    match toInt? x with
    | some n => signText negative ++ Nat.toDigits 10 n.natAbs ++ ['.', '0']
    | none => signText negative ++ (shortest x.abs m e).text

theorem toFloat_of_firstReadingBack {x : Float} {num den steps : Nat} {exponent : Int}
    {d : Decimal} (h : firstReadingBack x num den steps exponent = some d) : d.toFloat = x := by
  induction steps generalizing exponent with
  | zero => simp [firstReadingBack] at h
  | succ steps ih =>
    unfold firstReadingBack at h
    split at h
    · rename_i d' hd
      cases h
      simpa using List.find?_some hd
    · exact ih h

end PageTemplate.Double
