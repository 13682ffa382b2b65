/-! Doubles read exactly: which number the bits of a double denote, and which doubles
denote a whole number. -/
namespace PageTemplate.Double

/-- What a double denotes. A finite one is `mantissa * 2 ^ exponent` with its sign; zero
keeps its sign too. -/
inductive Reading
  | nan
  | infinite (negative : Bool)
  | finite (negative : Bool) (mantissa : Nat) (exponent : Int)
deriving DecidableEq

def isMinus : Float.Model.UnpackedFloat.Sign → Bool
  | .negative => true
  | .positive => false

def reading (x : Float) : Reading :=
  match x.toModel.unpack with
  | .notANumber => .nan
  | .infinity s => .infinite (isMinus s)
  | .zero s => .finite (isMinus s) 0 0
  | .finite s m e _ => .finite (isMinus s) m e

/-- `mantissa * 2 ^ exponent` as a numerator and a denominator. -/
def ratio (mantissa : Nat) (exponent : Int) : Nat × Nat :=
  (mantissa * Nat.pow 2 exponent.toNat, Nat.pow 2 (-exponent).toNat)

/-- The whole number that a double denotes, if it denotes one. -/
def toInt? (x : Float) : Option Int :=
  match reading x with
  | .finite negative m e =>
    let (num, den) := ratio m e
    if num % den = 0 then
      some (if negative then -(num / den : Nat) else (num / den : Nat))
    else none
  | _ => none

theorem ratio_snd_pos (m : Nat) (e : Int) : 0 < (ratio m e).2 := Nat.pow_pos (by decide)

theorem toInt?_of_nan {x : Float} (h : reading x = .nan) : toInt? x = none := by
  simp [toInt?, h]

theorem toInt?_of_infinite {x : Float} {s : Bool} (h : reading x = .infinite s) :
    toInt? x = none := by
  simp [toInt?, h]

end PageTemplate.Double
