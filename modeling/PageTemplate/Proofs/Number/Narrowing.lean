import PageTemplate.Proofs.Number.Nearest

/-! Which doubles become integers. A double is turned into an integer exactly if it is whole and
fits 64 bits, but for the least integer of all, which stays a double. -/
namespace PageTemplate

namespace Double

open Float.Model.UnpackedFloat

/-- The number that the bits of a finite double denote. -/
def value? (x : Float) : Option ℚ :=
  match reading x with
  | .finite negative m e => some (if negative then -magnitude m e else magnitude m e)
  | _ => none

theorem value?_of_finite {x : Float} {s : Sign} {m : Nat} {e : Int} {hm : 0 < m}
    (h : x.toModel.unpack = .finite s m e hm) : value? x = some (signed s m e) := by
  unfold value?
  rw [reading_finite h, signed_eq]
  cases s <;> simp [isMinus, Sign.apply]

/-- A double is read as an integer if that is the number that it denotes. -/
theorem value?_eq_intCast_iff {x : Float} {n : Int} :
    value? x = some (n : ℚ) ↔ toInt? x = some n := by
  rw [toInt?_eq_some_iff]
  cases hx : x.toModel.unpack with
  | finite s m e hm =>
    rw [value?_of_finite hx, Option.some_inj]
    rfl
  | zero s =>
    have hzero : value? x = some 0 := by
      unfold value? reading
      rw [hx]
      cases s <;> simp [isMinus, magnitude]
    rw [hzero, Option.some_inj, ← Int.cast_zero, Int.cast_inj]
    exact eq_comm
  | _ => simp [value?, reading, hx, IsInt]

/-- An integer that some double is, is not rounded. -/
theorem toInt?_ofInt_iff {n : Int} (h : n.natAbs < 2 ^ 1023) :
    toInt? (Float.ofInt n) = some n ↔ ∃ x, toInt? x = some n := by
  constructor
  · exact fun h => ⟨_, h⟩
  · rintro ⟨x, hx⟩
    rw [toInt?_ofInt_nearest h, nearest_of_toInt? hx]

end Double

namespace Value

theorem toInt_eq_least_iff {n : Int64} : n.toInt = -9223372036854775808 ↔ n = Int64.minValue :=
  Int64.toInt_inj (y := Int64.minValue)

theorem narrow_eq_int_iff {x : Float} {n : Int64} :
    narrow x = .int n ↔ Double.toInt? x = some n.toInt ∧ n ≠ Int64.minValue := by
  have hlow := Int64.le_toInt n
  have hhigh := Int64.toInt_lt n
  rw [ne_eq, ← toInt_eq_least_iff]
  constructor
  · intro h
    unfold narrow at h
    split at h
    · rename_i i hi
      split at h
      · rename_i hsmall
        obtain rfl := (Value.int.inj h).symm
        rw [Int64.toInt_ofInt_of_le (by omega) (by omega)]
        exact ⟨hi, by omega⟩
      · cases h
    · cases h
  · rintro ⟨hn, hleast⟩
    rw [narrow_of_toInt? hn (by omega), Int64.ofInt_toInt]

theorem narrow_eq_double_iff {x : Float} : narrow x = .double x ↔
    ∀ n : Int, Double.toInt? x = some n → n ≤ -9223372036854775808 ∨ 9223372036854775808 ≤ n := by
  constructor
  · intro h n hn
    by_contra hsmall
    rw [narrow_of_toInt? hn (by omega)] at h
    cases h
  · intro h
    cases hx : Double.toInt? x with
    | none => exact narrow_of_not_whole hx
    | some n => exact narrow_of_large hx (by have := h n hx; omega)

end Value

/-- An integer that is put into a cell comes out as it was exactly if it is a double, and not the
least integer. -/
theorem Cell.value_ofValue_int_iff {n : Int64} :
    (Cell.ofValue (some (.int n))).map Cell.value = .ok (.int n) ↔
      (∃ x, Double.toInt? x = some n.toInt) ∧ n ≠ Int64.minValue := by
  have hcell : (Cell.ofValue (some (.int n))).map Cell.value =
      .ok (Value.narrow (Float.ofInt n.toInt)) := rfl
  have hlow := Int64.le_toInt n
  have hhigh := Int64.toInt_lt n
  rw [hcell, Except.ok.injEq, Value.narrow_eq_int_iff, Double.toInt?_ofInt_iff (by omega)]

/-- Narrowing is exact. A double becomes an integer just if that is the number that it denotes, and
else it stays as it is; so an integer that is a double comes out of a cell as it went in. The least
integer is the exception to both. -/
theorem Value.narrow_exact (x : Float) (n : Int64) :
    (narrow x = .int n ↔ Double.value? x = some (n.toInt : ℚ) ∧ n ≠ Int64.minValue) ∧
      (narrow x = .double x ↔ ∀ i : Int, Double.value? x = some (i : ℚ) →
        i ≤ -9223372036854775808 ∨ 9223372036854775808 ≤ i) ∧
      ((Cell.ofValue (some (.int n))).map Cell.value = .ok (.int n) ↔
        (∃ y, Double.value? y = some (n.toInt : ℚ)) ∧ n ≠ Int64.minValue) := by
  simp only [Double.value?_eq_intCast_iff]
  exact ⟨narrow_eq_int_iff, narrow_eq_double_iff, Cell.value_ofValue_int_iff⟩

/-- The least integer is a double that fits 64 bits and stays a double. -/
theorem Value.narrow_least :
    let x := Float.ofInt Int64.minValue.toInt
    Double.value? x = some (Int64.minValue.toInt : ℚ) ∧ narrow x = .double x ∧
      (Cell.ofValue (some (.int Int64.minValue))).map Cell.value = .ok (.double x) := by
  intro x
  have hvalue : Double.value? x = some (Int64.minValue.toInt : ℚ) := by
    rw [Double.value?_eq_intCast_iff]
    decide +kernel
  have hnarrow : narrow x = .double x := by
    refine narrow_of_large (Double.value?_eq_intCast_iff.1 hvalue) ?_
    decide
  exact ⟨hvalue, hnarrow, congrArg Except.ok hnarrow⟩

end PageTemplate
