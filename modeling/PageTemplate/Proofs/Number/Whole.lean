import PageTemplate.Proofs.Number.Decimal
import PageTemplate.Proofs.Number.ReadBack
import PageTemplate.Value.Cell

/-! Whole doubles. An integer below `2 ^ 53` is a double, and sums of such integers that stay below
are exact. -/
namespace PageTemplate

namespace Double

open Float.Model Float.Model.UnpackedFloat

def signOf (n : Int) : Sign := if n < 0 then .negative else .positive

/-- The unpacked form of the double that an integer below `2 ^ 53` is. -/
def whole (n : Int) : UnpackedFloat :=
  if h : n = 0 then .zero .positive
  else .finite (signOf n) (n.natAbs * 2 ^ (52 - n.natAbs.log2)) (n.natAbs.log2 - 52)
    (Nat.mul_pos (Int.natAbs_pos.2 h) (Nat.two_pow_pos _))

theorem whole_zero : whole 0 = .zero .positive := rfl

theorem whole_of_ne_zero {n : Int} (h : n ≠ 0) :
    whole n = .finite (signOf n) (n.natAbs * 2 ^ (52 - n.natAbs.log2)) (n.natAbs.log2 - 52)
      (Nat.mul_pos (Int.natAbs_pos.2 h) (Nat.two_pow_pos _)) := dif_neg h

theorem legal_whole {n : Int} (h : n ≠ 0) (hn : n.natAbs < 2 ^ 53) :
    Legal (n.natAbs * 2 ^ (52 - n.natAbs.log2)) (n.natAbs.log2 - 52) :=
  legal_nat (Int.natAbs_pos.2 h) hn

theorem magnitude_whole {n : Int} (h : n ≠ 0) (hn : n.natAbs < 2 ^ 53) :
    magnitude (n.natAbs * 2 ^ (52 - n.natAbs.log2)) (n.natAbs.log2 - 52) = n.natAbs := by
  have hlog := (Nat.log2_lt (Int.natAbs_pos.2 h).ne').2 hn
  exact magnitude_legal_nat (by omega)

/-! ## Normal forms -/

/-- The number that a sign, a mantissa and an exponent stand for. -/
def signed (s : Sign) (m : Nat) (e : Int) : ℚ := (s.apply (m : Int) : Int) * 2 ^ e

theorem signed_whole {n : Int} (h : n ≠ 0) (hn : n.natAbs < 2 ^ 53) :
    signed (signOf n) (n.natAbs * 2 ^ (52 - n.natAbs.log2)) (n.natAbs.log2 - 52) = n := by
  have hmag := magnitude_whole h hn
  unfold magnitude at hmag
  unfold signed signOf
  rcases lt_or_gt_of_ne h with hneg | hpos
  · have habs : (n.natAbs : ℚ) = -n := by rw [Nat.cast_natAbs, abs_of_neg hneg, Int.cast_neg]
    rw [if_pos hneg]
    simp only [Sign.apply, Int.cast_neg, Int.cast_natCast, neg_mul, hmag, habs, neg_neg]
  · have habs : (n.natAbs : ℚ) = n := by rw [Nat.cast_natAbs, abs_of_pos hpos]
    rw [if_neg (not_lt.2 hpos.le)]
    simp only [Sign.apply, Int.cast_natCast, hmag, habs]

/-- A number with an integer as its value is normalized to the form of that integer. -/
theorem normalize_whole {a e n : Int} (hn : n.natAbs < 2 ^ 53) (h : (a : ℚ) * 2 ^ e = n) :
    UnpackedFloat.normalize Format.binary64 a e .positive = whole n := by
  have hp : (0 : ℚ) < 2 ^ e := zpow_pos (by norm_num) e
  unfold UnpackedFloat.normalize
  rcases lt_trichotomy a 0 with ha | rfl | ha
  · have hn0 : n < 0 := by
      have hneg : (n : ℚ) < 0 := by
        rw [← h]
        exact mul_neg_of_neg_of_pos (by exact_mod_cast ha) hp
      exact_mod_cast hneg
    have habs : magnitude (-a).toNat e = n.natAbs := by
      have ha' : ((-a).toNat : ℚ) = -a := by exact_mod_cast Int.toNat_of_nonneg (by omega)
      have hn' : (n.natAbs : ℚ) = -n := by rw [Nat.cast_natAbs, abs_of_neg hn0, Int.cast_neg]
      unfold magnitude
      rw [ha', hn', ← h, neg_mul]
    have hsign : signOf n = .negative := if_pos hn0
    rw [Int.compare_eq_lt.2 ha, whole_of_ne_zero hn0.ne]
    simp only [hsign]
    apply round_exact .negative (legal_whole hn0.ne hn)
    rw [habs, magnitude_whole hn0.ne hn]
  · obtain rfl : n = 0 := by
      have hzero : (n : ℚ) = 0 := by rw [← h]; simp
      exact_mod_cast hzero
    rfl
  · have hn0 : 0 < n := by
      have hpos : (0 : ℚ) < n := by
        rw [← h]
        exact mul_pos (by exact_mod_cast ha) hp
      exact_mod_cast hpos
    have habs : magnitude a.toNat e = n.natAbs := by
      have ha' : (a.toNat : ℚ) = a := by exact_mod_cast Int.toNat_of_nonneg ha.le
      have hn' : (n.natAbs : ℚ) = n := by rw [Nat.cast_natAbs, abs_of_pos hn0]
      unfold magnitude
      rw [ha', hn', ← h]
    have hsign : signOf n = .positive := if_neg (not_lt.2 hn0.le)
    rw [Int.compare_eq_gt.2 ha, whole_of_ne_zero hn0.ne']
    simp only [hsign]
    apply round_exact .positive (legal_whole hn0.ne' hn)
    rw [habs, magnitude_whole hn0.ne' hn]

/-- A lower exponent makes the mantissa longer and the number no other. -/
theorem signed_decrease (s : Sign) (m : Nat) {e t : Int} (h : t ≤ e) :
    ((s.apply ((m <<< (e - t).toNat : Nat) : Int) : Int) : ℚ) * 2 ^ t = signed s m e := by
  have hscale := magnitude_scale m (e - t).toNat t
  rw [show t + ((e - t).toNat : Int) = e by omega] at hscale
  unfold magnitude at hscale
  unfold signed
  cases s with
  | positive =>
    simp only [Sign.apply]
    exact_mod_cast hscale
  | negative =>
    simp only [Sign.apply, Int.cast_neg, neg_mul, neg_inj]
    exact_mod_cast hscale

/-! ## Sums -/

theorem add_whole {i j : Int} (hi : i.natAbs < 2 ^ 53) (hj : j.natAbs < 2 ^ 53)
    (h : (i + j).natAbs < 2 ^ 53) :
    UnpackedFloat.add Format.binary64 (whole i) (whole j) = whole (i + j) := by
  by_cases hi0 : i = 0
  · subst hi0
    rw [zero_add, whole_zero]
    by_cases hj0 : j = 0
    · subst hj0
      rfl
    · rw [whole_of_ne_zero hj0]
      rfl
  by_cases hj0 : j = 0
  · subst hj0
    rw [add_zero, whole_zero, whole_of_ne_zero hi0]
    rfl
  rw [whole_of_ne_zero hi0, whole_of_ne_zero hj0]
  apply normalize_whole h
  rw [Int.cast_add, Int.cast_add, add_mul, signed_decrease _ _ (min_le_left _ _),
    signed_decrease _ _ (min_le_right _ _), signed_whole hi0 hi, signed_whole hj0 hj]

theorem neg_whole {n : Int} (h : n ≠ 0) :
    UnpackedFloat.neg (whole n) = whole (-n) := by
  have hsign : -signOf n = signOf (-n) := by
    unfold signOf
    rcases lt_or_gt_of_ne h with hneg | hpos
    · rw [if_pos hneg, if_neg (by omega)]
      rfl
    · rw [if_neg (by omega), if_pos (by omega)]
      rfl
  rw [whole_of_ne_zero h, whole_of_ne_zero (neg_ne_zero.2 h)]
  simp only [UnpackedFloat.neg, hsign, Int.natAbs_neg]

/-! ## Doubles of integers -/

theorem unpack_pack_whole {n : Int} (hn : n.natAbs < 2 ^ 53) :
    (Float.Model.pack (whole n)).unpack = whole n := by
  by_cases h : n = 0
  · subst h
    rfl
  · rw [whole_of_ne_zero h]
    exact unpack_pack_finite _ (legal_whole h hn)

theorem unpack_ofNat {n : Nat} (hn : n < 2 ^ 53) : (Float.ofNat n).toModel.unpack = whole n := by
  have hone : (powerOfTen 0 (by decide)).toModel.unpack =
      .finite .positive (2 ^ 52) (-52) (Nat.two_pow_pos 52) := rfl
  have hfast : Float.ofNat n = n.toUInt64.toFloat * powerOfTen 0 (by decide) := by
    change Float.ofScientific n false 0 = _
    unfold Float.ofScientific
    rw [dif_pos ⟨hn, by decide⟩]
    rfl
  rw [hfast]
  change (Float.Model.pack (UnpackedFloat.mul _ n.toUInt64.toFloat.toModel.unpack
    (powerOfTen 0 (by decide)).toModel.unpack)).unpack = _
  rw [hone]
  rcases Nat.eq_zero_or_pos n with rfl | hpos
  · rw [toFloat_zero]
    rfl
  · have hl := legal_nat hpos hn
    rw [toFloat_toUInt64 hpos hn, whole_of_ne_zero (by omega)]
    change (Float.Model.pack (roundWithAccuracy Format.binary64 .positive _
      (_ + -((52 : Nat) : Int)) .exact)).unpack = _
    rw [← sub_eq_add_neg, roundWithAccuracy_shift .positive hl 52, unpack_pack_finite _ hl]
    rfl

theorem unpack_ofInt {n : Int} (hn : n.natAbs < 2 ^ 53) :
    (Float.ofInt n).toModel.unpack = whole n := by
  cases n with
  | ofNat k => exact unpack_ofNat hn
  | negSucc k =>
    have hne : ((k + 1 : Nat) : Int) ≠ 0 := by omega
    change (Float.Model.pack (UnpackedFloat.neg (Float.ofNat (k + 1)).toModel.unpack)).unpack = _
    rw [unpack_ofNat (n := k + 1) hn, neg_whole hne]
    exact unpack_pack_whole hn

theorem ofInt_eq {n : Int} (hn : n.natAbs < 2 ^ 53) :
    Float.ofInt n = .ofModel (.pack (whole n)) := by
  rw [← unpack_ofInt hn, pack_unpack]

/-- Sums of integers are exact below `2 ^ 53`. -/
theorem ofInt_add {i j : Int} (hi : i.natAbs < 2 ^ 53) (hj : j.natAbs < 2 ^ 53)
    (h : (i + j).natAbs < 2 ^ 53) : Float.ofInt i + Float.ofInt j = Float.ofInt (i + j) := by
  rw [ofInt_eq h, ← add_whole hi hj h, ← unpack_ofInt hi, ← unpack_ofInt hj]
  rfl

theorem lt_iff {x y : Float} :
    x < y ↔ UnpackedFloat.lt x.toModel.unpack y.toModel.unpack = true := decide_eq_true_iff

theorem apply_signOf (n : Int) : (signOf n).apply n.natAbs = n := by
  unfold signOf
  rcases lt_or_ge n 0 with h | h
  · rw [if_pos h]
    simp only [Sign.apply]
    omega
  · rw [if_neg (not_lt.2 h)]
    simp only [Sign.apply]
    omega

/-- The double of an integer is read as that integer. -/
theorem toInt?_ofInt {n : Int} (hn : n.natAbs < 2 ^ 53) : toInt? (Float.ofInt n) = some n := by
  have hunpack := unpack_ofInt hn
  by_cases h : n = 0
  · subst h
    rfl
  · rw [whole_of_ne_zero h] at hunpack
    have hwhole := (magnitude_eq_iff _ _ _).1 (magnitude_whole h hn)
    rw [toInt?_eq hunpack, hwhole, Nat.mul_mod_left, if_pos rfl,
      Nat.mul_div_cancel _ (Nat.two_pow_pos _), apply_signOf]

end Double

/-! ## Cells of integers -/

namespace Cell

theorem value_ofInt {n : Int} (hn : n.natAbs < 2 ^ 53) :
    (Cell.mk (Float.ofInt n)).value = .int (Int64.ofInt n) :=
  Value.narrow_of_toInt? (Double.toInt?_ofInt hn) (by omega)

theorem add_ofInt {i : Int} {n : Int64} (hi : i.natAbs < 2 ^ 53) (hn : n.toInt.natAbs < 2 ^ 53)
    (h : (i + n.toInt).natAbs < 2 ^ 53) :
    (Cell.mk (Float.ofInt i)).add (some (.int n)) = .ok ⟨Float.ofInt (i + n.toInt)⟩ := by
  rw [← Double.ofInt_add hi hn h]
  rfl

end Cell
end PageTemplate
