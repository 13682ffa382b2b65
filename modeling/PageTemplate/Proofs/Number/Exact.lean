import PageTemplate.Proofs.Number.Binary
import Mathlib.Tactic.FieldSimp
import Mathlib.Tactic.NormNum
import Mathlib.Tactic.Positivity
import Mathlib.Tactic.Ring

/-! Rounding that has nothing to round. When the exact result of an operation is itself in
legal form, the operation gives that form. -/
namespace PageTemplate.Double

open Float.Model Float.Model.UnpackedFloat

/-- The rational number that a mantissa and an exponent stand for. -/
def magnitude (m : Nat) (e : Int) : ℚ := m * 2 ^ e

theorem magnitude_shift (m j : Nat) (e : Int) : magnitude (m * 2 ^ j) (e - j) = magnitude m e := by
  unfold magnitude
  rw [zpow_sub₀ (by norm_num)]
  push_cast
  rw [zpow_natCast]
  field_simp

theorem magnitude_mul (a c : Nat) (b d : Int) :
    magnitude (a * c) (b + d) = magnitude a b * magnitude c d := by
  unfold magnitude
  rw [zpow_add₀ (by norm_num)]
  push_cast
  ring

theorem magnitude_inj {a b : Nat} {e : Int} (h : magnitude a e = magnitude b e) : a = b := by
  unfold magnitude at h
  have hp : (2 : ℚ) ^ e ≠ 0 := zpow_ne_zero _ (by norm_num)
  exact_mod_cast mul_right_cancel₀ hp h

/-- Of two forms of one number the one with the lower exponent has the longer mantissa. -/
theorem eq_shift_of_magnitude_eq {a m : Nat} {b e : Int} (hb : b ≤ e)
    (h : magnitude a b = magnitude m e) : a = m * 2 ^ (e - b).toNat := by
  apply magnitude_inj (e := b)
  rw [h]
  have := magnitude_shift m (e - b).toNat e
  rw [← this]
  congr 1
  omega

theorem two_pow_le_magnitude {m : Nat} (e : Int) (hm : 0 < m) :
    (2 : ℚ) ^ (m.log2 + e) ≤ magnitude m e := by
  unfold magnitude
  rw [zpow_add₀ (by norm_num), zpow_natCast]
  have h : 2 ^ m.log2 ≤ m := Nat.log2_self_le hm.ne'
  have hq : (2 : ℚ) ^ m.log2 ≤ m := by exact_mod_cast h
  exact mul_le_mul_of_nonneg_right hq (zpow_nonneg (by norm_num) e)

theorem magnitude_lt_two_pow (m : Nat) (e : Int) : magnitude m e < (2 : ℚ) ^ (m.log2 + 1 + e) := by
  unfold magnitude
  rw [zpow_add₀ (by norm_num)]
  have h : m < 2 ^ (m.log2 + 1) := Nat.lt_log2_self
  have hq : (m : ℚ) < 2 ^ (m.log2 + 1 : Int) := by exact_mod_cast h
  exact mul_lt_mul_of_pos_right hq (zpow_pos (by norm_num) e)

theorem magnitude_pos {m : Nat} (e : Int) (hm : 0 < m) : 0 < magnitude m e :=
  lt_of_lt_of_le (zpow_pos (by norm_num) _) (two_pow_le_magnitude e hm)

/-! ## Target exponents -/

theorem targetExponent_eq (m : Nat) (e : Int) :
    Format.binary64.targetExponent (totalExponent m e) = max (m.log2 + e - 52) (-1074) := by
  unfold Format.targetExponent totalExponent
  have hb : (Format.binary64.mantissaBits : Int) = 53 := by decide
  have hm : Format.binary64.minExponent = -1074 := by decide
  rw [hb, hm]
  omega

theorem Legal.log2_le {m : Nat} {e : Int} (h : Legal m e) : m.log2 ≤ 52 := by
  have := (Nat.log2_lt h.pos.ne').2 h.lt
  omega

theorem Legal.targetExponent {m : Nat} {e : Int} (h : Legal m e) :
    Format.binary64.targetExponent (totalExponent m e) = e := by
  rw [targetExponent_eq]
  have := h.log2_le
  have := h.le_exponent
  rcases h.full with hm | rfl
  · have := (Nat.le_log2 h.pos.ne').2 hm
    omega
  · omega

theorem log2_mul_two_pow {m : Nat} (hm : 0 < m) (j : Nat) : (m * 2 ^ j).log2 = m.log2 + j := by
  have hp : 0 < m * 2 ^ j := Nat.mul_pos hm (Nat.two_pow_pos j)
  rw [Nat.log2_eq_iff hp.ne']
  have h1 : 2 ^ m.log2 ≤ m := Nat.log2_self_le hm.ne'
  have h2 : m < 2 ^ (m.log2 + 1) := Nat.lt_log2_self
  constructor
  · rw [Nat.pow_add]
    exact Nat.mul_le_mul_right _ h1
  · rw [show m.log2 + j + 1 = m.log2 + 1 + j by omega, Nat.pow_add]
    exact Nat.mul_lt_mul_of_pos_right h2 (Nat.two_pow_pos j)

theorem totalExponent_shift {m : Nat} (hm : 0 < m) (j : Nat) (e : Int) :
    totalExponent (m * 2 ^ j) (e - j) = totalExponent m e := by
  unfold totalExponent
  rw [log2_mul_two_pow hm]
  omega

/-! ## Shifting -/

theorem shiftRight_exact (m j : Nat) :
    (⟨m * 2 ^ j, false, false⟩ : ExtendedMantissa) >>> j = ⟨m, false, false⟩ := by
  induction j generalizing m with
  | zero => simp [HShiftRight.hShiftRight, Nat.repeat]
  | succ j ih =>
    have hm : m * 2 ^ (j + 1) = m * 2 * 2 ^ j := by rw [Nat.pow_succ]; ring
    change ((⟨m * 2 ^ (j + 1), false, false⟩ : ExtendedMantissa) >>> j).shiftRightOne = _
    rw [hm, ih]
    simp [ExtendedMantissa.shiftRightOne]

theorem shiftRight_mantissa (em : ExtendedMantissa) (j : Nat) :
    (em >>> j).mantissa = em.mantissa / 2 ^ j := by
  induction j with
  | zero => simp [HShiftRight.hShiftRight, Nat.repeat]
  | succ j ih =>
    change (em >>> j).mantissa / 2 = _
    rw [ih, Nat.div_div_eq_div_mul, Nat.pow_succ]

theorem ofMantissaAndAccuracy_mantissa (m : Nat) (a : Accuracy) :
    (ExtendedMantissa.ofMantissaAndAccuracy m a).mantissa = m := by
  rcases a with _ | o
  · rfl
  · cases o <;> rfl

/-- Shifting undoes a lengthening of the mantissa, and no bit is lost. -/
theorem shiftToTargetExponent_exact {m : Nat} {e : Int} (hm : 0 < m)
    (ht : Format.binary64.targetExponent (totalExponent m e) = e) (j : Nat) :
    shiftToTargetExponent Format.binary64 (m * 2 ^ j) (e - j) .exact = (⟨m, false, false⟩, e) := by
  have hk : (e - (e - j)).toNat = j := by omega
  unfold shiftToTargetExponent shiftToExponent
  rw [totalExponent_shift hm, ht]
  simp only [hk, ExtendedMantissa.ofMantissaAndAccuracy, shiftRight_exact]
  congr 1
  omega

theorem shiftToTargetExponent_self {m : Nat} {e : Int} (hm : 0 < m)
    (ht : Format.binary64.targetExponent (totalExponent m e) = e) :
    shiftToTargetExponent Format.binary64 m e .exact = (⟨m, false, false⟩, e) := by
  simpa using shiftToTargetExponent_exact hm ht 0

theorem roundedMantissa_bounds (em : ExtendedMantissa) :
    em.mantissa ≤ em.roundedMantissa ∧ em.roundedMantissa ≤ em.mantissa + 1 := by
  obtain ⟨m, r, t⟩ := em
  cases r <;> cases t <;> simp only [ExtendedMantissa.roundedMantissa,
    ExtendedMantissa.accuracy, Accuracy.roundToNearestEven] <;> omega

/-! ## Rounding -/

theorem roundWithAccuracy_shift (s : Sign) {m : Nat} {e : Int} (h : Legal m e) (j : Nat) :
    roundWithAccuracy Format.binary64 s (m * 2 ^ j) (e - j) .exact = .finite s m e h.pos := by
  have h1 := shiftToTargetExponent_exact h.pos h.targetExponent j
  have h2 := shiftToTargetExponent_self h.pos h.targetExponent
  have hr : (⟨m, false, false⟩ : ExtendedMantissa).roundedMantissa = m := rfl
  unfold roundWithAccuracy
  simp only [h1, hr, h2]
  rw [dif_neg h.pos.ne']

/-- A number in legal form is rounded to itself. -/
theorem roundWithAccuracy_exact (s : Sign) {a m : Nat} {b e : Int} (h : Legal m e) (hb : b ≤ e)
    (hv : magnitude a b = magnitude m e) :
    roundWithAccuracy Format.binary64 s a b .exact = .finite s m e h.pos := by
  have hr := roundWithAccuracy_shift s h (e - b).toNat
  rw [← eq_shift_of_magnitude_eq hb hv] at hr
  rw [← hr]
  congr 1
  omega

theorem log2_add_eq {a m : Nat} {b e : Int} (ha : 0 < a) (hm : 0 < m)
    (hv : magnitude a b = magnitude m e) : (a.log2 : Int) + b = m.log2 + e := by
  have h1 := lt_of_le_of_lt (two_pow_le_magnitude b ha) (hv ▸ magnitude_lt_two_pow m e)
  have h2 := lt_of_le_of_lt (two_pow_le_magnitude e hm) (hv ▸ magnitude_lt_two_pow a b)
  rw [zpow_lt_zpow_iff_right₀ (by norm_num)] at h1 h2
  omega

theorem pos_of_magnitude_eq {a m : Nat} {b e : Int} (hm : 0 < m)
    (hv : magnitude a b = magnitude m e) : 0 < a := by
  rcases Nat.eq_zero_or_pos a with rfl | ha
  · have := magnitude_pos e hm
    rw [← hv] at this
    simp [magnitude] at this
  · exact ha

theorem round_exact (s : Sign) {a m : Nat} {b e : Int} (h : Legal m e)
    (hv : magnitude a b = magnitude m e) :
    UnpackedFloat.round Format.binary64 s a b = .finite s m e h.pos := by
  have ha := pos_of_magnitude_eq h.pos hv
  have hlog := log2_add_eq ha h.pos hv
  have ht : Format.binary64.targetExponent (totalExponent a b) = e := by
    rw [← h.targetExponent, targetExponent_eq, targetExponent_eq, hlog]
  unfold UnpackedFloat.round decreaseExponent
  simp only [ht, Nat.shiftLeft_eq]
  apply roundWithAccuracy_exact s h (by omega)
  rw [magnitude_shift, hv]

theorem leading_bits_bounds {a k : Nat} (ha : 0 < a) (hk : a.log2 = 52 + k) :
    2 ^ 52 ≤ a / 2 ^ k ∧ a / 2 ^ k < 2 ^ 53 := by
  constructor
  · rw [Nat.le_div_iff_mul_le (Nat.two_pow_pos k), ← Nat.pow_add, ← hk]
    exact Nat.log2_self_le ha.ne'
  · rw [Nat.div_lt_iff_lt_mul (Nat.two_pow_pos k), ← Nat.pow_add,
      show 53 + k = a.log2 + 1 by omega]
    exact Nat.lt_log2_self

/-- A number past the middle of the exponents is rounded to 53 bits; a carry moves the
exponent up by one. -/
theorem roundWithAccuracy_large (s : Sign) {a : Nat} {b : Int} (acc : Accuracy)
    (ha : 52 ≤ a.log2) (hb : -1074 ≤ a.log2 + b - 52) :
    ∃ (m : Nat) (e : Int) (hm : 0 < m), roundWithAccuracy Format.binary64 s a b acc =
      .finite s m e hm ∧ 2 ^ 52 ≤ m ∧ m < 2 ^ 53 ∧ a.log2 + b - 52 ≤ e := by
  have hpos : 0 < a := by
    rcases Nat.eq_zero_or_pos a with rfl | h
    · simp at ha
    · exact h
  obtain ⟨k, hk⟩ : ∃ k : Nat, a.log2 = 52 + k := ⟨a.log2 - 52, by omega⟩
  have ht : Format.binary64.targetExponent (totalExponent a b) = b + k := by
    rw [targetExponent_eq]
    omega
  have hk' : (b + k - b).toNat = k := by omega
  -- the first shift leaves 53 bits
  generalize hem : ExtendedMantissa.ofMantissaAndAccuracy a acc >>> k = em
  have hfirst : shiftToTargetExponent Format.binary64 a b acc = (em, b + k) := by
    unfold shiftToTargetExponent shiftToExponent
    simp only [ht, hk', hem]
  have hmant : em.mantissa = a / 2 ^ k := by
    rw [← hem, shiftRight_mantissa, ofMantissaAndAccuracy_mantissa]
  obtain ⟨hlo, hhi⟩ := leading_bits_bounds hpos hk
  have hround := roundedMantissa_bounds em
  rw [hmant] at hround
  unfold roundWithAccuracy
  simp only [hfirst]
  by_cases hc : em.roundedMantissa < 2 ^ 53
  · have hl : em.roundedMantissa.log2 = 52 :=
      (Nat.log2_eq_iff (by omega)).2 ⟨by omega, hc⟩
    have h2 := shiftToTargetExponent_self (m := em.roundedMantissa) (e := b + k) (by omega)
      (by rw [targetExponent_eq, hl]; omega)
    simp only [h2]
    rw [dif_neg (by omega)]
    exact ⟨_, _, by omega, rfl, by omega, hc, by omega⟩
  · have hr : em.roundedMantissa = 2 ^ 52 * 2 ^ 1 := by omega
    have hl : (2 ^ 52 : Nat).log2 = 52 := by decide
    have h2 := shiftToTargetExponent_exact (m := 2 ^ 52) (e := b + k + 1) (by decide)
      (by rw [targetExponent_eq, hl]; omega) 1
    rw [show b + k + 1 - (1 : Nat) = b + k by omega] at h2
    simp only [hr, h2]
    rw [dif_neg (by decide)]
    exact ⟨_, _, by decide, rfl, by decide, by decide, by omega⟩

/-! ## Quotients -/

theorem magnitude_scale (a k : Nat) (b : Int) : magnitude (a <<< k) b = magnitude a (b + k) := by
  have h := magnitude_shift a k (b + k)
  rw [Nat.shiftLeft_eq, ← h]
  congr 1
  omega

theorem log2_add_lt {a c m : Nat} {b d e : Int} (ha : 0 < a) (hm : 0 < m) (hc : 0 < c)
    (hv : magnitude a b = magnitude m e * magnitude c d) :
    (a.log2 : Int) + b < m.log2 + 1 + e + (c.log2 + 1 + d) := by
  have h1 := two_pow_le_magnitude b ha
  have h2 := magnitude_lt_two_pow m e
  have h3 := magnitude_lt_two_pow c d
  have h4 := mul_lt_mul'' h2 h3 (magnitude_pos e hm).le (magnitude_pos d hc).le
  rw [← zpow_add₀ (by norm_num), ← hv] at h4
  exact (zpow_lt_zpow_iff_right₀ (by norm_num : (1 : ℚ) < 2)).1 (lt_of_le_of_lt h1 h4)

/-- A quotient that has a legal form is that form. -/
theorem div_exact {a c m : Nat} {b d e : Int} (ha : 0 < a) (hc : 0 < c) (h : Legal m e)
    (hv : magnitude a b = magnitude m e * magnitude c d) :
    UnpackedFloat.div Format.binary64 (.finite .positive a b ha) (.finite .positive c d hc) =
      .finite .positive m e h.pos := by
  have hlog := h.log2_le
  have hlow := h.le_exponent
  -- the exponent of the quotient is that of the form, or one more
  have hle := log2_add_lt ha h.pos hc hv
  obtain ⟨t, ht, hte⟩ : ∃ t, min (b - d) (Format.binary64.targetExponent
      (totalExponent a b - totalExponent c d)) = t ∧ t ≤ e := by
    refine ⟨_, rfl, ?_⟩
    have hb : (Format.binary64.mantissaBits : Int) = 53 := by decide
    have hm : Format.binary64.minExponent = -1074 := by decide
    unfold Format.targetExponent totalExponent
    rw [hb, hm]
    omega
  have htb : t ≤ b - d := by omega
  -- on that exponent the quotient comes out even
  have hmul : a <<< (b - d - t).toNat = m * 2 ^ (e - t).toNat * c := by
    apply magnitude_inj (e := t + d)
    have h1 := magnitude_scale a (b - d - t).toNat (t + d)
    have h2 := magnitude_shift m (e - t).toNat e
    rw [show t + d + (b - d - t).toNat = b by omega] at h1
    rw [show e - (e - t).toNat = t by omega] at h2
    rw [h1, magnitude_mul, h2, hv]
  have hcore : divCore Format.binary64 a b c d = (m * 2 ^ (e - t).toNat, t, .exact) := by
    unfold divCore
    simp only [ht, hmul, Nat.mul_div_cancel _ hc, Nat.mul_mod_left]
    rfl
  unfold UnpackedFloat.div
  simp only [hcore]
  have hround := roundWithAccuracy_shift .positive h (e - t).toNat
  rw [show e - (e - t).toNat = t by omega] at hround
  exact hround

end PageTemplate.Double
