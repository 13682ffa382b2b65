import PageTemplate.Number.Decimal
import PageTemplate.Proofs.Number.Exact
import Mathlib.Tactic.IntervalCases

/-! Which double a decimal is read as. A decimal with places that is the value of a double is
read as that double, and a decimal without places is read as a whole number. -/
namespace PageTemplate.Double

open Float.Model Float.Model.UnpackedFloat

/-- Whole multiples of powers of two compared without fractions. -/
theorem magnitude_eq_iff (m n : Nat) (e : Int) :
    magnitude m e = n ↔ m * 2 ^ e.toNat = n * 2 ^ (-e).toNat := by
  have h : magnitude m e * 2 ^ (-e).toNat = (m * 2 ^ e.toNat : Nat) := by
    unfold magnitude
    rw [mul_assoc, ← zpow_natCast, ← zpow_add₀ (by norm_num),
      show e + ((-e).toNat : Int) = (e.toNat : Int) by omega]
    push_cast
    rw [zpow_natCast]
  have hp : (2 : ℚ) ^ (-e).toNat ≠ 0 := pow_ne_zero _ (by norm_num)
  constructor
  · intro hv
    rw [hv] at h
    exact_mod_cast h.symm
  · intro hv
    rw [hv] at h
    push_cast at h
    exact mul_right_cancel₀ hp h

theorem magnitude_zero (n : Nat) : magnitude n 0 = n := by simp [magnitude]

/-- The legal form of a positive integer below `2 ^ 53`. -/
theorem legal_nat {n : Nat} (hn : 0 < n) (h : n < 2 ^ 53) :
    Legal (n * 2 ^ (52 - n.log2)) (n.log2 - 52) := by
  have hl : n.log2 < 53 := (Nat.log2_lt hn.ne').2 h
  have hp : 0 < n * 2 ^ (52 - n.log2) := Nat.mul_pos hn (Nat.two_pow_pos _)
  have hlog : (n * 2 ^ (52 - n.log2)).log2 = 52 := by rw [log2_mul_two_pow hn]; omega
  have hb := (Nat.log2_eq_iff hp.ne').1 hlog
  exact ⟨hp, hb.2, by omega, by omega, Or.inl hb.1⟩

theorem magnitude_legal_nat {n : Nat} (h : n.log2 ≤ 52) :
    magnitude (n * 2 ^ (52 - n.log2)) (n.log2 - 52) = n := by
  rw [← magnitude_zero n, ← magnitude_shift n (52 - n.log2) 0]
  congr 1
  omega

theorem toFloat_toUInt64 {n : Nat} (hn : 0 < n) (h : n < 2 ^ 53) :
    n.toUInt64.toFloat.toModel.unpack =
      .finite .positive (n * 2 ^ (52 - n.log2)) (n.log2 - 52) (legal_nat hn h).pos := by
  have hl : n.log2 < 53 := (Nat.log2_lt hn.ne').2 h
  have ht : n.toUInt64.toNat = n := by
    rw [Nat.toUInt64_eq, UInt64.toNat_ofNat', Nat.mod_eq_of_lt (by omega)]
  have hr : UnpackedFloat.ofUInt64 Format.binary64 n.toUInt64 =
      .finite .positive (n * 2 ^ (52 - n.log2)) (n.log2 - 52) (legal_nat hn h).pos := by
    unfold UnpackedFloat.ofUInt64 UnpackedFloat.ofNat UnpackedFloat.ofInt UnpackedFloat.normalize
    rw [ht, Int.compare_eq_gt.2 (by omega)]
    apply round_exact .positive (legal_nat hn h)
    rw [magnitude_legal_nat (by omega)]
    exact magnitude_zero n
  change (Float.Model.pack (UnpackedFloat.ofUInt64 Format.binary64 n.toUInt64)).unpack = _
  rw [hr, unpack_pack_finite .positive (legal_nat hn h)]

theorem toFloat_zero : (0 : Nat).toUInt64.toFloat.toModel.unpack = .zero .positive := rfl

/-- Whether an unpacked double is the positive integer `n`. -/
def isNat (n : Nat) : UnpackedFloat → Bool
  | .finite .positive m e _ => m * 2 ^ e.toNat == n * 2 ^ (-e).toNat
  | _ => false

/-- The double for a small power of ten. -/
def powerOfTen (k : Nat) (hk : k < Float.exactlyRepresentablePowersOfTen.size) : Float :=
  Float.exactlyRepresentablePowersOfTen[k]

theorem isNat_powerOfTen (k : Fin 23) :
    isNat (10 ^ k.val) (powerOfTen k.val k.isLt).toModel.unpack := by
  revert k
  decide +kernel

theorem magnitude_eq_of_isNat {n : Nat} {u : UnpackedFloat} (h : isNat n u) :
    ∃ (m : Nat) (e : Int) (hm : 0 < m), u = .finite .positive m e hm ∧ magnitude m e = n := by
  unfold isNat at h
  split at h
  · rename_i m e hm
    refine ⟨m, e, hm, rfl, ?_⟩
    have hn : m * 2 ^ e.toNat = n * 2 ^ (-e).toNat := by simpa using h
    rwa [magnitude_eq_iff]
  · cases h

theorem unpack_powerOfTen {k : Nat} (hk : k < Float.exactlyRepresentablePowersOfTen.size) :
    ∃ (c : Nat) (d : Int) (hc : 0 < c),
      (powerOfTen k hk).toModel.unpack = .finite .positive c d hc ∧
        magnitude c d = (10 ^ k : Nat) :=
  magnitude_eq_of_isNat (isNat_powerOfTen ⟨k, hk⟩)

/-! ## Decimals with places -/

theorem ofScientific_exact {n k m : Nat} {e : Int} (hn : 0 < n) (hk : 0 < k) (hk' : k ≤ 2048)
    (h : Legal m e) (hv : (n : ℚ) = magnitude m e * 10 ^ k) :
    UnpackedFloat.ofScientific Format.binary64 n (-k) = .finite .positive m e h.pos := by
  have hb : (2 : Int) ^ Format.binary64.exponentBits = 2048 := by decide
  have hp : 0 < 10 ^ k := Nat.pow_pos (by decide)
  unfold UnpackedFloat.ofScientific
  rw [hb, dif_neg hn.ne', if_neg (by omega), if_neg (by omega), if_neg (by omega)]
  simp only [neg_neg, Int.toNat_natCast]
  apply div_exact hn hp h
  rw [magnitude_zero, magnitude_zero, hv]
  push_cast
  rfl

/-- A decimal with places that is the value of a positive double is read as that double. -/
theorem toFloat_exact {n k m : Nat} {e : Int} (hk : 0 < k) (hk' : k ≤ 2048) (h : Legal m e)
    (hv : (n : ℚ) = magnitude m e * 10 ^ k) :
    (Decimal.mk n (-k)).toFloat = .ofModel (.pack (.finite .positive m e h.pos)) := by
  have hn : 0 < n := by
    have hp : (0 : ℚ) < n := by
      rw [hv]
      exact mul_pos (magnitude_pos e h.pos) (by positivity)
    exact_mod_cast hp
  have hneg : decide ((-k : Int) < 0) = true := by simpa using hk
  unfold Decimal.toFloat Float.ofScientific
  simp only [hneg, Int.natAbs_neg, Int.natAbs_natCast, if_true]
  split
  · rename_i hfast
    obtain ⟨c, d, hc, hd, hcd⟩ := unpack_powerOfTen (Nat.lt_succ_of_le hfast.2)
    have hl := legal_nat hn hfast.1
    change Float.ofModel (.pack (UnpackedFloat.div _ n.toUInt64.toFloat.toModel.unpack
      (powerOfTen k (Nat.lt_succ_of_le hfast.2)).toModel.unpack)) = _
    rw [toFloat_toUInt64 hn hfast.1, hd, div_exact hl.pos hc h]
    have hlog : n.log2 ≤ 52 := by
      have := (Nat.log2_lt hn.ne').2 hfast.1
      omega
    rw [magnitude_legal_nat hlog, hcd, hv]
    push_cast
    rfl
  · have hr : Int.negOfNat k = -k := Int.negOfNat_eq
    rw [hr]
    change Float.ofModel (.pack (UnpackedFloat.ofScientific _ n (-k))) = _
    rw [ofScientific_exact hn hk hk' h hv]

/-! ## Decimals without places -/

/-- A product that is a whole number is rounded to a whole number. -/
theorem mul_whole {a c n : Nat} {b d : Int} (ha : 0 < a) (hc : 0 < c)
    (hlog : 52 ≤ (a * c).log2) (hv : magnitude a b * magnitude c d = n) :
    ∃ (m : Nat) (e : Int) (hm : 0 < m), UnpackedFloat.mul Format.binary64
      (.finite .positive a b ha) (.finite .positive c d hc) = .finite .positive m e hm ∧
      (Legal m e ∧ magnitude m e = n ∨ 2 ^ 52 ≤ m ∧ m < 2 ^ 53 ∧ 1 ≤ e) := by
  rw [← magnitude_mul] at hv
  have hac : 0 < a * c := Nat.mul_pos ha hc
  have hn : 0 < n := by
    have hp := magnitude_pos (b + d) hac
    rw [hv] at hp
    exact_mod_cast hp
  have heq := log2_add_eq hac hn (hv.trans (magnitude_zero n).symm)
  change ∃ (m : Nat) (e : Int) (hm : 0 < m), roundWithAccuracy Format.binary64 .positive (a * c)
    (b + d) .exact = .finite .positive m e hm ∧ _
  by_cases hsmall : n < 2 ^ 53
  · have hl := legal_nat hn hsmall
    have hn52 : n.log2 ≤ 52 := by
      have := (Nat.log2_lt hn.ne').2 hsmall
      omega
    have hm := magnitude_legal_nat hn52
    have hround := roundWithAccuracy_exact .positive hl (by omega) (hv.trans hm.symm)
    exact ⟨_, _, hl.pos, hround, Or.inl ⟨hl, hm⟩⟩
  · have hn53 : 53 ≤ n.log2 := (Nat.le_log2 hn.ne').2 (by omega)
    obtain ⟨m, e, hm, hr, hlo, hhi, he⟩ :=
      roundWithAccuracy_large .positive .exact hlog (by omega : -1074 ≤ (a * c).log2 + (b + d) - 52)
    exact ⟨m, e, hm, hr, Or.inr ⟨hlo, hhi, by omega⟩⟩

theorem magnitude_of_nonneg (m : Nat) {e : Int} (he : 0 ≤ e) :
    magnitude m e = (m * 2 ^ e.toNat : Nat) := by
  rw [magnitude_eq_iff]
  simp [show (-e).toNat = 0 by omega]

/-- A product that is a whole number unpacks as a whole number, if it is finite. -/
theorem whole_of_mul {a c n m : Nat} {b d e : Int} {s : Sign} {hm : 0 < m} (ha : 0 < a)
    (hc : 0 < c) (hlog : 52 ≤ (a * c).log2) (hv : magnitude a b * magnitude c d = n)
    (h : (Float.Model.pack (UnpackedFloat.mul Format.binary64 (.finite .positive a b ha)
      (.finite .positive c d hc))).unpack = .finite s m e hm) :
    ∃ n : Nat, magnitude m e = n := by
  obtain ⟨m', e', hm', hr, hcase⟩ := mul_whole ha hc hlog hv
  rw [hr] at h
  rcases hcase with ⟨hl, hn⟩ | ⟨hlo, hhi, he⟩
  · rw [unpack_pack_finite _ hl] at h
    cases h
    exact ⟨n, hn⟩
  · rcases Int.lt_or_le 971 e' with hmax | hmax
    · rw [pack_overflow _ hm' hmax, unpack_pack_infinity] at h
      cases h
    · have hl : Legal m' e' := ⟨hm', hhi, by omega, hmax, Or.inl hlo⟩
      rw [unpack_pack_finite _ hl] at h
      cases h
      exact ⟨_, magnitude_of_nonneg m (by omega)⟩

theorem whole_of_ofScientific {n k m : Nat} {e : Int} {s : Sign} {hm : 0 < m}
    (h : (Float.Model.ofScientific n k).unpack = .finite s m e hm) :
    ∃ n : Nat, magnitude m e = n := by
  have hb : (2 : Int) ^ Format.binary64.exponentBits = 2048 := by decide
  have h53 : Format.binary64.mantissaBits = 53 := by decide
  unfold Float.Model.ofScientific UnpackedFloat.ofScientific at h
  rw [hb] at h
  split at h
  · rw [unpack_pack_zero] at h
    cases h
  · rename_i hn
    have hpos : 0 < n := Nat.pos_of_ne_zero hn
    split at h
    · rw [unpack_pack_infinity] at h
      cases h
    · rw [if_neg (by omega), if_pos (by omega)] at h
      have hp : 0 < 10 ^ (k : Int).toNat := Nat.pow_pos (by decide)
      have hlog : 52 ≤ (n <<< Format.binary64.mantissaBits * 10 ^ (k : Int).toNat).log2 := by
        rw [h53, Nat.shiftLeft_eq, Nat.mul_right_comm, log2_mul_two_pow (Nat.mul_pos hpos hp)]
        omega
      refine whole_of_mul (n := n * 10 ^ k) _ hp hlog ?_ h
      rw [magnitude_zero, magnitude_scale, h53]
      simp [magnitude_zero]

theorem whole_of_fast {n k m : Nat} {e : Int} {s : Sign} {hm : 0 < m}
    (hfast : n < 2 ^ 53 ∧ k ≤ 22)
    (h : (n.toUInt64.toFloat * powerOfTen k (Nat.lt_succ_of_le hfast.2)).toModel.unpack =
      .finite s m e hm) :
    ∃ n : Nat, magnitude m e = n := by
  obtain ⟨c, d, hc, hd, hcd⟩ := unpack_powerOfTen (Nat.lt_succ_of_le hfast.2)
  change (Float.Model.pack (UnpackedFloat.mul _ n.toUInt64.toFloat.toModel.unpack
    (powerOfTen k (Nat.lt_succ_of_le hfast.2)).toModel.unpack)).unpack = _ at h
  rw [hd] at h
  rcases Nat.eq_zero_or_pos n with rfl | hn
  · rw [toFloat_zero] at h
    change (Float.Model.pack (.zero .positive)).unpack = _ at h
    rw [unpack_pack_zero] at h
    cases h
  · have hl := legal_nat hn hfast.1
    have hn52 : n.log2 ≤ 52 := by
      have := (Nat.log2_lt hn.ne').2 hfast.1
      omega
    have hlog : 52 ≤ (n * 2 ^ (52 - n.log2) * c).log2 := by
      have h52 : 2 ^ 52 ≤ n * 2 ^ (52 - n.log2) := hl.full.resolve_right (by omega)
      rw [Nat.le_log2 (Nat.mul_pos hl.pos hc).ne']
      exact h52.trans (Nat.le_mul_of_pos_right _ hc)
    rw [toFloat_toUInt64 hn hfast.1] at h
    refine whole_of_mul (n := n * 10 ^ k) _ hc hlog ?_ h
    rw [magnitude_legal_nat hn52, hcd]
    push_cast
    rfl

/-- A decimal without places is read as a whole number, if not as an infinity. -/
theorem whole_of_toFloat {p : Decimal} (hp : 0 ≤ p.exponent) {s : Sign} {m : Nat} {e : Int}
    {hm : 0 < m} (h : p.toFloat.toModel.unpack = .finite s m e hm) :
    ∃ n : Nat, magnitude m e = n := by
  obtain ⟨n, x⟩ := p
  obtain ⟨k, rfl⟩ : ∃ k : Nat, x = k := ⟨x.toNat, by simp only at hp; omega⟩
  have hneg : decide ((k : Int) < 0) = false := by simp
  unfold Decimal.toFloat Float.ofScientific at h
  simp only [hneg, Int.natAbs_natCast] at h
  split at h
  · rename_i hfast
    exact whole_of_fast hfast h
  · exact whole_of_ofScientific h

end PageTemplate.Double
