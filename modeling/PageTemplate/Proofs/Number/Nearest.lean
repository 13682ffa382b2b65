import PageTemplate.Proofs.Number.Integer
import PageTemplate.Proofs.Number.Rounding

/-! The double nearest to an integer. It is an integer too, and the sum and the difference of two
doubles that are integers are the doubles nearest to the exact ones. Rounding keeps the order, and
a sum goes up with every step that is not lost in the spacing of the doubles. -/
namespace PageTemplate

/-! ## Rounding quotients -/

section

variable {num den : Nat}

theorem roundHalfEven_one (n : Nat) : roundHalfEven n 1 = n := by
  simpa using roundHalfEven_exact n Nat.one_pos

/-- Only the quotient counts. -/
theorem roundHalfEven_mul_mul (num den : Nat) {c : Nat} (hc : 0 < c) :
    roundHalfEven (num * c) (den * c) = roundHalfEven num den := by
  unfold roundHalfEven
  dsimp only
  rw [Nat.mul_div_mul_right _ _ hc, Nat.mul_mod_mul_right, ← Nat.mul_assoc]
  simp only [Nat.mul_lt_mul_right hc, Nat.mul_left_inj hc.ne']

theorem div_le_roundHalfEven (num den : Nat) : num / den ≤ roundHalfEven num den := by
  unfold roundHalfEven
  dsimp only
  split <;> omega

theorem roundHalfEven_le_div_succ (num den : Nat) : roundHalfEven num den ≤ num / den + 1 := by
  unfold roundHalfEven
  dsimp only
  split <;> omega

theorem roundHalfEven_mono {m n : Nat} (h : m ≤ n) : roundHalfEven m den ≤ roundHalfEven n den := by
  rcases Nat.lt_or_eq_of_le (Nat.div_le_div_right (c := den) h) with hlt | heq
  · exact (roundHalfEven_le_div_succ m den).trans (hlt.trans_le (div_le_roundHalfEven n den))
  · -- with one quotient the larger remainder is the one that is rounded up
    have hm := Nat.div_add_mod m den
    have hn := Nat.div_add_mod n den
    rw [heq] at hm
    unfold roundHalfEven
    dsimp only
    rw [heq]
    split
    · rw [if_pos (by omega)]
    · split <;> omega

end

namespace Double

/-! ## Natural numbers -/

/-- How many bits of a natural number a double has no room for. -/
def excess (n : Nat) : Nat := n.log2 - 52

/-- The natural number of at most 53 significant bits nearest to another, a tie going to the even
one. -/
def nearestNat (n : Nat) : Nat := roundHalfEven n (2 ^ excess n) * 2 ^ excess n

section

variable {m n : Nat}

theorem excess_of_lt (h : n < 2 ^ 53) : excess n = 0 := by
  rcases Nat.eq_zero_or_pos n with rfl | hn
  · rfl
  · have := (Nat.log2_lt hn.ne').2 h
    unfold excess
    omega

theorem two_pow_le_of_excess (h : excess n ≠ 0) : 2 ^ (52 + excess n) ≤ n := by
  have hn : n ≠ 0 := by
    rintro rfl
    exact h rfl
  have hlog : 52 + excess n = n.log2 := by
    unfold excess at h ⊢
    omega
  rw [hlog]
  exact Nat.log2_self_le hn

theorem lt_two_pow_excess (n : Nat) : n < 2 ^ (53 + excess n) := by
  refine Nat.lt_of_lt_of_le Nat.lt_log2_self (Nat.pow_le_pow_right (by decide) ?_)
  unfold excess
  omega

theorem excess_mono (h : m ≤ n) : excess m ≤ excess n := by
  rcases Nat.eq_zero_or_pos m with rfl | hm
  · exact Nat.zero_le _
  · have hlog : m.log2 ≤ n.log2 := (Nat.le_log2 (by omega)).2 ((Nat.log2_self_le hm.ne').trans h)
    unfold excess
    omega

theorem excess_of_between {e : Nat} (hlow : 2 ^ (52 + e) ≤ n) (hhigh : n < 2 ^ (53 + e)) :
    excess n = e := by
  have hn : n ≠ 0 := by
    have := Nat.two_pow_pos (52 + e)
    omega
  have hle := (Nat.le_log2 hn).2 hlow
  have hlt := (Nat.log2_lt hn).2 hhigh
  unfold excess
  omega

theorem nearestNat_of_lt (h : n < 2 ^ 53) : nearestNat n = n := by
  unfold nearestNat
  rw [excess_of_lt h, Nat.pow_zero, roundHalfEven_one, Nat.mul_one]

/-- No more is lost than half of the last place. -/
theorem nearestNat_near (n : Nat) :
    2 * nearestNat n ≤ 2 * n + 2 ^ excess n ∧ 2 * n ≤ 2 * nearestNat n + 2 ^ excess n :=
  roundHalfEven_near n (Nat.two_pow_pos _)

theorem rounded_le (n : Nat) : roundHalfEven n (2 ^ excess n) ≤ 2 ^ 53 := by
  have hquot : n / 2 ^ excess n < 2 ^ 53 := by
    rw [Nat.div_lt_iff_lt_mul (Nat.two_pow_pos _), ← Nat.pow_add]
    exact lt_two_pow_excess n
  exact (roundHalfEven_le_div_succ n _).trans hquot

theorem le_rounded (h : excess n ≠ 0) : 2 ^ 52 ≤ roundHalfEven n (2 ^ excess n) := by
  have hquot : 2 ^ 52 ≤ n / 2 ^ excess n := by
    rw [Nat.le_div_iff_mul_le (Nat.two_pow_pos _), ← Nat.pow_add]
    exact two_pow_le_of_excess h
  exact hquot.trans (div_le_roundHalfEven n _)

theorem nearestNat_le_two_pow (n : Nat) : nearestNat n ≤ 2 ^ (53 + excess n) := by
  rw [nearestNat, Nat.pow_add]
  exact Nat.mul_le_mul_right _ (rounded_le n)

theorem two_pow_le_nearestNat (h : excess n ≠ 0) : 2 ^ (52 + excess n) ≤ nearestNat n := by
  rw [nearestNat, Nat.pow_add]
  exact Nat.mul_le_mul_right _ (le_rounded h)

theorem nearestNat_mono (h : m ≤ n) : nearestNat m ≤ nearestNat n := by
  rcases Nat.lt_or_eq_of_le (excess_mono h) with hlt | heq
  · -- a power of two stands between them
    calc nearestNat m
      _ ≤ 2 ^ (53 + excess m) := nearestNat_le_two_pow m
      _ ≤ 2 ^ (52 + excess n) := Nat.pow_le_pow_right (by decide) (by omega)
      _ ≤ nearestNat n := two_pow_le_nearestNat (by omega)
  · unfold nearestNat
    rw [heq]
    exact Nat.mul_le_mul_right _ (roundHalfEven_mono h)

theorem nearestNat_of_dvd (h : 2 ^ excess n ∣ n) : nearestNat n = n := by
  obtain ⟨c, hc⟩ := h
  have hexact := roundHalfEven_exact c (Nat.two_pow_pos (excess n))
  rw [Nat.mul_comm, ← hc] at hexact
  rw [nearestNat, hexact, Nat.mul_comm, ← hc]

/-- What has at most 53 significant bits is not changed. -/
theorem nearestNat_mul_two_pow (hm : m < 2 ^ 53) (k : Nat) :
    nearestNat (m * 2 ^ k) = m * 2 ^ k := by
  have hle : excess (m * 2 ^ k) ≤ k := by
    rcases Nat.eq_zero_or_pos m with rfl | hpos
    · simp [excess]
    · have hlog := (Nat.log2_lt hpos.ne').2 hm
      unfold excess
      rw [log2_mul_two_pow hpos]
      omega
  exact nearestNat_of_dvd ((Nat.pow_dvd_pow 2 hle).trans (Nat.dvd_mul_left _ m))

theorem nearestNat_two_pow (k : Nat) : nearestNat (2 ^ k) = 2 ^ k := by
  simpa using nearestNat_mul_two_pow (by decide : 1 < 2 ^ 53) k

/-- The number nearest to another is not rounded again. -/
theorem nearestNat_nearestNat (n : Nat) : nearestNat (nearestNat n) = nearestNat n := by
  rcases Nat.lt_or_eq_of_le (rounded_le n) with hlt | heq
  · exact nearestNat_mul_two_pow hlt _
  · have hpow : nearestNat n = 2 ^ (53 + excess n) := by rw [nearestNat, heq, ← Nat.pow_add]
    rw [hpow, nearestNat_two_pow]

/-- A double is a multiple of its last place. -/
theorem dvd_of_nearestNat (h : nearestNat n = n) : 2 ^ excess n ∣ n :=
  ⟨_, h.symm.trans (Nat.mul_comm _ _)⟩

/-- A number has the last place of the one before it, or it is a power of two. -/
theorem excess_succ_or (m : Nat) : excess (m + 1) = excess m ∨ nearestNat (m + 1) = m + 1 := by
  rcases Nat.lt_or_eq_of_le (excess_mono (Nat.le_add_right m 1)) with hlt | heq
  · have hlow := two_pow_le_of_excess (by omega : excess (m + 1) ≠ 0)
    have hhigh : m < 2 ^ (52 + excess (m + 1)) :=
      (lt_two_pow_excess m).trans_le (Nat.pow_le_pow_right Nat.two_pos (by omega))
    have hpow : m + 1 = 2 ^ (52 + excess (m + 1)) := by omega
    right
    rw [hpow]
    exact nearestNat_two_pow _
  · exact .inl heq.symm

/-- How much less than a number of at most `m + 1` the double nearest to it may be: half of the
last place of `m`. -/
def loss (m : Nat) : Nat := 2 ^ excess m / 2

theorem loss_mono (h : m ≤ n) : loss m ≤ loss n :=
  Nat.div_le_div_right (Nat.pow_le_pow_right Nat.two_pos (excess_mono h))

theorem loss_of_excess {e : Nat} (h : excess m = e + 1) : loss m = 2 ^ e := by
  rw [loss, h, Nat.pow_succ, Nat.mul_div_cancel _ Nat.two_pos]

/-- A double less than `2 ^ 53` steps away from zero loses less than a step in a sum with one. -/
theorem loss_lt {s : Nat} (hn : nearestNat n = n) (hs : 0 < s) (h : n < 2 ^ 53 * s) :
    loss (n + s - 1) < s := by
  cases hm : excess (n + s - 1) with
  | zero =>
    rw [loss, hm]
    exact hs
  | succ e =>
    rw [loss_of_excess hm]
    by_contra hnot
    have hlow := two_pow_le_of_excess (by omega : excess (n + s - 1) ≠ 0)
    rw [hm, Nat.add_comm e 1, ← Nat.add_assoc] at hlow
    have hhigh : n < 2 ^ 53 * 2 ^ e := h.trans_le (Nat.mul_le_mul_left _ (by omega))
    have hpos := Nat.two_pow_pos e
    -- the double is less than a last place away from a power of two, which it is below
    have hplace : excess n = e := by
      refine excess_of_between ?_ ?_
      · rw [Nat.pow_add] at hlow ⊢
        omega
      · rwa [Nat.pow_add]
    obtain ⟨c, hc⟩ := hplace ▸ dvd_of_nearestNat hn
    rw [hc, Nat.mul_comm (2 ^ 53)] at hhigh
    have hfew := Nat.mul_le_mul_left (2 ^ e) (Nat.lt_of_mul_lt_mul_left hhigh : c < 2 ^ 53)
    rw [Nat.mul_succ, ← hc] at hfew
    rw [Nat.pow_add] at hlow
    omega

end

/-! ## Shifted mantissas -/

open Float.Model Float.Model.UnpackedFloat

/-- The two bits kept of what is shifted out: the first of it, and whether there is any more. -/
theorem shiftRight_succ (a j : Nat) : (⟨a, false, false⟩ : ExtendedMantissa) >>> (j + 1) =
    ⟨a / 2 ^ (j + 1), a / 2 ^ j % 2 != 0, a % 2 ^ j != 0⟩ := by
  induction j with
  | zero =>
    change ExtendedMantissa.shiftRightOne ⟨a, false, false⟩ = _
    simp [ExtendedMantissa.shiftRightOne, Nat.mod_one]
  | succ j ih =>
    change ((⟨a, false, false⟩ : ExtendedMantissa) >>> (j + 1)).shiftRightOne = _
    rw [ih]
    have hsplit := Nat.mod_pow_succ (x := a) (b := 2) (k := j)
    have hpos := Nat.two_pow_pos j
    simp only [ExtendedMantissa.shiftRightOne, Nat.div_div_eq_div_mul, ← Nat.pow_succ]
    congr 1
    rw [hsplit]
    rcases Nat.mod_two_eq_zero_or_one (a / 2 ^ j) with hbit | hbit
    · simp [hbit]
    · simp [hbit]

theorem roundedMantissa_below (q : Nat) (sticky : Bool) :
    (⟨q, false, sticky⟩ : ExtendedMantissa).roundedMantissa = q := by
  cases sticky <;> rfl

/-- Shifting and then rounding is rounding the quotient. -/
theorem roundedMantissa_shiftRight (a j : Nat) :
    ((⟨a, false, false⟩ : ExtendedMantissa) >>> j).roundedMantissa = roundHalfEven a (2 ^ j) := by
  cases j with
  | zero =>
    rw [Nat.pow_zero, roundHalfEven_one]
    rfl
  | succ j =>
    have hlt := Nat.mod_lt a (Nat.two_pow_pos j)
    have hpow : 2 ^ (j + 1) = 2 * 2 ^ j := Nat.pow_succ'
    rw [shiftRight_succ]
    unfold roundHalfEven
    dsimp only
    rw [Nat.mod_pow_succ]
    generalize a / 2 ^ (j + 1) = q
    generalize a % 2 ^ j = low at hlt
    rcases Nat.mod_two_eq_zero_or_one (a / 2 ^ j) with hbit | hbit
    · -- less than half is shifted out
      rw [hbit, if_neg (by omega)]
      exact roundedMantissa_below q _
    · by_cases hlow : low = 0
      · -- just half: the even one of two
        rw [hbit, hlow]
        have hhalf : (⟨q, 1 != 0, 0 != 0⟩ : ExtendedMantissa).roundedMantissa = q + q % 2 := rfl
        rw [hhalf]
        split <;> omega
      · have hsticky : (low != 0) = true := bne_iff_ne.2 hlow
        rw [hbit, hsticky, if_pos (by omega)]
        rfl

/-! ## Results of operations -/

section

variable {a n : Nat} {b : Int}

/-- A mantissa that is shifted to the last place of a number is rounded as the number is. -/
theorem roundHalfEven_of_magnitude (h : magnitude a b = n) (hb : b ≤ excess n) :
    roundHalfEven a (2 ^ (excess n - b).toNat) = roundHalfEven n (2 ^ excess n) := by
  rw [← magnitude_zero n] at h
  rcases le_total b 0 with hneg | hpos
  · have ha := eq_shift_of_magnitude_eq hneg h
    have hj : (excess n - b).toNat = excess n + (0 - b).toNat := by omega
    rw [hj, Nat.pow_add, ha, roundHalfEven_mul_mul _ _ (Nat.two_pow_pos _)]
  · have hn := eq_shift_of_magnitude_eq hpos h.symm
    have hj : excess n = (excess n - b).toNat + (b - 0).toNat := by omega
    generalize (excess n - b).toNat = j at hj
    rw [hj, Nat.pow_add, hn, roundHalfEven_mul_mul _ _ (Nat.two_pow_pos _)]

/-- A rounded mantissa in legal form; one that has become too long is shifted once more. -/
theorem exists_legal_of_rounded {r t : Nat} (hlow : 2 ^ 52 ≤ r) (hhigh : r ≤ 2 ^ 53)
    (ht : t ≤ 970) : ∃ m e, Legal m e ∧ magnitude m e = (r * 2 ^ t : Nat) ∧
      shiftToTargetExponent Format.binary64 r t .exact = (⟨m, false, false⟩, e) := by
  rcases Nat.lt_or_eq_of_le hhigh with hlt | rfl
  · have hlegal : Legal r t := ⟨by omega, hlt, by omega, by omega, .inl hlow⟩
    exact ⟨r, t, hlegal, magnitude_of_nonneg r (by omega),
      shiftToTargetExponent_self hlegal.pos hlegal.targetExponent⟩
  · have hlegal : Legal (2 ^ 52) (t + 1) :=
      ⟨by decide, by decide, by omega, by omega, .inl (le_refl _)⟩
    refine ⟨2 ^ 52, t + 1, hlegal, ?_, ?_⟩
    · rw [magnitude_of_nonneg _ (by omega), show ((t : Int) + 1).toNat = t + 1 by omega]
      congr 1
      ring
    · have hshift := shiftToTargetExponent_exact hlegal.pos hlegal.targetExponent 1
      rwa [show (t : Int) + 1 - (1 : Nat) = t by omega] at hshift

theorem roundWithAccuracy_nearest (s : Sign) (hn : 0 < n) (hlt : n < 2 ^ 1023)
    (h : magnitude a b = n) (hb : b ≤ n.log2 - 52) :
    ∃ (m : Nat) (e : Int) (hl : Legal m e), magnitude m e = nearestNat n ∧
      roundWithAccuracy Format.binary64 s a b .exact = .finite s m e hl.pos := by
  have hmag := h.trans (magnitude_zero n).symm
  have hlog1023 := (Nat.log2_lt hn.ne').2 hlt
  clear hlt
  by_cases hsmall : n < 2 ^ 53
  · have hlog := (Nat.log2_lt hn.ne').2 hsmall
    have hform : magnitude _ _ = n := magnitude_legal_nat (by omega)
    rw [nearestNat_of_lt hsmall]
    exact ⟨_, _, legal_nat hn hsmall, hform,
      roundWithAccuracy_exact s (legal_nat hn hsmall) hb (h.trans hform.symm)⟩
  · have hlog53 : 53 ≤ n.log2 := (Nat.le_log2 hn.ne').2 (by omega)
    have hlog := log2_add_eq (pos_of_magnitude_eq hn hmag) hn hmag
    have hexcess : (excess n : Int) = n.log2 - 52 := by unfold excess; omega
    have htarget : Format.binary64.targetExponent (totalExponent a b) = excess n := by
      rw [targetExponent_eq]
      omega
    have hround := roundHalfEven_of_magnitude h (by omega)
    have hmax : excess n ≤ 970 := by omega
    obtain ⟨m, e, hlegal, hvalue, hshift⟩ :=
      exists_legal_of_rounded (le_rounded (by omega)) (rounded_le n) hmax
    refine ⟨m, e, hlegal, hvalue, ?_⟩
    have hfirst : shiftToTargetExponent Format.binary64 a b .exact =
        ((⟨a, false, false⟩ : ExtendedMantissa) >>> (excess n - b).toNat, (excess n : Int)) := by
      unfold shiftToTargetExponent shiftToExponent
      rw [htarget]
      simp only [ExtendedMantissa.ofMantissaAndAccuracy]
      congr 1
      omega
    unfold roundWithAccuracy
    simp only [hfirst, roundedMantissa_shiftRight, hround, hshift]
    rw [dif_neg hlegal.pos.ne']

theorem round_nearest (s : Sign) (hn : 0 < n) (hlt : n < 2 ^ 1023) (h : magnitude a b = n) :
    ∃ (m : Nat) (e : Int) (hl : Legal m e), magnitude m e = nearestNat n ∧
      UnpackedFloat.round Format.binary64 s a b = .finite s m e hl.pos := by
  have hmag := h.trans (magnitude_zero n).symm
  have hlog := log2_add_eq (pos_of_magnitude_eq hn hmag) hn hmag
  have htarget : Format.binary64.targetExponent (totalExponent a b) = n.log2 - 52 := by
    rw [targetExponent_eq]
    omega
  unfold UnpackedFloat.round decreaseExponent
  simp only [htarget, Nat.shiftLeft_eq]
  refine roundWithAccuracy_nearest s hn hlt ?_ (by omega)
  rw [magnitude_shift, h]

end

/-! ## Integers -/

/-- The integer nearest to another of those that a double can be. -/
def nearest (n : Int) : Int := if n < 0 then -nearestNat n.natAbs else nearestNat n.natAbs

section

variable {i j n : Int}

theorem natAbs_nearest (n : Int) : (nearest n).natAbs = nearestNat n.natAbs := by
  unfold nearest
  split <;> simp

theorem nearest_of_nonneg (h : 0 ≤ n) : nearest n = nearestNat n.natAbs := if_neg (by omega)

theorem nearest_of_nonpos (h : n ≤ 0) : nearest n = -nearestNat n.natAbs := by
  rcases Int.lt_or_eq_of_le h with hneg | rfl
  · exact if_pos hneg
  · rfl

theorem nearest_neg (n : Int) : nearest (-n) = -nearest n := by
  rcases le_total 0 n with h | h
  · rw [nearest_of_nonneg h, nearest_of_nonpos (by omega), Int.natAbs_neg]
  · rw [nearest_of_nonpos h, nearest_of_nonneg (by omega), Int.natAbs_neg, Int.neg_neg]

theorem nearest_apply (s : Sign) (a : Nat) : nearest (s.apply a) = s.apply (nearestNat a) := by
  cases s with
  | positive => exact nearest_of_nonneg (Int.natCast_nonneg a)
  | negative =>
    simp only [Sign.apply]
    rw [nearest_neg, nearest_of_nonneg (Int.natCast_nonneg a), Int.natAbs_natCast]

theorem nearest_mono (h : i ≤ j) : nearest i ≤ nearest j := by
  rcases le_total 0 i with hi | hi
  · have := nearestNat_mono (by omega : i.natAbs ≤ j.natAbs)
    rw [nearest_of_nonneg hi, nearest_of_nonneg (by omega)]
    omega
  · rw [nearest_of_nonpos hi]
    rcases le_total 0 j with hj | hj
    · rw [nearest_of_nonneg hj]
      omega
    · have := nearestNat_mono (by omega : j.natAbs ≤ i.natAbs)
      rw [nearest_of_nonpos hj]
      omega

theorem nearest_nearest (n : Int) : nearest (nearest n) = nearest n := by
  rcases le_total 0 n with h | h
  · rw [nearest_of_nonneg h, nearest_of_nonneg (by omega), Int.natAbs_natCast,
      nearestNat_nearestNat]
  · rw [nearest_of_nonpos h, nearest_of_nonpos (by omega), Int.natAbs_neg, Int.natAbs_natCast,
      nearestNat_nearestNat]

theorem nearest_eq_self_iff : nearest n = n ↔ nearestNat n.natAbs = n.natAbs := by
  rcases le_total 0 n with hn | hn
  · rw [nearest_of_nonneg hn]
    omega
  · rw [nearest_of_nonpos hn]
    omega

theorem nearest_of_le (h : n.natAbs ≤ 2 ^ 53) : nearest n = n := by
  rw [nearest_eq_self_iff]
  rcases Nat.lt_or_eq_of_le h with hlt | heq
  · exact nearestNat_of_lt hlt
  · rw [heq]
    exact nearestNat_two_pow 53

theorem natAbs_nearest_le {k : Nat} (h : n.natAbs ≤ 2 ^ k) : (nearest n).natAbs ≤ 2 ^ k := by
  rw [natAbs_nearest, ← nearestNat_two_pow k]
  exact nearestNat_mono h

/-- Rounding keeps the sign. -/
theorem nearest_pos_iff : 0 < nearest n ↔ 0 < n := by
  constructor
  · intro h
    by_contra hn
    have := nearest_mono (by omega : n ≤ 0)
    rw [nearest_of_le (n := 0) (by decide)] at this
    omega
  · intro h
    have := nearest_mono (by omega : 1 ≤ n)
    rw [nearest_of_le (n := 1) (by decide)] at this
    omega

theorem nearest_neg_iff : nearest n < 0 ↔ n < 0 := by
  have h := nearest_pos_iff (n := -n)
  rw [nearest_neg] at h
  omega

/-! ## Doubles that are integers -/

theorem isInt_round_nearest (hn : n.natAbs < 2 ^ 1023) {s : Sign} {c : Nat} {e : Int}
    (hc : 0 < c) (h : signed s c e = n) :
    IsInt (nearest n) (Float.Model.pack (UnpackedFloat.round Format.binary64 s c e)).unpack := by
  have hmag := magnitude_of_signed h
  have hpos : 0 < n.natAbs := by
    have := hmag ▸ magnitude_pos e hc
    exact_mod_cast this
  obtain ⟨m, d, hlegal, hm, hround⟩ := round_nearest s hpos hn hmag
  rw [hround]
  refine isInt_finite hlegal ?_
  rw [signed_of_natural hm, ← nearest_apply, apply_natAbs h]

/-- A double is not rounded. -/
theorem nearest_of_isInt {u : UnpackedFloat} (hu : Stable u) (h : IsInt n u) : nearest n = n := by
  rw [nearest_eq_self_iff]
  cases u with
  | zero s =>
    obtain rfl : n = 0 := h
    rfl
  | finite s m e hm =>
    have hlegal := legal_of_unpack hu
    have hmag : magnitude m e = n.natAbs := magnitude_of_signed h
    rcases le_total 0 e with he | he
    · rw [magnitude_of_nonneg m he] at hmag
      have hn : m * 2 ^ e.toNat = n.natAbs := by exact_mod_cast hmag
      rw [← hn]
      exact nearestNat_mul_two_pow hlegal.lt _
    · -- below one the exponent only makes the number smaller
      rw [← magnitude_zero n.natAbs] at hmag
      have hm' := eq_shift_of_magnitude_eq he hmag
      have hle : n.natAbs ≤ m := by
        rw [hm']
        exact Nat.le_mul_of_pos_right _ (Nat.two_pow_pos _)
      exact nearestNat_of_lt (hle.trans_lt hlegal.lt)
  | _ => exact h.elim

theorem nearest_of_toInt? {x : Float} (h : toInt? x = some n) : nearest n = n :=
  nearest_of_isInt (stable_unpack x) (toInt?_eq_some_iff.1 h)

theorem isInt_ofNat {n : Nat} (h : n < 2 ^ 1023) :
    IsInt (nearest n) (Float.ofNat n).toModel.unpack := by
  by_cases hsmall : n < 2 ^ 53
  · rw [nearest_of_le (by simpa using hsmall.le), ← toInt?_eq_some_iff]
    exact toInt?_ofInt (n := n) hsmall
  · have hpos : 0 < n := by omega
    have hslow : Float.ofNat n = .ofModel (.ofScientific n 0) := by
      change Float.ofScientific n false 0 = _
      unfold Float.ofScientific
      rw [dif_neg (fun hfast => hsmall hfast.1)]
      rfl
    have hmag : magnitude (n <<< 53 * 10 ^ 0) (-53 + 0) = n := by
      rw [magnitude_mul, magnitude_scale]
      simp [magnitude]
    obtain ⟨m, e, hlegal, hm, hround⟩ :=
      roundWithAccuracy_nearest .positive hpos h hmag (by omega)
    have hmodel : UnpackedFloat.ofScientific Format.binary64 n 0 =
        .finite .positive m e hlegal.pos := by
      have hbits : (2 : Int) ^ Format.binary64.exponentBits = 2048 := by decide
      unfold UnpackedFloat.ofScientific
      rw [hbits, dif_neg hpos.ne', if_neg (by decide), if_neg (by omega), if_pos (le_refl _)]
      exact hround
    rw [hslow]
    change IsInt _ (Float.Model.pack (UnpackedFloat.ofScientific Format.binary64 n 0)).unpack
    rw [hmodel]
    refine isInt_finite hlegal ?_
    rw [signed_of_natural hm, nearest_of_nonneg (Int.natCast_nonneg n), Int.natAbs_natCast]
    rfl

/-- The double of an integer is the one nearest to it. -/
theorem toInt?_ofInt_nearest (h : n.natAbs < 2 ^ 1023) :
    toInt? (Float.ofInt n) = some (nearest n) := by
  rw [toInt?_eq_some_iff]
  cases n with
  | ofNat k => exact isInt_ofNat h
  | negSucc k =>
    have hneg := isInt_neg (isInt_ofNat (n := k + 1) h)
    rw [← nearest_neg] at hneg
    have hstable := (stable_unpack (Float.ofNat (k + 1))).neg
    change IsInt _ (Float.Model.pack (Float.ofNat (k + 1)).toModel.unpack.neg).unpack
    rw [hstable]
    exact hneg

section

variable {x y : Float}

theorem isInt_add_nearest {u v : UnpackedFloat} (hu : Stable u) (hv : Stable v)
    (hi : IsInt i u) (hj : IsInt j v) (h : (i + j).natAbs < 2 ^ 1023) :
    IsInt (nearest (i + j)) (Float.Model.pack (UnpackedFloat.add Format.binary64 u v)).unpack := by
  refine isInt_add_of_round hu hv hi hj ?_ ?_ ?_ fun _ _ _ => isInt_round_nearest h
  · rintro rfl
    rw [Int.zero_add, nearest_of_isInt hv hj]
  · rintro rfl
    rw [Int.add_zero, nearest_of_isInt hu hi]
  · intro hzero
    rw [hzero]
    rfl

/-- The sum of two doubles that are integers is the double nearest to the exact sum. -/
theorem toInt?_add_nearest (hx : toInt? x = some i) (hy : toInt? y = some j)
    (h : (i + j).natAbs < 2 ^ 1023) : toInt? (x + y) = some (nearest (i + j)) := by
  rw [toInt?_eq_some_iff] at hx hy ⊢
  exact isInt_add_nearest (stable_unpack x) (stable_unpack y) hx hy h

theorem toInt?_sub_nearest (hx : toInt? x = some i) (hy : toInt? y = some j)
    (h : (i - j).natAbs < 2 ^ 1023) : toInt? (x - y) = some (nearest (i - j)) := by
  rw [toInt?_eq_some_iff] at hx hy ⊢
  change IsInt _ (Float.Model.pack (UnpackedFloat.sub _ x.toModel.unpack y.toModel.unpack)).unpack
  rw [sub_eq_add_neg, Int.sub_eq_add_neg]
  exact isInt_add_nearest (stable_unpack x) (stable_unpack y).neg hx (isInt_neg hy) h

/-- A double that is an integer has the sign of the integer. -/
theorem sign_of_toInt? (h : toInt? x = some n) : (0 < x ↔ 0 < n) ∧ (x < 0 ↔ n < 0) := by
  have hzero : (0 : Float).toModel.unpack = .zero .positive := rfl
  rw [toInt?_eq_some_iff] at h
  rw [lt_iff, lt_iff, hzero]
  cases hx : x.toModel.unpack with
  | zero s =>
    rw [hx] at h
    obtain rfl : n = 0 := h
    cases s <;> decide
  | finite s m e hm =>
    rw [hx] at h
    have hpos := magnitude_pos e hm
    have hvalue : signed s m e = n := h
    rw [signed_eq] at hvalue
    cases s with
    | positive =>
      have hn : (0 : ℚ) < n := by simpa [← hvalue, Sign.apply] using hpos
      have hn : 0 < n := by exact_mod_cast hn
      exact ⟨iff_of_true rfl hn, iff_of_false Bool.false_ne_true (by omega)⟩
    | negative =>
      have hn : (n : ℚ) < 0 := by simpa [← hvalue, Sign.apply] using hpos
      have hn : n < 0 := by exact_mod_cast hn
      exact ⟨iff_of_false Bool.false_ne_true (by omega), iff_of_true rfl hn⟩
  | _ =>
    rw [hx] at h
    exact h.elim

end

/-! ## Progress -/

theorem nearest_near (n : Int) :
    2 * nearest n ≤ 2 * n + 2 ^ excess n.natAbs ∧ 2 * n ≤ 2 * nearest n + 2 ^ excess n.natAbs := by
  obtain ⟨hle, hge⟩ := nearestNat_near n.natAbs
  have hpow : ((2 ^ excess n.natAbs : Nat) : Int) = 2 ^ excess n.natAbs := by push_cast; rfl
  rw [← hpow]
  rcases le_total 0 n with h | h
  · rw [nearest_of_nonneg h]
    omega
  · rw [nearest_of_nonpos h]
    omega

/-- Rounding loses no more than the loss of the number before. -/
theorem le_nearest_add_loss {m : Nat} (h : n.natAbs ≤ m + 1) : n ≤ nearest n + loss m := by
  have hplace : excess n.natAbs ≤ excess m ∨ nearest n = n := by
    rcases Nat.lt_or_eq_of_le h with hlt | heq
    · exact .inl (excess_mono (by omega))
    · rw [nearest_eq_self_iff, heq]
      exact (excess_succ_or m).imp_left Nat.le_of_eq
  rcases hplace with hle | hexact
  · have hnear := (nearest_near n).2
    have hpow : (2 : Int) ^ excess n.natAbs ≤ 2 ^ excess m := pow_le_pow_right₀ (by decide) hle
    have hloss : (loss m : Int) = 2 ^ excess m / 2 := by simp [loss]
    omega
  · omega

/-- A step is not lost in the spacing of the doubles as long as the number that it is added to is
less than `2 ^ 53` steps away from zero. -/
theorem lt_nearest_add {s : Int} (hn : nearest n = n) (hs : 0 < s) (h : n.natAbs < 2 ^ 53 * s) :
    n < nearest (n + s) := by
  have hsum := le_nearest_add_loss (by omega : (n + s).natAbs ≤ n.natAbs + s.natAbs - 1 + 1)
  have hlost := loss_lt (nearest_eq_self_iff.1 hn) (by omega : 0 < s.natAbs) (by omega)
  omega

end

end Double

/-! ## Cells -/

namespace Cell

open Double

variable {c : Cell} {i : Int}

/-- An integer is compared with a cell as it is rounded. -/
theorem compare_of_toInt? (h : toInt? c.number = some i) (hi : i.natAbs ≤ 2 ^ 64) (n : Int64) :
    c.compare (some (.int n)) = .ok (Ord.compare i (nearest n.toInt)) := by
  have hlow := Int64.le_toInt n
  have hhigh := Int64.toInt_lt n
  have hn := toInt?_ofInt_nearest (n := n.toInt) (by omega)
  have hsmall := natAbs_nearest_le (n := n.toInt) (k := 63) (by omega)
  obtain ⟨hpos, hneg⟩ := sign_of_toInt? (toInt?_sub_nearest h hn (by omega))
  rw [nearest_pos_iff] at hpos
  rw [nearest_neg_iff] at hneg
  change Except.ok (if 0 < c.number - Float.ofInt n.toInt then Ordering.gt
    else if c.number - Float.ofInt n.toInt < 0 then .lt else .eq) = _
  rcases lt_trichotomy i (nearest n.toInt) with hlt | heq | hgt
  · rw [if_neg (by rw [hpos]; omega), if_pos (by rw [hneg]; omega), Int.compare_eq_lt.2 hlt]
  · rw [if_neg (by rw [hpos]; omega), if_neg (by rw [hneg]; omega), Int.compare_eq_eq.2 heq]
  · rw [if_pos (by rw [hpos]; omega), Int.compare_eq_gt.2 hgt]

/-- Integers of at most `2 ^ 53` are compared as they are. -/
theorem compare_ofInt {n : Int64} (hi : i.natAbs ≤ 2 ^ 53) (hn : n.toInt.natAbs ≤ 2 ^ 53) :
    (Cell.mk (Float.ofInt i)).compare (some (.int n)) = .ok (Ord.compare i n.toInt) := by
  have hcompare := compare_of_toInt? (c := ⟨Float.ofInt i⟩) (toInt?_ofInt_of_le hi) (by omega) n
  rwa [nearest_of_le hn] at hcompare

/-- What is added to a cell and the sum are rounded. -/
theorem add_of_toInt? (h : toInt? c.number = some i) (hi : i.natAbs ≤ 2 ^ 64) (n : Int64) :
    ∃ d, c.add (some (.int n)) = .ok d ∧
      toInt? d.number = some (nearest (i + nearest n.toInt)) := by
  have hlow := Int64.le_toInt n
  have hhigh := Int64.toInt_lt n
  have hn := toInt?_ofInt_nearest (n := n.toInt) (by omega)
  have hsmall := natAbs_nearest_le (n := n.toInt) (k := 63) (by omega)
  exact ⟨_, rfl, toInt?_add_nearest h hn (by omega)⟩

end Cell
end PageTemplate
