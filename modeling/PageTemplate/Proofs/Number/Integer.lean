import PageTemplate.Proofs.Number.Whole

/-! Arithmetic on doubles that are integers. Sums, differences and products are exact as long as
they come to no more than `2 ^ 53`, whichever sign a zero has on the way. -/
namespace PageTemplate

namespace Double

open Float.Model Float.Model.UnpackedFloat

/-- Whether an unpacked double is the integer `n`; a zero may have either sign. -/
def IsInt (n : Int) : UnpackedFloat → Prop
  | .zero _ => n = 0
  | .finite s m e _ => signed s m e = n
  | _ => False

theorem apply_neg (s : Sign) (n : Int) : (-s).apply n = -s.apply n := by
  cases s with
  | negative => exact (neg_neg n).symm
  | positive => rfl

theorem signed_eq (s : Sign) (m : Nat) (e : Int) :
    signed s m e = (s.apply 1 : Int) * magnitude m e := by
  unfold signed magnitude
  cases s <;> simp [Sign.apply]

theorem abs_signed (s : Sign) (m : Nat) (e : Int) : |signed s m e| = magnitude m e := by
  have hnonneg : 0 ≤ magnitude m e := by
    unfold magnitude
    positivity
  rw [signed_eq]
  cases s <;> simp [Sign.apply, abs_of_nonneg hnonneg]

theorem signed_mul (s t : Sign) (m k : Nat) (e d : Int) :
    signed (s * t) (m * k) (e + d) = signed s m e * signed t k d := by
  have hsign : ((s * t).apply 1 : Int) = s.apply 1 * t.apply 1 := by
    cases s <;> cases t <;> rfl
  rw [signed_eq, signed_eq, signed_eq, magnitude_mul, hsign]
  push_cast
  ring

theorem magnitude_of_signed {s : Sign} {m : Nat} {e n : Int} (h : signed s m e = n) :
    magnitude m e = n.natAbs := by
  rw [← abs_signed s, h, Nat.cast_natAbs, Int.cast_abs]

theorem signed_of_natural {s : Sign} {m k : Nat} {e : Int} (h : magnitude m e = k) :
    signed s m e = (s.apply k : Int) := by
  rw [signed_eq, h]
  cases s <;> simp [Sign.apply]

theorem apply_natAbs {s : Sign} {m : Nat} {e n : Int} (h : signed s m e = n) :
    s.apply n.natAbs = n := by
  rw [signed_of_natural (magnitude_of_signed h)] at h
  exact_mod_cast h

/-! ## Legal forms -/

theorem exists_legal {n : Nat} (h0 : 0 < n) (h : n ≤ 2 ^ 53) :
    ∃ m e, Legal m e ∧ magnitude m e = n := by
  rcases Nat.lt_or_eq_of_le h with hlt | rfl
  · have hlog := (Nat.log2_lt h0.ne').2 hlt
    exact ⟨_, _, legal_nat h0 hlt, magnitude_legal_nat (by omega)⟩
  · refine ⟨2 ^ 52, 1, ⟨by decide, by decide, by decide, by decide, .inl (by decide)⟩, ?_⟩
    norm_num [magnitude]

/-- A double of at least one has all bits of its mantissa in use. -/
theorem Legal.full_of_one_le {m : Nat} {e : Int} (h : Legal m e) (h1 : 1 ≤ magnitude m e) :
    2 ^ 52 ≤ m := by
  refine h.full.resolve_right fun he => ?_
  have hlt := lt_of_le_of_lt h1 (magnitude_lt_two_pow m e)
  have hlog := h.log2_le
  have hexp : (2 : ℚ) ^ (m.log2 + 1 + e) ≤ 2 ^ (0 : Int) :=
    zpow_le_zpow_right₀ (by norm_num) (by omega)
  rw [zpow_zero] at hexp
  exact absurd (lt_of_lt_of_le hlt hexp) (lt_irrefl _)

theorem one_le_magnitude {s : Sign} {m : Nat} {e n : Int} (hm : 0 < m) (h : signed s m e = n) :
    1 ≤ magnitude m e := by
  have hpos := magnitude_pos e hm
  rw [magnitude_of_signed h] at hpos ⊢
  exact_mod_cast hpos

/-! ## Results -/

theorem isInt_finite {s : Sign} {m : Nat} {e n : Int} (h : Legal m e) (hn : signed s m e = n) :
    IsInt n (Float.Model.pack (.finite s m e h.pos)).unpack := by
  rw [unpack_pack_finite s h]
  exact hn

theorem isInt_zero (s : Sign) : IsInt 0 (Float.Model.pack (.zero s)).unpack := by
  rw [unpack_pack_zero]
  rfl

/-- A number of the magnitude of an integer and its sign is that integer. -/
theorem signed_of_magnitude {s : Sign} {m a : Nat} {e b n : Int} (h : signed s a b = n)
    (hm : magnitude m e = n.natAbs) : signed s m e = n := by
  rw [signed_eq, hm, ← magnitude_of_signed h, ← signed_eq, h]

/-- What the rounding of the magnitude is, the normal form of a number is too. -/
theorem isInt_normalize {a e n k : Int} (hzero : n = 0 → k = 0)
    (hround : ∀ (s : Sign) (c : Nat), 0 < c → signed s c e = n →
      IsInt k (Float.Model.pack (UnpackedFloat.round Format.binary64 s c e)).unpack)
    (h : (a : ℚ) * 2 ^ e = n) :
    IsInt k (Float.Model.pack (UnpackedFloat.normalize Format.binary64 a e .positive)).unpack := by
  unfold UnpackedFloat.normalize
  rcases lt_trichotomy a 0 with ha | rfl | ha
  · rw [Int.compare_eq_lt.2 ha]
    refine hround .negative (-a).toNat (by omega) ?_
    rw [← h]
    unfold signed
    simp only [Sign.apply]
    rw [Int.toNat_of_nonneg (by omega), neg_neg]
  · have hn : (n : ℚ) = 0 := by rw [← h]; simp
    rw [hzero (by exact_mod_cast hn)]
    exact isInt_zero .positive
  · rw [Int.compare_eq_gt.2 ha]
    refine hround .positive a.toNat (by omega) ?_
    rw [← h]
    unfold signed
    simp only [Sign.apply]
    rw [Int.toNat_of_nonneg ha.le]

/-- An integer of at most `2 ^ 53` is not rounded. -/
theorem isInt_round {s : Sign} {c : Nat} {e n : Int} (hn : n.natAbs ≤ 2 ^ 53) (hc : 0 < c)
    (h : signed s c e = n) :
    IsInt n (Float.Model.pack (UnpackedFloat.round Format.binary64 s c e)).unpack := by
  have hpos : 0 < n.natAbs := by
    have := magnitude_of_signed h ▸ magnitude_pos e hc
    exact_mod_cast this
  obtain ⟨m, d, hlegal, hm⟩ := exists_legal hpos hn
  rw [round_exact s hlegal ((magnitude_of_signed h).trans hm.symm)]
  exact isInt_finite hlegal (signed_of_magnitude h hm)

/-! ## Operations -/

/-- An unpacked double that is still itself after packing. -/
def Stable (u : UnpackedFloat) : Prop := (Float.Model.pack u).unpack = u

theorem stable_unpack (x : Float) : Stable x.toModel.unpack :=
  congrArg Float.Model.unpack (pack_unpack x.toModel)

theorem Stable.neg {u : UnpackedFloat} (h : Stable u) : Stable u.neg := by
  cases u with
  | finite s m e hm => exact unpack_pack_finite (-s) (legal_of_unpack h)
  | zero s => exact unpack_pack_zero (-s)
  | infinity s => exact unpack_pack_infinity (-s)
  | notANumber => rfl

section

variable {u v : UnpackedFloat} {i j : Int}

theorem isInt_neg (h : IsInt i u) : IsInt (-i) u.neg := by
  cases u with
  | finite s m e hm =>
    change signed (-s) m e = _
    rw [signed_eq, apply_neg, Int.cast_neg, neg_mul, ← signed_eq, Int.cast_neg,
      show signed s m e = i from h]
  | zero s => exact neg_eq_zero.2 h
  | _ => exact h.elim

/-- A sum is what the rounding of its magnitude is; a zero leaves the other number as it is. -/
theorem isInt_add_of_round {k : Int} (hu : Stable u) (hv : Stable v) (hi : IsInt i u)
    (hj : IsInt j v) (hleft : i = 0 → k = j) (hright : j = 0 → k = i) (hzero : i + j = 0 → k = 0)
    (hround : ∀ (s : Sign) (c : Nat) (e : Int), 0 < c → signed s c e = (i + j : Int) →
      IsInt k (Float.Model.pack (UnpackedFloat.round Format.binary64 s c e)).unpack) :
    IsInt k (Float.Model.pack (UnpackedFloat.add Format.binary64 u v)).unpack := by
  cases u with
  | zero s =>
    obtain rfl : i = 0 := hi
    rw [hleft rfl]
    cases v with
    | zero t =>
      obtain rfl : j = 0 := hj
      cases s <;> cases t <;> exact isInt_zero _
    | finite t k d hk => exact isInt_finite (legal_of_unpack hv) hj
    | _ => exact hj.elim
  | finite s m e hm =>
    cases v with
    | zero t =>
      obtain rfl : j = 0 := hj
      rw [hright rfl]
      exact isInt_finite (legal_of_unpack hu) hi
    | finite t c d hk =>
      refine isInt_normalize hzero (fun s c => hround s c _) ?_
      rw [Int.cast_add, Int.cast_add, add_mul, signed_decrease _ _ (min_le_left _ _),
        signed_decrease _ _ (min_le_right _ _), hi, hj]
    | _ => exact hj.elim
  | _ => exact hi.elim

/-- A sum of integers that is at most `2 ^ 53` is exact. -/
theorem isInt_add (hu : Stable u) (hv : Stable v) (hi : IsInt i u) (hj : IsInt j v)
    (h : (i + j).natAbs ≤ 2 ^ 53) :
    IsInt (i + j) (Float.Model.pack (UnpackedFloat.add Format.binary64 u v)).unpack :=
  isInt_add_of_round hu hv hi hj (by omega) (by omega) id fun _ _ _ => isInt_round h

/-- A product of integers that is at most `2 ^ 53` is exact. -/
theorem isInt_mul (hu : Stable u) (hi : IsInt i u) (hj : IsInt j v)
    (h : (i * j).natAbs ≤ 2 ^ 53) :
    IsInt (i * j) (Float.Model.pack (UnpackedFloat.mul Format.binary64 u v)).unpack := by
  cases u with
  | zero s =>
    obtain rfl : i = 0 := hi
    rw [Int.zero_mul]
    cases v with
    | zero t => exact isInt_zero _
    | finite t k d hk => exact isInt_zero _
    | _ => exact hj.elim
  | finite s m e hm =>
    cases v with
    | zero t =>
      obtain rfl : j = 0 := hj
      rw [Int.mul_zero]
      exact isInt_zero _
    | finite t k d hk =>
      have hvalue : signed (s * t) (m * k) (e + d) = (i * j : Int) := by
        rw [signed_mul, Int.cast_mul, show signed s m e = i from hi,
          show signed t k d = j from hj]
      have hpos : 0 < (i * j).natAbs := by
        have := magnitude_of_signed hvalue ▸ magnitude_pos (e + d) (Nat.mul_pos hm hk)
        exact_mod_cast this
      obtain ⟨n, l, hlegal, hn⟩ := exists_legal hpos h
      have hmag : magnitude (m * k) (e + d) = magnitude n l :=
        (magnitude_of_signed hvalue).trans hn.symm
      -- the mantissa of the product is long enough to be rounded by dropping digits
      have hlong : 52 ≤ (m * k).log2 := by
        have hfull := (legal_of_unpack hu).full_of_one_le (one_le_magnitude hm hi)
        rw [Nat.le_log2 (Nat.mul_pos hm hk).ne']
        exact hfull.trans (Nat.le_mul_of_pos_right _ hk)
      have hlog := log2_add_eq (Nat.mul_pos hm hk) hlegal.pos hmag
      have hlow := hlegal.log2_le
      change IsInt _ (Float.Model.pack
        (roundWithAccuracy Format.binary64 (s * t) (m * k) (e + d) .exact)).unpack
      rw [roundWithAccuracy_exact (s * t) hlegal (by omega) hmag]
      exact isInt_finite hlegal (signed_of_magnitude hvalue hn)
    | _ => exact hj.elim
  | _ => exact hi.elim

theorem sub_eq_add_neg (u v : UnpackedFloat) :
    UnpackedFloat.sub Format.binary64 u v = UnpackedFloat.add Format.binary64 u v.neg := by
  cases u with
  | finite s m e hm =>
    cases v with
    | finite t k d hk =>
      simp only [UnpackedFloat.sub, UnpackedFloat.add, UnpackedFloat.neg, apply_neg,
        Int.sub_eq_add_neg]
    | _ => rfl
  | _ => cases v <;> rfl

end

/-! ## Integers read from doubles -/

theorem toInt?_eq_some_iff {x : Float} {n : Int} :
    toInt? x = some n ↔ IsInt n x.toModel.unpack := by
  cases hx : x.toModel.unpack with
  | notANumber => simp [toInt?, reading, hx, IsInt]
  | infinity s => simp [toInt?, reading, hx, IsInt]
  | zero s =>
    have hzero : toInt? x = some 0 := by
      unfold toInt? reading
      rw [hx]
      cases s <;> rfl
    rw [hzero, Option.some.injEq]
    exact eq_comm
  | finite s m e hm =>
    unfold IsInt
    dsimp only
    constructor
    · intro h
      have hmag := magnitude_of_toInt? hx h
      rw [toInt?_eq hx] at h
      split at h
      · generalize m * 2 ^ e.toNat / 2 ^ (-e).toNat = q at h
        obtain rfl := Option.some.inj h
        rw [signed_eq, hmag]
        cases s <;> simp [Sign.apply]
      · cases h
    · intro h
      have hmag := (magnitude_eq_iff _ _ _).1 (magnitude_of_signed h)
      rw [toInt?_eq hx, hmag, Nat.mul_mod_left, if_pos rfl,
        Nat.mul_div_cancel _ (Nat.two_pow_pos _)]
      exact congrArg some (apply_natAbs h)

section

variable {x y : Float} {i j : Int}

theorem toInt?_add (hx : toInt? x = some i) (hy : toInt? y = some j)
    (h : (i + j).natAbs ≤ 2 ^ 53) : toInt? (x + y) = some (i + j) := by
  rw [toInt?_eq_some_iff] at hx hy ⊢
  exact isInt_add (stable_unpack x) (stable_unpack y) hx hy h

theorem toInt?_sub (hx : toInt? x = some i) (hy : toInt? y = some j)
    (h : (i - j).natAbs ≤ 2 ^ 53) : toInt? (x - y) = some (i - j) := by
  rw [toInt?_eq_some_iff] at hx hy ⊢
  change IsInt _ (Float.Model.pack (UnpackedFloat.sub _ x.toModel.unpack y.toModel.unpack)).unpack
  rw [sub_eq_add_neg, Int.sub_eq_add_neg]
  exact isInt_add (stable_unpack x) (stable_unpack y).neg hx (isInt_neg hy) h

theorem toInt?_mul (hx : toInt? x = some i) (hy : toInt? y = some j)
    (h : (i * j).natAbs ≤ 2 ^ 53) : toInt? (x * y) = some (i * j) := by
  rw [toInt?_eq_some_iff] at hx hy ⊢
  exact isInt_mul (stable_unpack x) hx hy h

end

/-- The double of an integer of at most `2 ^ 53` is read as that integer. -/
theorem toInt?_ofInt_of_le {n : Int} (h : n.natAbs ≤ 2 ^ 53) :
    toInt? (Float.ofInt n) = some n := by
  rcases Nat.lt_or_eq_of_le h with hlt | heq
  · exact toInt?_ofInt hlt
  · rcases Int.natAbs_eq n with hn | hn <;>
    · rw [heq] at hn
      subst hn
      decide +kernel

end Double
end PageTemplate
