import Mathlib
import PageTemplate.Number.Double

/-! The bits of a double. A finite double other than zero has one mantissa and exponent in
legal form, and packing and unpacking lose nothing between that form and the bits. -/
namespace PageTemplate.Double

open Float.Model Float.Model.UnpackedFloat

/-- The mantissas and exponents of finite doubles other than zero. All 53 bits of the
mantissa are in use, unless the exponent is the least one. -/
structure Legal (m : Nat) (e : Int) : Prop where
  pos : 0 < m
  lt : m < 2 ^ 53
  le_exponent : -1074 ≤ e
  exponent_le : e ≤ 971
  full : 2 ^ 52 ≤ m ∨ e = -1074

/-! ## Unpacking -/

theorem toNat_implicit {k : Nat} (b : BitVec k) : (1#1 ++ b).toNat = 2 ^ k + b.toNat := by
  rw [BitVec.toNat_append, ← Nat.shiftLeft_add_eq_or_of_lt b.isLt]
  simp [Nat.shiftLeft_eq]

theorem unpack_full (s : Sign) {e : BitVec 11} (m : BitVec 52) (h0 : e ≠ 0#11) (h1 : e ≠ -1#11) :
    UnpackedFloat.unpack Format.binary64 (packComponents Format.binary64 s e m) =
      .finite s (2 ^ 52 + m.toNat) (e.toNat - 1075) (by omega) := by
  unfold UnpackedFloat.unpack
  simp only [unpackMantissa_packComponents, unpackExponent_packComponents,
    unpackSign_packComponents, Sign.ofBitVec_toBitVec]
  rw [if_neg h1, if_neg h0]
  congr 1
  exact toNat_implicit m

theorem unpack_small (s : Sign) {m : BitVec 52} (hm : m ≠ 0#52) :
    UnpackedFloat.unpack Format.binary64 (packComponents Format.binary64 s 0#11 m) =
      .finite s m.toNat (-1074) (by simpa [BitVec.toNat_pos, BitVec.pos_iff_ne_zero]) := by
  unfold UnpackedFloat.unpack
  simp only [unpackMantissa_packComponents, unpackExponent_packComponents,
    unpackSign_packComponents, Sign.ofBitVec_toBitVec]
  rw [if_neg (by decide), if_pos trivial, dif_neg hm]
  rfl

theorem unpack_none (s : Sign) :
    UnpackedFloat.unpack Format.binary64 (packComponents Format.binary64 s 0#11 0#52) =
      .zero s := by
  cases s <;> rfl

theorem legal_full {e : BitVec 11} (m : BitVec 52) (h0 : e ≠ 0#11) (h1 : e ≠ -1#11) :
    Legal (2 ^ 52 + m.toNat) (e.toNat - 1075) := by
  have hm := m.isLt
  have he := e.isLt
  have h0' : e.toNat ≠ 0 := fun h => h0 (BitVec.eq_of_toNat_eq h)
  have h1' : e.toNat ≠ 2047 := fun h => h1 (BitVec.eq_of_toNat_eq h)
  exact ⟨by omega, by omega, by omega, by omega, Or.inl (by omega)⟩

theorem legal_small {m : Nat} (hm : 0 < m) (h : m < 2 ^ 52) : Legal m (-1074) :=
  ⟨hm, by omega, by omega, by omega, Or.inr rfl⟩

/-- What unpacks as a finite number does so in legal form. -/
theorem legal_of_unpack {v : Float.Model} {s : Sign} {m : Nat} {e : Int} {hm : 0 < m}
    (h : v.unpack = .finite s m e hm) : Legal m e := by
  unfold Float.Model.unpack at h
  have hfields := @packComponents_unpackSign_unpackExponent_unpackMantissa Format.binary64
    v.toBits.toBitVec
  rw [← hfields] at h
  clear hfields
  generalize Sign.ofBitVec (@unpackSign Format.binary64 v.toBits.toBitVec) = t at h
  generalize @unpackExponent Format.binary64 v.toBits.toBitVec = E at h
  generalize @unpackMantissa Format.binary64 v.toBits.toBitVec = M at h
  by_cases hmax : E = -1#11
  · unfold UnpackedFloat.unpack at h
    simp only [unpackMantissa_packComponents, unpackExponent_packComponents, hmax,
      ↓reduceIte] at h
    split at h <;> cases h
  · by_cases hmin : E = 0#11
    · by_cases hM : M = 0#52
      · subst hmin hM
        rw [unpack_none] at h
        cases h
      · subst hmin
        rw [unpack_small t hM] at h
        cases h
        exact legal_small hm M.isLt
    · rw [unpack_full t M hmin hmax] at h
      cases h
      exact legal_full M hmin hmax

/-! ## Packing -/

theorem pack_full (s : Sign) {m : Nat} {e : Int} (h : Legal m e) (hm : 2 ^ 52 ≤ m) :
    UnpackedFloat.pack Format.binary64 (.finite s m e h.pos) =
      packComponents Format.binary64 s (BitVec.ofNat 11 (e + 1075).toNat) (BitVec.ofNat 52 m) := by
  have hlog : m.log2 = 52 := (Nat.log2_eq_iff h.pos.ne').2 ⟨hm, h.lt⟩
  have he : (e + Format.binary64.exponentBias + Format.binary64.mantissaBitsWithoutImplicit).toNat
      = (e + 1075).toNat := by
    congr 1
    change e + 1023 + 52 = _
    omega
  have := h.le_exponent
  have := h.exponent_le
  rw [UnpackedFloat.pack]
  simp only [he]
  rw [if_neg (by change ¬ 2048 ≤ _; omega), if_pos (by rw [hlog]; rfl)]

theorem pack_small (s : Sign) {m : Nat} (hm : 0 < m) (h : m < 2 ^ 52) :
    UnpackedFloat.pack Format.binary64 (.finite s m (-1074) hm) =
      packComponents Format.binary64 s 0#11 (BitVec.ofNat 52 m) := by
  have hlog : m.log2 < 52 := (Nat.log2_lt hm.ne').2 h
  rw [UnpackedFloat.pack]
  dsimp only
  rw [if_neg (by decide), if_neg (by change ¬ m.log2 + 1 = 53; omega)]

/-- Packing what a double unpacks to gives the double back. -/
theorem pack_unpack (v : Float.Model) : Float.Model.pack v.unpack = v := by
  obtain ⟨bits, valid⟩ := v
  unfold Float.Model.pack Float.Model.unpack
  simp only [pack_unpack_of_valid valid]

/-- A legal form unpacks from its packing. -/
theorem unpack_pack_finite (s : Sign) {m : Nat} {e : Int} (h : Legal m e) :
    (Float.Model.pack (.finite s m e h.pos)).unpack = .finite s m e h.pos := by
  change UnpackedFloat.unpack Format.binary64 (UnpackedFloat.pack Format.binary64 _) = _
  have hlt := h.lt
  by_cases hm : 2 ^ 52 ≤ m
  · have := h.le_exponent
    have := h.exponent_le
    have hE : (BitVec.ofNat 11 (e + 1075).toNat).toNat = (e + 1075).toNat := by
      rw [BitVec.toNat_ofNat, Nat.mod_eq_of_lt (by omega)]
    have hM : (BitVec.ofNat 52 m).toNat = m - 2 ^ 52 := by
      rw [BitVec.toNat_ofNat]
      omega
    have h0 : BitVec.ofNat 11 (e + 1075).toNat ≠ 0#11 := by
      intro h
      have := congrArg BitVec.toNat h
      rw [hE] at this
      change _ = 0 at this
      omega
    have h1 : BitVec.ofNat 11 (e + 1075).toNat ≠ -1#11 := by
      intro h
      have := congrArg BitVec.toNat h
      rw [hE] at this
      change _ = 2047 at this
      omega
    have hm' : 2 ^ 52 + (m - 2 ^ 52) = m := by omega
    have he : ((e + 1075).toNat : Int) - 1075 = e := by omega
    rw [pack_full s h hm, unpack_full s _ h0 h1]
    simp only [hE, hM, hm', he]
  · obtain rfl : e = -1074 := h.full.resolve_left hm
    have hM : (BitVec.ofNat 52 m).toNat = m := by
      rw [BitVec.toNat_ofNat, Nat.mod_eq_of_lt (by omega)]
    have h0 : BitVec.ofNat 52 m ≠ 0#52 := by
      intro h'
      have := congrArg BitVec.toNat h'
      rw [hM] at this
      exact h.pos.ne' this
    rw [pack_small s h.pos (by omega), unpack_small s h0]
    simp only [hM]

/-- Past the largest exponent there are only the infinities. -/
theorem pack_overflow (s : Sign) {m : Nat} {e : Int} (hm : 0 < m) (he : 971 < e) :
    Float.Model.pack (.finite s m e hm) = .pack (.infinity s) := by
  have hpack : UnpackedFloat.pack Format.binary64 (.finite s m e hm) =
      UnpackedFloat.pack Format.binary64 (.infinity s) := by
    rw [UnpackedFloat.pack]
    exact if_pos (by change 2048 ≤ (e + 1023 + 52).toNat + 1; omega)
  unfold Float.Model.pack
  simp only [hpack]

theorem unpack_pack_zero (s : Sign) : (Float.Model.pack (.zero s)).unpack = .zero s := by
  cases s <;> rfl

theorem unpack_pack_infinity (s : Sign) :
    (Float.Model.pack (.infinity s)).unpack = .infinity s := by
  cases s <;> rfl

end PageTemplate.Double
