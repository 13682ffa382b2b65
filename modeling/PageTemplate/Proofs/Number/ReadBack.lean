import PageTemplate.Number.Shortest
import PageTemplate.Proofs.Number.Decimal
import PageTemplate.Proofs.Number.Grammar

/-! The text of a finite double reads back to it. The text always has a point, so it is no
integer. -/
namespace PageTemplate

/-! ## Numerals with a point -/

/-- A numeral with a point and no exponent says its digits and how many are places. -/
theorem Numeral.parse?_point (negative : Bool) {whole part : List Char} (hne : whole ≠ [])
    (hw : ∀ c ∈ whole, c.isDigit) (hp : ∀ c ∈ part, c.isDigit) :
    parse? (signText negative ++ (whole ++ '.' :: part)) =
      some ⟨negative, ⟨Nat.ofDigitChars 10 (whole ++ part) 0, -part.length⟩⟩ := by
  have hmantissa : Mantissa (whole ++ '.' :: part) whole part :=
    .point (digits_of_isDigit hne hw) fun c hc => isDigit_iff.1 (hp c hc)
  have hspells := Spells.mk (sign_signText negative) hmantissa .absent
  rw [List.append_nil, zero_sub] at hspells
  exact parse?_eq_some_iff.2 hspells

/-- Nothing with a point in it is an integer. -/
theorem int64?_eq_none_of_point {s : List Char} (h : '.' ∈ s) : int64? s = none := by
  rw [Option.eq_none_iff_forall_ne_some]
  intro n hn
  have hspells := Numeral.int64?_eq_some_iff.1 hn
  exact absurd (hspells.sign_or_digit '.' h) (by decide)

namespace Double

open Float.Model Float.Model.UnpackedFloat

/-! ## The two kinds of text -/

theorem isDigit_of_mem_toDigits {c : Char} {n : Nat} (h : c ∈ Nat.toDigits 10 n) : c.isDigit :=
  Nat.isDigit_of_mem_toDigits (by decide) (by decide) h

theorem isDigit_of_mem_fractionDigits {c : Char} {d : Decimal} (h : c ∈ d.fractionDigits) :
    c.isDigit := by
  unfold Decimal.fractionDigits at h
  split at h
  · simp at h
  · simp only [List.leftpad, List.mem_append, List.mem_replicate] at h
    rcases h with ⟨-, rfl⟩ | h
    · decide
    · exact isDigit_of_mem_toDigits h

theorem ofDigitChars_fractionDigits {d : Decimal} (h : d.places ≠ 0) (n : Nat) :
    Nat.ofDigitChars 10 d.fractionDigits n = 10 ^ d.places * n + d.digits % 10 ^ d.places := by
  have hzero : Nat.ofDigitChars 10 d.fractionDigits 0 = d.digits % 10 ^ d.places := by
    unfold Decimal.fractionDigits
    rw [if_neg h]
    unfold List.leftpad
    rw [Nat.ofDigitChars_append, Nat.ofDigitChars_replicate_zero, Nat.mul_zero,
      Nat.ofDigitChars_ten_toDigits]
    rfl
  rw [Nat.ofDigitChars_eq_ofDigitChars_zero, d.length_fractionDigits, hzero]

/-- A decimal with places is what its digits and their number say. -/
theorem decimal_of_digits {d : Decimal} (h : d.exponent < 0) :
    Decimal.mk (Nat.ofDigitChars 10 (d.wholeDigits ++ d.fractionDigits) 0)
      (-d.fractionDigits.length) = d := by
  have hp : d.places ≠ 0 := by
    rw [ne_eq, Decimal.places_eq_zero_iff]
    omega
  have hexp : (d.places : Int) = -d.exponent := by
    unfold Decimal.places
    omega
  have hwhole : Nat.ofDigitChars 10 d.wholeDigits 0 = d.digits / 10 ^ d.places := by
    unfold Decimal.wholeDigits
    rw [Nat.ofDigitChars_ten_toDigits, show d.exponent.toNat = 0 by omega]
    simp
  rw [Nat.ofDigitChars_append, hwhole, ofDigitChars_fractionDigits hp, Nat.div_add_mod,
    d.length_fractionDigits, hexp, neg_neg]

theorem text_of_places {d : Decimal} (h : d.exponent < 0) :
    d.text = d.wholeDigits ++ '.' :: d.fractionDigits := by
  unfold Decimal.text
  rw [if_neg]
  rw [Decimal.places_eq_zero_iff]
  omega

/-! ## Signs and whole numbers -/

section

variable {x : Float} {s : Sign} {m : Nat} {e : Int} {hm : 0 < m}

theorem reading_finite (h : x.toModel.unpack = .finite s m e hm) :
    reading x = .finite (isMinus s) m e := by
  unfold reading
  rw [h]

theorem eq_pack (h : x.toModel.unpack = .finite s m e hm) :
    x = .ofModel (.pack (.finite s m e hm)) := by
  rw [← h, pack_unpack]

theorem abs_eq_pack (h : x.toModel.unpack = .finite s m e hm) :
    x.abs = .ofModel (.pack (.finite .positive m e hm)) := by
  change Float.ofModel (.pack x.toModel.unpack.abs) = _
  rw [h]
  rfl

/-- A sign before the text of a magnitude is the sign of the double. -/
theorem toFloat_signed (h : x.toModel.unpack = .finite s m e hm) {d : Decimal}
    (hd : d.toFloat = .ofModel (.pack (.finite .positive m e hm))) :
    (Numeral.mk (isMinus s) d).toFloat = x := by
  rw [eq_pack h]
  unfold Numeral.toFloat
  rw [hd]
  cases s with
  | positive => rfl
  | negative =>
    change Float.ofModel (.pack (UnpackedFloat.neg (Float.Model.unpack (.pack _)))) = _
    rw [unpack_pack_finite .positive (legal_of_unpack h)]
    rfl

theorem toInt?_eq (h : x.toModel.unpack = .finite s m e hm) :
    toInt? x = if m * 2 ^ e.toNat % 2 ^ (-e).toNat = 0 then
      some (s.apply (m * 2 ^ e.toNat / 2 ^ (-e).toNat : Nat)) else none := by
  unfold toInt?
  rw [reading_finite h]
  cases s <;> rfl

theorem magnitude_of_toInt? (h : x.toModel.unpack = .finite s m e hm) {n : Int}
    (hn : toInt? x = some n) : magnitude m e = n.natAbs := by
  rw [toInt?_eq h] at hn
  split at hn
  · rename_i hmod
    obtain rfl := Option.some.inj hn
    have habs (q : Nat) : (s.apply q).natAbs = q := by cases s <;> simp [Sign.apply]
    rw [habs, magnitude_eq_iff]
    exact (Nat.div_mul_cancel (Nat.dvd_of_mod_eq_zero hmod)).symm
  · cases hn

theorem not_whole_of_toInt? (h : x.toModel.unpack = .finite s m e hm) (hn : toInt? x = none)
    (n : Nat) : magnitude m e ≠ n := by
  intro hv
  rw [magnitude_eq_iff] at hv
  rw [toInt?_eq h, hv] at hn
  simp at hn

/-! ## The shortest text -/

theorem toFloat_exact_decimal (h : x.toModel.unpack = .finite s m e hm) (he : e < 0) :
    (exact m e).toFloat = .ofModel (.pack (.finite .positive m e hm)) := by
  have hl := legal_of_unpack h
  have hlow := hl.le_exponent
  have hexact : exact m e = ⟨m * 5 ^ (-e).toNat, -((-e).toNat : Int)⟩ := by
    unfold exact
    rw [show e.toNat = 0 by omega]
    simp
  rw [hexact]
  apply toFloat_exact (by omega) (by omega) hl
  have hpow : (10 : ℚ) ^ (-e).toNat = 2 ^ (-e).toNat * 5 ^ (-e).toNat := by
    rw [← mul_pow]
    norm_num
  have hmag : magnitude m e * 2 ^ (-e).toNat = m := by
    unfold magnitude
    rw [mul_assoc, ← zpow_natCast, ← zpow_add₀ (by norm_num),
      show e + ((-e).toNat : Int) = 0 by omega, zpow_zero, mul_one]
  rw [hpow, ← mul_assoc, hmag]
  push_cast
  rfl

/-- The shortest decimal of a double that is not whole has places and reads as its magnitude. -/
theorem shortest_reads (h : x.toModel.unpack = .finite s m e hm) (hn : toInt? x = none) :
    (shortest x.abs m e).exponent < 0 ∧
      (shortest x.abs m e).toFloat = .ofModel (.pack (.finite .positive m e hm)) := by
  have hl := legal_of_unpack h
  have he : e < 0 := by
    by_contra he
    exact not_whole_of_toInt? h hn _ (magnitude_of_nonneg m (by omega))
  have hreads : (shortest x.abs m e).toFloat = .ofModel (.pack (.finite .positive m e hm)) := by
    unfold shortest
    dsimp only
    cases hf : firstReadingBack x.abs (ratio m e).1 (ratio m e).2 18
        (leadingExponent (ratio m e).1 (ratio m e).2) with
    | none => exact toFloat_exact_decimal h he
    | some d => exact (toFloat_of_firstReadingBack hf).trans (abs_eq_pack h)
  refine ⟨?_, hreads⟩
  by_contra hge
  have hunpack : (shortest x.abs m e).toFloat.toModel.unpack = .finite .positive m e hm := by
    rw [hreads]
    exact unpack_pack_finite .positive hl
  obtain ⟨n, hwhole⟩ := whole_of_toFloat (by omega) hunpack
  exact not_whole_of_toInt? h hn n hwhole

/-! ## Reading back -/

/-- The text of a double in parts, a sign and the digits before and after the point, and these
are read as the double. -/
structure Parts (x : Float) (negative : Bool) (whole part : List Char) : Prop where
  text_eq : text x = signText negative ++ (whole ++ '.' :: part)
  whole_ne_nil : whole ≠ []
  whole_digits : ∀ c ∈ whole, c.isDigit
  part_digits : ∀ c ∈ part, c.isDigit
  reads : (Numeral.mk negative
    ⟨Nat.ofDigitChars 10 (whole ++ part) 0, -part.length⟩).toFloat = x

theorem parts_zero (h : x.toModel.unpack = .zero s) : Parts x (isMinus s) ['0'] ['0'] := by
  refine ⟨?_, by simp, by simp, by simp, ?_⟩
  · have hread : reading x = .finite (isMinus s) 0 0 := by
      unfold reading
      rw [h]
    have hint : toInt? x = some 0 := by
      unfold toInt?
      rw [hread]
      cases s <;> rfl
    unfold text
    rw [hread]
    simp only [hint]
    simp
  · have hx : x = .ofModel (.pack (.zero s)) := by rw [← h, pack_unpack]
    rw [hx]
    cases s <;> rfl

theorem parts_of_not_whole (h : x.toModel.unpack = .finite s m e hm) (hn : toInt? x = none) :
    Parts x (isMinus s) (shortest x.abs m e).wholeDigits (shortest x.abs m e).fractionDigits := by
  obtain ⟨hneg, hreads⟩ := shortest_reads h hn
  refine ⟨?_, Decimal.wholeDigits_ne_nil _, fun c hc => isDigit_of_mem_toDigits hc,
    fun c hc => isDigit_of_mem_fractionDigits hc, ?_⟩
  · unfold text
    rw [reading_finite h]
    simp only [hn]
    rw [text_of_places hneg]
  · rw [decimal_of_digits hneg]
    exact toFloat_signed h hreads

theorem parts_of_whole (h : x.toModel.unpack = .finite s m e hm) {n : Int}
    (hn : toInt? x = some n) : Parts x (isMinus s) (Nat.toDigits 10 n.natAbs) ['0'] := by
  refine ⟨?_, Nat.toDigits_ne_nil, fun c hc => isDigit_of_mem_toDigits hc, by simp, ?_⟩
  · unfold text
    rw [reading_finite h]
    simp only [hn, List.append_assoc]
  · apply toFloat_signed h
    have hmag := magnitude_of_toInt? h hn
    have hdigits : Nat.ofDigitChars 10 (Nat.toDigits 10 n.natAbs ++ ['0']) 0 =
        10 * n.natAbs := by
      rw [Nat.ofDigitChars_append, Nat.ofDigitChars_ten_toDigits]
      simp [Nat.ofDigitChars_cons]
    rw [hdigits]
    apply toFloat_exact (by decide) (by decide) (legal_of_unpack h)
    rw [hmag]
    push_cast
    simp [mul_comm]

/-- The text of every finite double has parts that are read as the double. -/
theorem exists_parts (h : x.isFinite) : ∃ negative whole part, Parts x negative whole part := by
  change x.toModel.unpack.isFinite = true at h
  cases hu : x.toModel.unpack with
  | infinity s =>
    rw [hu] at h
    cases h
  | notANumber =>
    rw [hu] at h
    cases h
  | zero s => exact ⟨_, _, _, parts_zero hu⟩
  | finite s m e hm =>
    cases hn : toInt? x with
    | none => exact ⟨_, _, _, parts_of_not_whole hu hn⟩
    | some n => exact ⟨_, _, _, parts_of_whole hu hn⟩

end

end Double
end PageTemplate
