import PageTemplate.Number.Rounding
import PageTemplate.Proofs.Number.Whole
import PageTemplate.Text.Space

/-! Decimal texts and what they spell. A double that is rounded to some places is the nearest number
with so many, the even one of two, and its text has just these places and spells that number. -/
namespace PageTemplate

/-! ## The number of a text -/

def Decimal.value (d : Decimal) : ℚ := d.digits * 10 ^ d.exponent

def Numeral.value (n : Numeral) : ℚ := if n.negative then -n.magnitude.value else n.magnitude.value

/-- The number that a text spells, if it is a numeral. -/
def textValue? (s : Text) : Option ℚ := (Numeral.parse? s).map Numeral.value

/-- Digits before a point and after it; the point is left out if nothing follows it. -/
def decimalText (whole part : Text) : Text := whole ++ if part = [] then [] else '.' :: part

/-- The number of the digits before a point and after it. -/
def digitsValue (whole part : Text) : ℚ := Nat.ofDigitChars 10 (whole ++ part) 0 / 10 ^ part.length

section

variable {whole part : Text}

theorem mantissa_decimalText (hne : whole ++ part ≠ []) (hw : ∀ c ∈ whole, c.isDigit)
    (hp : ∀ c ∈ part, c.isDigit) : Numeral.Mantissa (decimalText whole part) whole part := by
  unfold decimalText
  split
  · rename_i hpart
    subst hpart
    rw [List.append_nil] at hne ⊢
    exact .whole (Numeral.digits_of_isDigit hne hw)
  · rename_i hpart
    by_cases hwhole : whole = []
    · subst hwhole
      exact .part (Numeral.digits_of_isDigit hpart hp)
    · exact .point (Numeral.digits_of_isDigit hwhole hw) fun c hc => Numeral.isDigit_iff.1 (hp c hc)

theorem parse?_decimalText (hne : whole ++ part ≠ []) (hw : ∀ c ∈ whole, c.isDigit)
    (hp : ∀ c ∈ part, c.isDigit) :
    Numeral.parse? (decimalText whole part) =
      some ⟨false, ⟨Nat.ofDigitChars 10 (whole ++ part) 0, -part.length⟩⟩ := by
  have hspells := Numeral.Spells.mk .absent (mantissa_decimalText hne hw hp) .absent
  rw [List.append_nil, List.nil_append, zero_sub] at hspells
  exact Numeral.parse?_eq_some_iff.2 hspells

/-- Digits with a point among them spell what they say. -/
theorem textValue?_decimalText (hne : whole ++ part ≠ []) (hw : ∀ c ∈ whole, c.isDigit)
    (hp : ∀ c ∈ part, c.isDigit) :
    textValue? (decimalText whole part) = some (digitsValue whole part) := by
  unfold textValue?
  rw [parse?_decimalText hne hw hp]
  simp only [Option.map_some, Numeral.value, Bool.false_eq_true, ↓reduceIte, Decimal.value,
    digitsValue, zpow_neg, zpow_natCast, div_eq_mul_inv]

end

theorem isDigit_of_mem_wholeDigits {c : Char} {d : Decimal} (h : c ∈ d.wholeDigits) : c.isDigit :=
  Double.isDigit_of_mem_toDigits h

theorem toDigits_of_leading_zero {n : Nat} (h : (Nat.toDigits 10 n).head? = some '0') :
    Nat.toDigits 10 n = ['0'] := by
  induction n using Nat.strong_induction_on with
  | h n ih =>
    by_cases hn : n < 10
    · rw [Nat.toDigits_of_lt_base hn, List.head?_cons, Option.some_inj] at h
      rw [Nat.toDigits_of_lt_base hn, h]
    · rw [Nat.toDigits_of_base_le (by decide) (by omega),
        List.head?_append_of_ne_nil _ Nat.toDigits_ne_nil] at h
      -- the digits before the last one would be a single zero
      have hzero := ih (n / 10) (by omega) h
      have hvalue := congrArg (Nat.ofDigitChars 10 · 0) hzero
      simp only [Nat.ofDigitChars_ten_toDigits] at hvalue
      have : n / 10 = 0 := hvalue
      omega

theorem Decimal.text_eq (d : Decimal) : d.text = decimalText d.wholeDigits d.fractionDigits := by
  have hlength := d.length_fractionDigits
  unfold text decimalText
  by_cases h : d.places = 0
  · rw [h, List.length_eq_zero_iff] at hlength
    rw [if_pos h, if_pos hlength, List.append_nil]
  · rw [if_neg h, if_neg]
    rintro hnil
    rw [hnil] at hlength
    exact h hlength.symm

/-- A decimal with places is what its digits say. -/
theorem Decimal.value_eq (n places : Nat) :
    (Decimal.mk n (-places)).value =
      digitsValue (Decimal.mk n (-places)).wholeDigits (Decimal.mk n (-places)).fractionDigits := by
  have hplaces : (Decimal.mk n (-places)).places = places := by simp [Decimal.places]
  have hdigits : Nat.ofDigitChars 10
      ((Decimal.mk n (-places)).wholeDigits ++ (Decimal.mk n (-places)).fractionDigits) 0 = n := by
    rcases Nat.eq_zero_or_pos places with rfl | hpos
    · simp [wholeDigits, fractionDigits, Decimal.places, Nat.ofDigitChars_ten_toDigits]
    · have h := Double.decimal_of_digits (d := ⟨n, -places⟩) (by simpa using hpos)
      exact congrArg Decimal.digits h
  unfold digitsValue
  rw [hdigits, length_fractionDigits, hplaces]
  simp only [value, zpow_neg, zpow_natCast, div_eq_mul_inv]

theorem Decimal.textValue?_text (n places : Nat) :
    textValue? (Decimal.mk n (-places)).text = some (Decimal.mk n (-places)).value := by
  rw [text_eq, textValue?_decimalText (by simp [wholeDigits_ne_nil])
    (fun _ => isDigit_of_mem_wholeDigits) (fun _ => Double.isDigit_of_mem_fractionDigits),
    ← value_eq]

theorem Decimal.textValue?_text_eq_zero_iff (n places : Nat) :
    textValue? (Decimal.mk n (-places)).text = some 0 ↔ n = 0 := by
  rw [textValue?_text, Option.some_inj]
  simp [value]

/-! ## Rounding -/

/-- A natural number that no other one is nearer to `x` than; a tie goes to the even one. -/
structure IsRounded (x : ℚ) (n : Nat) : Prop where
  near : 2 * |n - x| ≤ 1
  even : 2 * |n - x| = 1 → n % 2 = 0

theorem roundHalfEven_even {num den : Nat} (h : 0 < den)
    (htie : 2 * (roundHalfEven num den * den) = 2 * num + den ∨
      2 * num = 2 * (roundHalfEven num den * den) + den) : roundHalfEven num den % 2 = 0 := by
  have hdiv := Nat.div_add_mod num den
  have hlt := Nat.mod_lt num h
  have hmul : num / den * den = den * (num / den) := Nat.mul_comm _ _
  unfold roundHalfEven at htie ⊢
  dsimp only at htie ⊢
  split at htie
  · rename_i hup
    rw [if_pos hup]
    rw [Nat.add_mul] at htie
    omega
  · rename_i hdown
    rw [if_neg hdown]
    omega

theorem isRounded_roundHalfEven (num : Nat) {den : Nat} (h : 0 < den) :
    IsRounded (num / den) (roundHalfEven num den) := by
  have hden : (0 : ℚ) < den := by exact_mod_cast h
  generalize hn : roundHalfEven num den = n
  have hscale : (2 * |(n : ℚ) - num / den|) * den = |(2 * (n * den) : ℚ) - 2 * num| := by
    rw [mul_assoc, ← abs_of_pos hden, ← abs_mul, abs_of_pos hden, ← abs_two, ← abs_mul, abs_two]
    congr 1
    field_simp
  obtain ⟨hle, hge⟩ := roundHalfEven_near num h
  rw [hn] at hle hge
  constructor
  · rw [← mul_le_mul_iff_left₀ hden, hscale, one_mul, abs_le]
    have hle' : (2 * (n * den) : ℚ) ≤ 2 * num + den := by exact_mod_cast hle
    have hge' : (2 * num : ℚ) ≤ 2 * (n * den) + den := by exact_mod_cast hge
    constructor <;> linarith
  · intro htie
    rw [← hn]
    refine roundHalfEven_even h ?_
    rw [hn]
    have habs : |(2 * (n * den) : ℚ) - 2 * num| = den := by rw [← hscale, htie, one_mul]
    rcases (abs_eq hden.le).1 habs with hup | hdown
    · left
      have : (2 * (n * den) : ℚ) = 2 * num + den := by linarith
      exact_mod_cast this
    · right
      have : (2 * num : ℚ) = 2 * (n * den) + den := by linarith
      exact_mod_cast this

/-- The text of a number with so many decimal places, rounded to the nearest such number. -/
structure RoundedText (x : ℚ) (places : Nat) (text : Text) : Prop where
  form : ∃ whole part, text = decimalText whole part ∧ (∀ c ∈ whole ++ part, c.isDigit) ∧
    whole ≠ [] ∧ (whole.head? = some '0' → whole = ['0']) ∧ part.length = places
  near : ∃ n : Nat, textValue? text = some ((n : ℚ) / 10 ^ places) ∧ IsRounded (x * 10 ^ places) n

namespace Double

theorem magnitude_eq_ratio (m : Nat) (e : Int) :
    magnitude m e = ((ratio m e).1 : ℚ) / (ratio m e).2 := by
  unfold magnitude ratio
  rcases le_total 0 e with he | he
  · obtain ⟨k, rfl⟩ := Int.eq_ofNat_of_zero_le he
    simp
  · obtain ⟨k, hk⟩ := Int.eq_ofNat_of_zero_le (neg_nonneg.2 he)
    obtain rfl : e = -k := by omega
    simp [div_eq_mul_inv]

/-- A double is rounded to the nearest multiple of a power of ten. -/
theorem rounded_eq (m : Nat) (e : Int) (places : Nat) :
    ∃ n, rounded m e places = ⟨n, -places⟩ ∧ IsRounded (magnitude m e * 10 ^ places) n := by
  refine ⟨_, rfl, ?_⟩
  have h := isRounded_roundHalfEven ((ratio m e).1 * Nat.pow 10 places) (ratio_snd_pos m e)
  have hvalue : magnitude m e * 10 ^ places =
      ((ratio m e).1 * Nat.pow 10 places : Nat) / ((ratio m e).2 : ℚ) := by
    rw [magnitude_eq_ratio]
    push_cast [Nat.pow_eq]
    ring
  rw [hvalue]
  exact h

theorem roundedText (m : Nat) (e : Int) (places : Nat) :
    RoundedText (magnitude m e) places (rounded m e places).text := by
  obtain ⟨n, hn, hround⟩ := rounded_eq m e places
  constructor
  · refine ⟨_, _, Decimal.text_eq _, ?_, Decimal.wholeDigits_ne_nil _, toDigits_of_leading_zero, ?_⟩
    · intro c hc
      rcases List.mem_append.1 hc with h | h
      · exact isDigit_of_mem_wholeDigits h
      · exact isDigit_of_mem_fractionDigits h
    · rw [Decimal.length_fractionDigits, hn]
      simp [Decimal.places]
  · refine ⟨n, ?_, hround⟩
    rw [hn, Decimal.textValue?_text, Decimal.value, zpow_neg, zpow_natCast, div_eq_mul_inv]

theorem rounded_zero (e : Int) (places : Nat) : (rounded 0 e places).digits = 0 := by
  obtain ⟨n, hn, hround⟩ := rounded_eq 0 e places
  have hnear := hround.near
  simp only [magnitude, Nat.cast_zero, zero_mul, sub_zero, Nat.abs_cast] at hnear
  rw [hn]
  have hlt : (n : ℚ) < 1 := by linarith
  exact Nat.lt_one_iff.1 (by exact_mod_cast hlt)

/-- A finite double is below zero if it has a minus and is no zero. -/
theorem lt_zero_iff {x : Float} {negative : Bool} {m : Nat} {e : Int}
    (h : reading x = .finite negative m e) : x < 0 ↔ negative = true ∧ m ≠ 0 := by
  have hzero : (0 : Float).toModel.unpack = .zero .positive := rfl
  rw [lt_iff, hzero]
  unfold reading at h
  cases hx : x.toModel.unpack with
  | notANumber =>
    rw [hx] at h
    cases h
  | infinity s =>
    rw [hx] at h
    cases h
  | zero s =>
    rw [hx] at h
    cases h
    exact iff_of_false (by cases s <;> decide) fun hne => hne.2 rfl
  | finite s k d hk =>
    rw [hx] at h
    cases h
    cases s with
    | negative => exact iff_of_true rfl ⟨rfl, hk.ne'⟩
    | positive => exact iff_of_false Bool.false_ne_true fun hne => Bool.false_ne_true hne.1

end Double
end PageTemplate
