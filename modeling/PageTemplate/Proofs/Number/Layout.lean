import PageTemplate.Number.Pattern
import PageTemplate.Proofs.Number.Rounding

/-! What a decimal pattern makes of a number. The digits shown spell the number rounded to the
places of the pattern: only zeros are added or left out, and commas change nothing. -/
namespace PageTemplate

/-! ## Zeros that do not count -/

theorem digitsValue_append_zeros (whole part : Text) (k : Nat) :
    digitsValue whole (part ++ List.replicate k '0') = digitsValue whole part := by
  have hp : (10 : ℚ) ^ part.length ≠ 0 := pow_ne_zero _ (by norm_num)
  unfold digitsValue
  rw [← List.append_assoc, Nat.ofDigitChars_append, Nat.ofDigitChars_replicate_zero,
    List.length_append, List.length_replicate, pow_add]
  push_cast
  field_simp

theorem digitsValue_zeros_append (whole part : Text) (k : Nat) :
    digitsValue (List.replicate k '0' ++ whole) part = digitsValue whole part := by
  unfold digitsValue
  rw [List.append_assoc, Nat.ofDigitChars_append, Nat.ofDigitChars_replicate_zero, Nat.mul_zero]

theorem zeros_append_dropWhile (s : Text) :
    ∃ k, s = List.replicate k '0' ++ s.dropWhile (· = '0') := by
  refine ⟨(s.takeWhile (· = '0')).length, ?_⟩
  have hzeros : s.takeWhile (· = '0') =
      List.replicate (s.takeWhile (· = '0')).length '0' :=
    List.eq_replicate_of_mem fun c hc => by simpa using List.mem_takeWhile_imp hc
  rw [← hzeros, List.takeWhile_append_dropWhile]

theorem head?_dropWhile_zero (s : Text) : (s.dropWhile (· = '0')).head? ≠ some '0' := by
  intro h
  have hnot := List.head?_dropWhile_not (fun c => decide (c = '0')) s
  rw [h] at hnot
  simp at hnot

namespace Pattern

/-! ## Digits after the point -/

section

variable {keep : Nat} {s : Text}

theorem dropZeros_append (keep : Nat) (s : Text) :
    ∃ k, s = dropZeros keep s ++ List.replicate k '0' := by
  obtain ⟨k, hk⟩ := zeros_append_dropWhile (s.drop keep).reverse
  refine ⟨k, ?_⟩
  have hdrop := congrArg List.reverse hk
  rw [List.reverse_reverse, List.reverse_append, List.reverse_replicate] at hdrop
  unfold dropZeros
  rw [List.append_assoc, ← hdrop, List.take_append_drop]

theorem le_length_dropZeros (h : keep ≤ s.length) : keep ≤ (dropZeros keep s).length := by
  unfold dropZeros
  rw [List.length_append, List.length_take_of_le h]
  exact Nat.le_add_right keep _

theorem length_dropZeros_le (keep : Nat) (s : Text) : (dropZeros keep s).length ≤ s.length := by
  obtain ⟨k, hk⟩ := dropZeros_append keep s
  have hlength := congrArg List.length hk
  rw [List.length_append] at hlength
  omega

/-- Of the digits that need not be shown the last is no zero. -/
theorem getLast?_dropZeros (h : keep < (dropZeros keep s).length) :
    (dropZeros keep s).getLast? ≠ some '0' := by
  have hhead := head?_dropWhile_zero (s.drop keep).reverse
  unfold dropZeros at h ⊢
  cases hrest : (s.drop keep).reverse.dropWhile (· = '0') with
  | nil =>
    rw [hrest, List.reverse_nil, List.append_nil] at h
    exact absurd (List.length_take_le keep s) h.not_ge
  | cons c rest =>
    rw [hrest, List.head?_cons] at hhead
    rw [List.reverse_cons, ← List.append_assoc, List.getLast?_concat]
    exact hhead

theorem mem_of_mem_dropZeros {c : Char} (h : c ∈ dropZeros keep s) : c ∈ s := by
  obtain ⟨k, hk⟩ := dropZeros_append keep s
  rw [hk]
  exact List.mem_append_left _ h

end

/-! ## Groups -/

/-- Text without its commas. -/
def ungrouped (s : Text) : Text := s.filter (· ≠ ',')

/-- The commas of a text of digits: there is one before each digit but the first from which on there
are whole groups, and nowhere else. -/
structure Grouped (grouping : Option Nat) (text : Text) : Prop where
  comma_iff : ∀ u c v, text = u ++ c :: v → c.isDigit →
    (u.getLast? = some ',' ↔ ∃ size, grouping = some size ∧ ungrouped u ≠ [] ∧
      size ∣ (ungrouped (c :: v)).length)
  digit_after : ∀ u v, text = u ++ ',' :: v → ∃ c w, v = c :: w ∧ c.isDigit

section

variable {size : Nat} {s : Text}

theorem ne_comma_of_isDigit {c : Char} (h : c.isDigit) : c ≠ ',' := by
  rintro rfl
  cases h

theorem ungrouped_of_digits (hs : ∀ c ∈ s, c.isDigit) : ungrouped s = s :=
  List.filter_eq_self.2 fun c hc => by simpa using ne_comma_of_isDigit (hs c hc)

theorem ungrouped_cons {c : Char} (hc : c.isDigit) (s : Text) :
    ungrouped (c :: s) = c :: ungrouped s :=
  List.filter_cons_of_pos (by simpa using ne_comma_of_isDigit hc)

theorem ungrouped_comma (s : Text) : ungrouped (',' :: s) = ungrouped s := rfl

theorem group_cons (size : Nat) (c : Char) (s : Text) :
    group size (c :: s) =
      c :: if s ≠ [] ∧ s.length % size = 0 then ',' :: group size s else group size s := by
  rw [group]
  split <;> rfl

theorem head?_group (size : Nat) (s : Text) : (group size s).head? = s.head? := by
  cases s with
  | nil => rfl
  | cons c s =>
    rw [group_cons]
    rfl

theorem ungrouped_group (hs : ∀ c ∈ s, c.isDigit) : ungrouped (group size s) = s := by
  induction s with
  | nil => rfl
  | cons c s ih =>
    have hrest := ih fun d hd => hs d (List.mem_cons_of_mem c hd)
    rw [group_cons, ungrouped_cons (hs c List.mem_cons_self)]
    split
    · rw [ungrouped_comma, hrest]
    · rw [hrest]

/-- A comma stands before a digit that is not the first if whole groups begin with it. -/
theorem getLast?_of_group (hs : ∀ c ∈ s, c.isDigit) {u v : Text} {c : Char} (hc : c.isDigit)
    (h : group size s = u ++ c :: v) :
    u.getLast? = some ',' ↔ ungrouped u ≠ [] ∧ size ∣ (ungrouped (c :: v)).length := by
  induction s generalizing u with
  | nil => simp [group] at h
  | cons d s ih =>
    have hd := hs d List.mem_cons_self
    have hrest : ∀ x ∈ s, x.isDigit := fun x hx => hs x (List.mem_cons_of_mem d hx)
    -- the digit is the next one after `d`, or it comes after that one
    have hnext : group size s = c :: v →
        (s ≠ [] ∧ s.length % size = 0 ↔ size ∣ (ungrouped (c :: v)).length) := by
      intro hg
      have hne : s ≠ [] := by
        rintro rfl
        cases hg
      rw [← hg, ungrouped_group hrest, Nat.dvd_iff_mod_eq_zero]
      exact and_iff_right hne
    have hlater : ∀ x w, group size s = x :: w ++ c :: v →
        ((x :: w).getLast? = some ',' ↔ size ∣ (ungrouped (c :: v)).length) := by
      intro x w hg
      have hx : x.isDigit := by
        have hhead := head?_group size s
        rw [hg] at hhead
        exact hrest x (List.mem_of_mem_head? hhead.symm)
      rw [ih hrest hg, ungrouped_cons hx]
      exact and_iff_right (List.cons_ne_nil _ _)
    cases u with
    | nil => simp [ungrouped]
    | cons d' u =>
      rw [group_cons] at h
      obtain ⟨rfl, htail⟩ := List.cons.inj h
      rw [ungrouped_cons hd, and_iff_right (List.cons_ne_nil d (ungrouped u))]
      split at htail
      · rename_i hcomma
        rcases u with _ | ⟨x, _ | ⟨y, w⟩⟩
        · exact absurd (List.cons.inj htail).1.symm (ne_comma_of_isDigit hc)
        · obtain ⟨rfl, hg⟩ := List.cons.inj htail
          exact iff_of_true rfl ((hnext hg).1 hcomma)
        · exact hlater y w (List.cons.inj htail).2
      · rename_i hcomma
        rcases u with _ | ⟨x, w⟩
        · refine iff_of_false ?_ (mt (hnext htail).2 hcomma)
          simpa using ne_comma_of_isDigit hd
        · exact hlater x w htail

theorem digit_after_of_group (hs : ∀ c ∈ s, c.isDigit) {u v : Text}
    (h : group size s = u ++ ',' :: v) : ∃ c w, v = c :: w ∧ c.isDigit := by
  induction s generalizing u with
  | nil => simp [group] at h
  | cons d s ih =>
    have hrest : ∀ x ∈ s, x.isDigit := fun x hx => hs x (List.mem_cons_of_mem d hx)
    rw [group_cons] at h
    cases u with
    | nil => exact absurd (List.cons.inj h).1 (ne_comma_of_isDigit (hs d List.mem_cons_self))
    | cons d' u =>
      have htail := (List.cons.inj h).2
      split at htail
      · rename_i hcomma
        cases u with
        | nil =>
          -- the comma stands right after `d`
          obtain ⟨-, rfl⟩ := List.cons.inj htail
          obtain ⟨c, s', rfl⟩ := List.exists_cons_of_ne_nil hcomma.1
          obtain ⟨w, hw⟩ := List.head?_eq_some_iff.1 (head?_group size (c :: s'))
          exact ⟨c, w, hw, hrest c List.mem_cons_self⟩
        | cons x u => exact ih hrest (List.cons.inj htail).2
      · exact ih hrest htail

/-- Digits with commas before whole groups, if there is a grouping. -/
def withCommas (grouping : Option Nat) (s : Text) : Text :=
  match grouping with
  | some size => group size s
  | none => s

theorem ungrouped_withCommas (grouping : Option Nat) (hs : ∀ c ∈ s, c.isDigit) :
    ungrouped (withCommas grouping s) = s := by
  cases grouping with
  | none => exact ungrouped_of_digits hs
  | some size => exact ungrouped_group hs

theorem grouped_withCommas (grouping : Option Nat) (hs : ∀ c ∈ s, c.isDigit) :
    Grouped grouping (withCommas grouping s) := by
  cases grouping with
  | none =>
    have hcomma : ',' ∉ s := fun h => ne_comma_of_isDigit (hs _ h) rfl
    constructor
    · rintro u c v rfl -
      refine iff_of_false (fun h => hcomma ?_) fun ⟨_, h, _⟩ => nomatch h
      exact List.mem_append_left _ (List.mem_of_getLast? h)
    · rintro u v rfl
      exact absurd (by simp) hcomma
  | some size =>
    constructor
    · intro u c v h hc
      rw [getLast?_of_group hs hc h]
      simp
    · intro u v h
      exact digit_after_of_group hs h

end

/-! ## The digits of a pattern -/

/-- The digits shown after the point. -/
def part (p : Pattern) (d : Decimal) : Text := dropZeros p.minPlaces d.fractionDigits

/-- The digits shown before the point. -/
def whole (p : Pattern) (d : Decimal) : Text :=
  let padded := (d.wholeDigits.dropWhile (· = '0')).leftpad p.minWhole '0'
  if padded = [] ∧ p.part d = [] then ['0'] else padded

section

variable (p : Pattern) (d : Decimal)

theorem digits_eq : p.digits d = decimalText (withCommas p.grouping (p.whole d)) (p.part d) := by
  have hdigits : p.digits d = if p.part d = [] then withCommas p.grouping (p.whole d)
      else withCommas p.grouping (p.whole d) ++ '.' :: p.part d := rfl
  rw [hdigits, decimalText]
  split
  · rw [List.append_nil]
  · rfl

theorem isDigit_of_mem_part {c : Char} (h : c ∈ p.part d) : c.isDigit :=
  Double.isDigit_of_mem_fractionDigits (mem_of_mem_dropZeros h)

/-- What is shown before the point are the digits there, with other zeros in front. -/
theorem whole_eq_zeros_append :
    ∃ k, p.whole d = List.replicate k '0' ++ d.wholeDigits.dropWhile (· = '0') := by
  unfold whole
  dsimp only
  split
  · rename_i h
    exact ⟨1, by rw [(List.append_eq_nil_iff.1 h.1).2]; rfl⟩
  · exact ⟨_, rfl⟩

theorem isDigit_of_mem_whole {c : Char} (h : c ∈ p.whole d) : c.isDigit := by
  obtain ⟨k, hwhole⟩ := p.whole_eq_zeros_append d
  rw [hwhole] at h
  rcases List.mem_append.1 h with hzero | hdigit
  · rw [(List.mem_replicate.1 hzero).2]
    rfl
  · exact isDigit_of_mem_wholeDigits (List.dropWhile_subset _ hdigit)

theorem whole_append_part_ne_nil : p.whole d ++ p.part d ≠ [] := by
  unfold whole
  dsimp only
  split
  · exact List.cons_ne_nil _ _
  · rename_i h
    rwa [ne_eq, List.append_eq_nil_iff]

/-- The digits shown spell the number. -/
theorem digitsValue_shown :
    digitsValue (p.whole d) (p.part d) = digitsValue d.wholeDigits d.fractionDigits := by
  obtain ⟨i, hwhole⟩ := p.whole_eq_zeros_append d
  obtain ⟨j, hdigits⟩ := zeros_append_dropWhile d.wholeDigits
  obtain ⟨k, hpart⟩ := dropZeros_append p.minPlaces d.fractionDigits
  calc digitsValue (p.whole d) (p.part d)
    _ = digitsValue (d.wholeDigits.dropWhile (· = '0')) (p.part d) := by
      rw [hwhole, digitsValue_zeros_append]
    _ = digitsValue d.wholeDigits (p.part d) := by
      conv_rhs => rw [hdigits, digitsValue_zeros_append]
    _ = digitsValue d.wholeDigits d.fractionDigits := by
      conv_rhs => rw [hpart, digitsValue_append_zeros]
      rfl

theorem minWhole_le_length_whole : p.minWhole ≤ (p.whole d).length := by
  unfold whole
  dsimp only
  split
  · rename_i h
    have hlength := congrArg List.length h.1
    rw [List.length_leftpad, List.length_nil] at hlength
    omega
  · rw [List.length_leftpad]
    exact le_max_left _ _

/-- A zero before the digits that must be shown is there for want of any other digit. -/
theorem whole_of_leading_zero {p : Pattern} {d : Decimal}
    (hlength : p.minWhole < (p.whole d).length) (hzero : (p.whole d).head? = some '0') :
    p.whole d = ['0'] ∧ p.part d = [] := by
  unfold whole at hlength hzero ⊢
  dsimp only at hlength hzero ⊢
  split at hlength
  · rename_i h
    rw [if_pos h]
    exact ⟨rfl, h.2⟩
  · rename_i h
    rw [if_neg h] at hzero
    rw [List.length_leftpad] at hlength
    have hnone : p.minWhole - (d.wholeDigits.dropWhile (· = '0')).length = 0 := by omega
    rw [List.leftpad, hnone] at hzero
    exact absurd hzero (head?_dropWhile_zero _)

end

/-! ## What a pattern shows -/

theorem minPlaces_le_maxPlaces {pattern : Text} {p : Pattern} (h : parse pattern = .ok p) :
    p.minPlaces ≤ p.maxPlaces := by
  unfold parse ofPieces at h
  dsimp only at h
  split at h
  · cases h
  · split at h
    · cases h
    · cases h
      refine List.countP_mono_left fun c _ hc => ?_
      rw [isDigitSymbol, hc, Bool.true_or]

/-- The digits before the point, with commas, and the point with the digits after it, as a pattern
shows the number of a text. -/
structure Shows (p : Pattern) (text before after : Text) : Prop where
  value : textValue? (ungrouped before ++ after) = textValue? text
  digits_before : ∀ c ∈ ungrouped before, c.isDigit
  min_before : p.minWhole ≤ (ungrouped before).length
  leading_zero : p.minWhole < (ungrouped before).length → before.head? = some '0' →
    before = ['0'] ∧ after = []
  places : after = [] ∧ p.minPlaces = 0 ∨ ∃ part, after = '.' :: part ∧ part ≠ [] ∧
    (∀ c ∈ part, c.isDigit) ∧ p.minPlaces ≤ part.length ∧ part.length ≤ p.maxPlaces ∧
    (p.minPlaces < part.length → part.getLast? ≠ some '0')
  digit_shown : ∃ c ∈ before ++ after, c.isDigit
  grouped : Grouped p.grouping before

section

variable {p : Pattern} {d : Decimal}

theorem head?_withCommas (grouping : Option Nat) (s : Text) :
    (withCommas grouping s).head? = s.head? := by
  cases grouping with
  | none => rfl
  | some size => exact head?_group size s

theorem withCommas_single (grouping : Option Nat) (c : Char) : withCommas grouping [c] = [c] := by
  cases grouping with
  | none => rfl
  | some size => simp [withCommas, group]

theorem exists_isDigit_shown (p : Pattern) (d : Decimal) :
    ∃ c ∈ p.digits d, c.isDigit := by
  obtain ⟨c, hc⟩ := List.exists_mem_of_ne_nil _ (p.whole_append_part_ne_nil d)
  rw [digits_eq]
  rcases List.mem_append.1 hc with hwhole | hpart
  · refine ⟨c, List.mem_append_left _ ?_, p.isDigit_of_mem_whole d hwhole⟩
    have hwhole' := hwhole
    rw [← ungrouped_withCommas p.grouping fun _ => p.isDigit_of_mem_whole d] at hwhole'
    exact List.mem_of_mem_filter hwhole'
  · refine ⟨c, List.mem_append_right _ ?_, p.isDigit_of_mem_part d hpart⟩
    rw [if_neg (List.ne_nil_of_mem hpart)]
    exact List.mem_cons_of_mem _ hpart

/-- The digits of a rounded number, before the point and after it. -/
theorem shows_digits {n : Nat} (hp : p.minPlaces ≤ p.maxPlaces) (hd : d = ⟨n, -p.maxPlaces⟩) :
    p.Shows d.text (withCommas p.grouping (p.whole d))
      (if p.part d = [] then [] else '.' :: p.part d) := by
  have hwhole : ungrouped (withCommas p.grouping (p.whole d)) = p.whole d :=
    ungrouped_withCommas _ fun _ => p.isDigit_of_mem_whole d
  have hplaces : d.fractionDigits.length = p.maxPlaces := by
    rw [d.length_fractionDigits, hd]
    simp [Decimal.places]
  have hmin : p.minPlaces ≤ (p.part d).length := le_length_dropZeros (hplaces.symm ▸ hp)
  constructor
  case value =>
    rw [hwhole]
    calc textValue? (decimalText (p.whole d) (p.part d))
      _ = some (digitsValue (p.whole d) (p.part d)) :=
        textValue?_decimalText (p.whole_append_part_ne_nil d) (fun _ => p.isDigit_of_mem_whole d)
          fun _ => p.isDigit_of_mem_part d
      _ = some d.value := by rw [digitsValue_shown, hd, ← Decimal.value_eq]
      _ = textValue? d.text := by rw [hd, Decimal.textValue?_text]
  case digits_before =>
    rw [hwhole]
    exact fun _ => p.isDigit_of_mem_whole d
  case min_before =>
    rw [hwhole]
    exact p.minWhole_le_length_whole d
  case leading_zero =>
    rw [hwhole, head?_withCommas]
    intro hlength hzero
    obtain ⟨hw, hnone⟩ := whole_of_leading_zero hlength hzero
    rw [hw, if_pos hnone]
    exact ⟨withCommas_single p.grouping '0', rfl⟩
  case places =>
    by_cases hnone : p.part d = []
    · rw [if_pos hnone]
      rw [hnone] at hmin
      exact .inl ⟨rfl, Nat.le_zero.1 hmin⟩
    · rw [if_neg hnone]
      exact .inr ⟨p.part d, rfl, hnone, fun _ => p.isDigit_of_mem_part d, hmin,
        hplaces ▸ length_dropZeros_le _ _, getLast?_dropZeros⟩
  case digit_shown =>
    have h := exists_isDigit_shown p d
    rwa [digits_eq] at h
  case grouped => exact grouped_withCommas _ fun _ => p.isDigit_of_mem_whole d

end

/-- A number in a pattern is the number rounded to the places of the pattern, with a minus if it is
below zero and not rounded to zero. -/
theorem format_shows {pattern : Text} {p : Pattern} {x : Float} {negative : Bool} {m : Nat}
    {e : Int} (hp : parse pattern = .ok p)
    (hx : Double.reading (p.scale x) = .finite negative m e) :
    ∃ rounded before after, RoundedText (Double.magnitude m e) p.maxPlaces rounded ∧
      p.Shows rounded before after ∧
      p.format x = (if p.scale x < 0 ∧ textValue? rounded ≠ some 0 then ['-'] else []) ++
        p.lead ++ before ++ after ++ p.trail := by
  obtain ⟨n, hd, -⟩ := Double.rounded_eq m e p.maxPlaces
  refine ⟨_, _, _, Double.roundedText m e p.maxPlaces,
    shows_digits (minPlaces_le_maxPlaces hp) hd, ?_⟩
  have hsign : (p.scale x < 0 ∧ textValue? (Double.rounded m e p.maxPlaces).text ≠ some 0) ↔
      (negative && (Double.rounded m e p.maxPlaces).digits != 0) = true := by
    have hzero : m = 0 → (Double.rounded m e p.maxPlaces).digits = 0 := by
      rintro rfl
      exact Double.rounded_zero e p.maxPlaces
    rw [hd] at hzero ⊢
    rw [Double.lt_zero_iff hx, Bool.and_eq_true, bne_iff_ne, ne_eq _ (some (0 : ℚ)),
      Decimal.textValue?_text_eq_zero_iff]
    exact ⟨fun h => ⟨h.1.1, h.2⟩, fun h => ⟨⟨h.1, mt hzero h.2⟩, h.2⟩⟩
  unfold format
  rw [hx]
  dsimp only
  rw [digits_eq, decimalText, signText]
  simp only [hsign, List.append_assoc]

theorem format_shows_grouped :
    let p : Pattern := ⟨[], [], 1, 1, 2, some 3, false⟩
    let m := 5429388417957888
    parse "#,##0.0#".toList = .ok p ∧
      Double.reading (p.scale (-1234.5)) = .finite true m (-42) ∧
      p.format (-1234.5) = "-1,234.5".toList ∧
      ∃ rounded before after, RoundedText (Double.magnitude m (-42)) p.maxPlaces rounded ∧
        p.Shows rounded before after ∧
        p.format (-1234.5) =
          (if p.scale (-1234.5) < 0 ∧ textValue? rounded ≠ some 0 then ['-'] else []) ++
            p.lead ++ before ++ after ++ p.trail := by
  intro p m
  have hp : parse "#,##0.0#".toList = .ok p := by decide +kernel
  have hx : Double.reading (p.scale (-1234.5)) = .finite true m (-42) := by decide +kernel
  exact ⟨hp, hx, by decide +kernel, format_shows hp hx⟩

end Pattern
end PageTemplate
