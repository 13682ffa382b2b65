import Mathlib.Data.List.TakeWhile
import PageTemplate.Number.Numeral

/-! How numbers are written. An integer is an optional sign and digits. A numeral has digits with
an optional point after, before or among them, and an optional exponent. A number is read where
it is written so, and nowhere else. -/
namespace PageTemplate.Numeral

/-! ## What is written -/

def IsDigit (c : Char) : Prop := '0' ≤ c ∧ c ≤ '9'

instance (c : Char) : Decidable (IsDigit c) := inferInstanceAs (Decidable ('0' ≤ c ∧ c ≤ '9'))

/-- One or more digits. -/
structure Digits (s : List Char) : Prop where
  ne_nil : s ≠ []
  digit : ∀ c ∈ s, IsDigit c

/-- An optional sign, and whether it is a minus. -/
inductive Sign : List Char → Bool → Prop
  | absent : Sign [] false
  | plus : Sign ['+'] false
  | minus : Sign ['-'] true

/-- An optional sign and one or more digits. -/
inductive SpellsInt : List Char → Int → Prop
  | mk {sign digits : List Char} {negative : Bool} (hs : Sign sign negative) (hd : Digits digits) :
    SpellsInt (sign ++ digits)
      (if negative then -(Nat.ofDigitChars 10 digits 0 : Int) else Nat.ofDigitChars 10 digits 0)

/-- The digits before and after an optional point, at least one in all. -/
inductive Mantissa : List Char → List Char → List Char → Prop
  | whole {w : List Char} (hw : Digits w) : Mantissa w w []
  | point {w p : List Char} (hw : Digits w) (hp : ∀ c ∈ p, IsDigit c) : Mantissa (w ++ '.' :: p) w p
  | part {p : List Char} (hp : Digits p) : Mantissa ('.' :: p) [] p

/-- An optional power of ten. -/
inductive Exponent : List Char → Int → Prop
  | absent : Exponent [] 0
  | mark {c : Char} {s : List Char} {n : Int} (hc : c = 'e' ∨ c = 'E') (h : SpellsInt s n) :
    Exponent (c :: s) n

inductive Spells : List Char → Numeral → Prop
  | mk {sign mantissa whole part exponent : List Char} {negative : Bool} {e : Int}
    (hs : Sign sign negative) (hm : Mantissa mantissa whole part) (he : Exponent exponent e) :
    Spells (sign ++ (mantissa ++ exponent))
      ⟨negative, ⟨Nat.ofDigitChars 10 (whole ++ part) 0, e - part.length⟩⟩

/-! ## Signs and digits -/

theorem isDigit_iff {c : Char} : c.isDigit ↔ IsDigit c := by
  simp only [Char.isDigit, Bool.and_eq_true, decide_eq_true_eq, ge_iff_le]
  rfl

theorem ne_of_isDigit {c d : Char} (h : IsDigit c) (hd : d.isDigit = false) : c ≠ d := by
  rintro rfl
  rw [isDigit_iff.2 h] at hd
  cases hd

theorem digits_of_isDigit {s : List Char} (hne : s ≠ []) (hs : ∀ c ∈ s, c.isDigit) : Digits s :=
  ⟨hne, fun c hc => isDigit_iff.1 (hs c hc)⟩

theorem sign_signText (negative : Bool) : Sign (signText negative) negative := by
  cases negative with
  | false => exact .absent
  | true => exact .minus

/-- What goes on after a sign. -/
def Unsigned (s : List Char) : Prop := ∀ c ∈ s.head?, c ≠ '+' ∧ c ≠ '-'

theorem Digits.head {s : List Char} (h : Digits s) (rest : List Char) :
    ∀ c ∈ (s ++ rest).head?, IsDigit c := by
  obtain ⟨c, r, rfl⟩ := List.exists_cons_of_ne_nil h.ne_nil
  rintro d ⟨⟩
  exact h.digit c (by simp)

theorem Digits.unsigned {s : List Char} (h : Digits s) (rest : List Char) :
    Unsigned (s ++ rest) := by
  intro c hc
  have hd := h.head rest c hc
  exact ⟨ne_of_isDigit hd (by decide), ne_of_isDigit hd (by decide)⟩

theorem Mantissa.head {m whole part : List Char} (h : Mantissa m whole part) (rest : List Char) :
    ∀ c ∈ (m ++ rest).head?, c = '.' ∨ IsDigit c := by
  intro c hc
  cases h with
  | whole hw => exact .inr (hw.head rest c hc)
  | point hw hp =>
    rw [List.append_assoc] at hc
    exact .inr (hw.head _ c hc)
  | part hp =>
    cases hc
    exact .inl rfl

theorem Mantissa.unsigned {m whole part : List Char} (h : Mantissa m whole part)
    (rest : List Char) : Unsigned (m ++ rest) := by
  intro c hc
  rcases h.head rest c hc with rfl | hd
  · decide
  · exact ⟨ne_of_isDigit hd (by decide), ne_of_isDigit hd (by decide)⟩

theorem exists_sign (s : List Char) :
    ∃ sign, Sign sign (splitSign s).1 ∧ s = sign ++ (splitSign s).2 := by
  fun_cases splitSign s with
  | case1 s => exact ⟨['+'], .plus, rfl⟩
  | case2 s => exact ⟨['-'], .minus, rfl⟩
  | case3 s hp hm => exact ⟨[], .absent, rfl⟩

theorem splitSign_sign {sign s : List Char} {negative : Bool} (h : Sign sign negative)
    (hs : Unsigned s) : splitSign (sign ++ s) = (negative, s) := by
  cases h with
  | plus => rfl
  | minus => rfl
  | absent =>
    cases s with
    | nil => rfl
    | cons c s =>
      obtain ⟨hp, hm⟩ := hs c rfl
      simp [splitSign, hp, hm]

theorem digitsValue?_eq_some_iff {s : List Char} {n : Nat} :
    digitsValue? s = some n ↔ Digits s ∧ Nat.ofDigitChars 10 s 0 = n := by
  have hdigits : (s ≠ [] ∧ s.all Char.isDigit) ↔ Digits s := by
    rw [List.all_eq_true]
    exact ⟨fun h => digits_of_isDigit h.1 h.2,
      fun h => ⟨h.ne_nil, fun c hc => isDigit_iff.2 (h.digit c hc)⟩⟩
  rw [digitsValue?]
  split
  · rename_i h
    simp [hdigits.1 h]
  · rename_i h
    simp [mt hdigits.2 h]

/-! ## Integers -/

theorem integer?_eq (s : List Char) :
    integer? s = (digitsValue? (splitSign s).2).map
      fun n : Nat => if (splitSign s).1 then -(n : Int) else n := by
  unfold integer?
  generalize splitSign s = p
  obtain ⟨negative, digits⟩ := p
  cases h : digitsValue? digits <;> simp [h]

theorem integer?_eq_some_iff {s : List Char} {n : Int} : integer? s = some n ↔ SpellsInt s n := by
  rw [integer?_eq]
  constructor
  · intro h
    obtain ⟨sign, hsign, hs⟩ := exists_sign s
    generalize splitSign s = p at hsign hs h
    obtain ⟨negative, digits⟩ := p
    obtain ⟨m, hm, rfl⟩ := Option.map_eq_some_iff.1 h
    obtain ⟨hdigits, rfl⟩ := digitsValue?_eq_some_iff.1 hm
    rw [hs]
    exact .mk hsign hdigits
  · rintro ⟨hsign, hdigits⟩
    have hsplit := splitSign_sign hsign (hdigits.unsigned [])
    rw [List.append_nil] at hsplit
    simp only [hsplit, digitsValue?_eq_some_iff.2 ⟨hdigits, rfl⟩, Option.map_some]

theorem int64?_eq_some_iff {s : List Char} {n : Int64} :
    int64? s = some n ↔ SpellsInt s n.toInt := by
  rw [int64?, Option.bind_eq_some_iff]
  constructor
  · rintro ⟨m, hm, hn⟩
    split at hn
    · rename_i hbounds
      cases hn
      rw [Int64.toInt_ofInt_of_le hbounds.1 (Int.lt_add_one_of_le hbounds.2)]
      exact integer?_eq_some_iff.1 hm
    · cases hn
  · intro h
    refine ⟨n.toInt, integer?_eq_some_iff.2 h, ?_⟩
    rw [if_pos ⟨n.minValue_le_toInt, n.toInt_le⟩, Int64.ofInt_toInt]

theorem SpellsInt.sign_or_digit {s : List Char} {n : Int} (h : SpellsInt s n) :
    ∀ c ∈ s, (c = '+' ∨ c = '-') ∨ IsDigit c := by
  obtain ⟨hs, hd⟩ := h
  intro c hc
  rcases List.mem_append.1 hc with hc | hc
  · cases hs with
    | absent => cases hc
    | plus => exact .inl (.inl (List.mem_singleton.1 hc))
    | minus => exact .inl (.inr (List.mem_singleton.1 hc))
  · exact .inr (hd.digit c hc)

/-! ## Numerals -/

theorem span_digits {w : List Char} (hw : ∀ c ∈ w, IsDigit c) (rest : List Char)
    (hrest : ∀ c ∈ rest.head?, c.isDigit = false) :
    (w ++ rest).takeWhile Char.isDigit = w ∧ (w ++ rest).dropWhile Char.isDigit = rest := by
  have hw' : ∀ c ∈ w, c.isDigit := fun c hc => isDigit_iff.2 (hw c hc)
  rw [List.takeWhile_append_of_pos hw', List.dropWhile_append_of_pos hw']
  cases rest with
  | nil => simp
  | cons c rest => simp [hrest c rfl]

/-- Digits, a point and digits, as far as they go, are a mantissa if there is a digit. -/
theorem exists_mantissa {s part rest : List Char}
    (hfraction : fraction (s.dropWhile Char.isDigit) = (part, rest))
    (hne : s.takeWhile Char.isDigit ++ part ≠ []) :
    ∃ m, Mantissa m (s.takeWhile Char.isDigit) part ∧ s = m ++ rest := by
  have htake {t : List Char} : ∀ c ∈ t.takeWhile Char.isDigit, IsDigit c :=
    fun c hc => isDigit_iff.1 (List.mem_takeWhile_imp hc)
  have hs := List.takeWhile_append_dropWhile (p := Char.isDigit) (l := s)
  generalize s.dropWhile Char.isDigit = t at hfraction hs
  revert hfraction
  fun_cases fraction t with
  | case1 t =>
    rintro ⟨⟩
    rw [← List.takeWhile_append_dropWhile (p := Char.isDigit) (l := t)] at hs
    by_cases hwhole : s.takeWhile Char.isDigit = []
    · rw [hwhole] at hs hne ⊢
      exact ⟨_, .part ⟨hne, htake⟩, hs.symm⟩
    · exact ⟨_, .point ⟨hwhole, htake⟩ htake, by rw [List.append_assoc]; exact hs.symm⟩
  | case2 hpoint =>
    rintro ⟨⟩
    rw [List.append_nil] at hne
    exact ⟨_, .whole ⟨hne, htake⟩, hs.symm⟩

/-- A mantissa with nothing behind it that goes on with it is found whole. -/
theorem fraction_mantissa {m whole part rest : List Char} (h : Mantissa m whole part)
    (hrest : ∀ c ∈ rest.head?, c.isDigit = false ∧ c ≠ '.') :
    (m ++ rest).takeWhile Char.isDigit = whole ∧
      fraction ((m ++ rest).dropWhile Char.isDigit) = (part, rest) ∧ whole ++ part ≠ [] := by
  have hdigit : ∀ c ∈ rest.head?, c.isDigit = false := fun c hc => (hrest c hc).1
  have hpoint {t : List Char} : ∀ c ∈ ('.' :: t).head?, c.isDigit = false := by
    rintro c ⟨⟩
    decide
  cases h with
  | whole hw =>
    obtain ⟨htake, hdrop⟩ := span_digits hw.digit rest hdigit
    refine ⟨htake, ?_, by simp [hw.ne_nil]⟩
    rw [hdrop]
    cases rest with
    | nil => rfl
    | cons c rest => simp [fraction, (hrest c rfl).2]
  | point hw hp =>
    rw [List.append_assoc, List.cons_append]
    obtain ⟨htake, hdrop⟩ := span_digits hw.digit ('.' :: (part ++ rest)) hpoint
    obtain ⟨hptake, hpdrop⟩ := span_digits hp rest hdigit
    refine ⟨htake, ?_, by simp [hw.ne_nil]⟩
    rw [hdrop, fraction, hptake, hpdrop]
  | part hp =>
    obtain ⟨htake, hdrop⟩ := span_digits (w := []) (by simp) ('.' :: (part ++ rest)) hpoint
    obtain ⟨hptake, hpdrop⟩ := span_digits hp.digit rest hdigit
    rw [List.nil_append] at htake hdrop
    refine ⟨htake, ?_, by simp [hp.ne_nil]⟩
    rw [List.cons_append, hdrop, fraction, hptake, hpdrop]

theorem exponent?_eq_some_iff {s : List Char} {n : Int} : exponent? s = some n ↔ Exponent s n := by
  constructor
  · fun_cases exponent? s with
    | case1 =>
      rintro ⟨⟩
      exact .absent
    | case2 c s hc => exact fun h => .mark hc (integer?_eq_some_iff.1 h)
    | case3 c s hc => rintro ⟨⟩
  · intro h
    cases h with
    | absent => rfl
    | mark hc h => rw [exponent?, if_pos hc, integer?_eq_some_iff.2 h]

theorem Exponent.head {s : List Char} {n : Int} (h : Exponent s n) :
    ∀ c ∈ s.head?, c.isDigit = false ∧ c ≠ '.' := by
  cases h with
  | absent => simp
  | mark hc h =>
    rintro c ⟨⟩
    rcases hc with rfl | rfl <;> decide

/-- A numeral is read exactly where one is written. -/
theorem parse?_eq_some_iff {s : List Char} {n : Numeral} : parse? s = some n ↔ Spells s n := by
  constructor
  · intro h
    obtain ⟨sign, hsign, hs⟩ := exists_sign s
    rw [parse?] at h
    generalize splitSign s = p at hsign hs h
    obtain ⟨negative, t⟩ := p
    generalize hfraction : fraction (t.dropWhile Char.isDigit) = q at h
    obtain ⟨part, rest⟩ := q
    simp only [hfraction] at h
    split at h
    · cases h
    · rename_i hne
      obtain ⟨e, he, rfl⟩ := Option.map_eq_some_iff.1 h
      obtain ⟨m, hm, rfl⟩ := exists_mantissa hfraction hne
      rw [hs]
      exact .mk hsign hm (exponent?_eq_some_iff.1 he)
  · rintro ⟨hsign, hm, he⟩
    obtain ⟨htake, hfraction, hne⟩ := fraction_mantissa hm he.head
    simp only [parse?, splitSign_sign hsign (hm.unsigned _), htake, hfraction, if_neg hne,
      exponent?_eq_some_iff.2 he, Option.map_some]

theorem Digits.exists_isDigit {s : List Char} (h : Digits s) : ∃ c ∈ s, c.isDigit := by
  obtain ⟨c, hc⟩ := List.exists_mem_of_ne_nil s h.ne_nil
  exact ⟨c, hc, isDigit_iff.2 (h.digit c hc)⟩

theorem Mantissa.exists_isDigit {m whole part : List Char} (h : Mantissa m whole part) :
    ∃ c ∈ m, c.isDigit := by
  cases h with
  | whole hw => exact hw.exists_isDigit
  | point hw hp =>
    obtain ⟨c, hc, hd⟩ := hw.exists_isDigit
    exact ⟨c, List.mem_append_left _ hc, hd⟩
  | part hp =>
    obtain ⟨c, hc, hd⟩ := hp.exists_isDigit
    exact ⟨c, List.mem_cons_of_mem _ hc, hd⟩

theorem Spells.exists_isDigit {s : List Char} {n : Numeral} (h : Spells s n) :
    ∃ c ∈ s, c.isDigit := by
  obtain ⟨hs, hm, he⟩ := h
  obtain ⟨c, hc, hd⟩ := hm.exists_isDigit
  exact ⟨c, List.mem_append_right _ (List.mem_append_left _ hc), hd⟩

theorem Spells.head {s : List Char} {n : Numeral} (h : Spells s n) :
    ∀ c ∈ s.head?, (c = '+' ∨ c = '-' ∨ c = '.') ∨ IsDigit c := by
  obtain ⟨hs, hm, he⟩ := h
  intro c hc
  cases hs with
  | absent => exact (hm.head _ c hc).imp_left fun h => .inr (.inr h)
  | plus =>
    cases hc
    exact .inl (.inl rfl)
  | minus =>
    cases hc
    exact .inl (.inr (.inl rfl))

/-- An integer is a numeral without a point and without an exponent. -/
theorem SpellsInt.spells {s : List Char} {n : Int} (h : SpellsInt s n) : ∃ m, Spells s m := by
  obtain ⟨hs, hd⟩ := h
  have hspells := Spells.mk hs (.whole hd) .absent
  rw [List.append_nil] at hspells
  exact ⟨_, hspells⟩

end PageTemplate.Numeral
