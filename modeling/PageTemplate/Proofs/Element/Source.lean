import PageTemplate.Element.OfChunk
import PageTemplate.Proofs.Element.Chunk
import PageTemplate.Proofs.Element.Literal
import PageTemplate.Proofs.Number.ReadBack

/-! Elements as source. What a chunk of a tag is can be written again, and what is written is
one whole chunk that is read as the same element. It closes no tag unless a text in it does. -/
namespace PageTemplate

/-! ## Plain words -/

/-- Visible ASCII past the quote and the dollar sign. -/
def isPlain (c : Char) : Bool := 37 ≤ c.toNat && c.toNat ≤ 126

theorem isSpace_of_isPlain {c : Char} (h : isPlain c) : Text.isSpace c = false := by
  simp only [isPlain, Bool.and_eq_true, decide_eq_true_eq] at h
  simp only [Text.isSpace, Bool.or_eq_false_iff, Bool.and_eq_false_iff, decide_eq_false_iff_not,
    beq_eq_false_iff_ne]
  omega

theorem ne_of_isPlain {c d : Char} (h : isPlain c) (hd : isPlain d = false) : c ≠ d := by
  rintro rfl
  rw [h] at hd
  cases hd

theorem isPlain_of_isAlphanum {c : Char} (h : c.isAlphanum) : isPlain c := by
  simp only [Char.isAlphanum, Char.isAlpha, Char.isUpper, Char.isLower, Char.isDigit,
    Bool.or_eq_true, Bool.and_eq_true, decide_eq_true_eq, UInt32.le_iff_toNat_le, ge_iff_le] at h
  change ((65 ≤ c.toNat ∧ c.toNat ≤ 90) ∨ (97 ≤ c.toNat ∧ c.toNat ≤ 122)) ∨
    (48 ≤ c.toNat ∧ c.toNat ≤ 57) at h
  simp only [isPlain, Bool.and_eq_true, decide_eq_true_eq]
  omega

theorem isPlain_of_isDigit {c : Char} (h : c.isDigit) : isPlain c :=
  isPlain_of_isAlphanum (by simp [Char.isAlphanum, h])

theorem isPlain_of_mem_signText {c : Char} {negative : Bool} (h : c ∈ signText negative) :
    isPlain c := by
  cases negative with
  | true =>
    rw [List.mem_singleton.1 h]
    decide
  | false => cases h

theorem isPlain_of_isIdentifier {s : Text} (h : isIdentifier s) : ∀ c ∈ s, isPlain c := by
  intro c hc
  cases s with
  | nil => cases hc
  | cons d s =>
    simp only [isIdentifier, Bool.and_eq_true, List.all_eq_true, Bool.or_eq_true, beq_iff_eq] at h
    rcases List.mem_cons.1 hc with rfl | hc
    · exact isPlain_of_isAlphanum (by simp [Char.isAlphanum, h.1])
    · rcases h.2 c hc with h | rfl
      · exact isPlain_of_isAlphanum h
      · decide

theorem Chunk.isWhole_ofText (s : Text) : IsWhole (Literal.ofText s) where
  toTight := Text.tight_quotes _
  split := fun rest _ => split_ofText s rest

theorem isWhole_of_isPlain {s : Text} (hne : s ≠ []) (hs : ∀ c ∈ s, isPlain c) :
    Chunk.IsWhole s := by
  obtain ⟨c, r, rfl⟩ := List.exists_cons_of_ne_nil hne
  exact Chunk.isWhole_word (ne_of_isPlain (hs c (by simp)) (by decide))
    fun d hd => isSpace_of_isPlain (hs d hd)

theorem inert_of_isPlain {s : Text} (hs : ∀ c ∈ s, isPlain c) : Inert s := by
  apply inert_of_not_mem
  intro h
  exact absurd (hs _ h) (by decide)

/-! ## Numbers -/

theorem integer?_intText (n : Int) : integer? (intText n) = some n := by
  have hdigits : Numeral.Digits (Nat.toDigits 10 n.natAbs) :=
    Numeral.digits_of_isDigit Nat.toDigits_ne_nil fun c hc => Double.isDigit_of_mem_toDigits hc
  have hspells := Numeral.SpellsInt.mk (Numeral.sign_signText (n < 0)) hdigits
  rw [Nat.ofDigitChars_ten_toDigits] at hspells
  have hvalue : (if decide (n < 0) then -(n.natAbs : Int) else n.natAbs) = n := by
    simp only [decide_eq_true_eq]
    split <;> omega
  rw [hvalue] at hspells
  exact Numeral.integer?_eq_some_iff.2 hspells

theorem int64?_intText (n : Int64) : int64? (intText n.toInt) = some n := by
  unfold int64?
  rw [integer?_intText, Option.bind_some, if_pos ⟨n.minValue_le_toInt, n.toInt_le⟩]
  simp

theorem intText_ne_nil (n : Int) : intText n ≠ [] := by
  simp [intText, Nat.toDigits_ne_nil]

theorem isPlain_of_mem_intText {n : Int} : ∀ c ∈ intText n, isPlain c := by
  intro c hc
  rcases List.mem_append.1 hc with hc | hc
  · exact isPlain_of_mem_signText hc
  · exact isPlain_of_isDigit (Double.isDigit_of_mem_toDigits hc)

theorem Double.text_ne_nil {x : Float} (h : x.isFinite) : Double.text x ≠ [] := by
  obtain ⟨negative, whole, part, hparts⟩ := Double.exists_parts h
  simp [hparts.text_eq, hparts.whole_ne_nil]

theorem isPlain_of_mem_text {x : Float} (h : x.isFinite) : ∀ c ∈ Double.text x, isPlain c := by
  obtain ⟨negative, whole, part, hparts⟩ := Double.exists_parts h
  intro c hc
  rw [hparts.text_eq] at hc
  simp only [List.mem_append, List.mem_cons] at hc
  rcases hc with hc | hc | rfl | hc
  · exact isPlain_of_mem_signText hc
  · exact isPlain_of_isDigit (hparts.whole_digits c hc)
  · decide
  · exact isPlain_of_isDigit (hparts.part_digits c hc)

/-! ## Elements -/

/-- A value that a chunk can say: no infinity and no NaN. -/
def Value.Legible : Value → Prop
  | .int _ => True
  | .double x => x.isFinite
  | .str _ => True

def Operand.Legible : Operand → Prop
  | .const v => v.Legible
  | .var name => isIdentifier name

def Element.Legible : Element → Prop
  | .operand o => o.Legible
  | .fn name => isIdentifier name
  | .op _ => True

/-- A value that can stand in a tag: no infinity, no NaN, and no text that closes the tag. -/
def Value.Writable : Value → Prop
  | .int _ => True
  | .double x => x.isFinite
  | .str s => ¬Closes s

def Operand.Writable : Operand → Prop
  | .const v => v.Writable
  | .var name => isIdentifier name

def Element.Writable : Element → Prop
  | .operand o => o.Writable
  | .fn name => isIdentifier name
  | .op _ => True

namespace Element

theorem Writable.legible {e : Element} (h : e.Writable) : e.Legible := by
  match e with
  | .operand (.const (.int n)) => trivial
  | .operand (.const (.double x)) => exact h
  | .operand (.const (.str s)) => trivial
  | .operand (.var name) => exact h
  | .fn name => exact h
  | .op o => trivial

/-- A chunk that does not begin like a number is none. -/
theorem ofChunk?_eq_ofWord? {c : Char} (s : Text) (hd : c.isDigit = false) (hp : c ≠ '+')
    (hm : c ≠ '-') (hdot : c ≠ '.') : ofChunk? (c :: s) = ofWord? (c :: s) := by
  have hnumeral : Numeral.parse? (c :: s) = none := by
    rw [Option.eq_none_iff_forall_ne_some]
    intro m hparse
    rcases (Numeral.parse?_eq_some_iff.1 hparse).head c rfl with (h | h | h) | h
    · exact hp h
    · exact hm h
    · exact hdot h
    · exact Numeral.ne_of_isDigit h hd rfl
  have hint : int64? (c :: s) = none := by
    rw [Option.eq_none_iff_forall_ne_some]
    intro n hn
    obtain ⟨m, hspells⟩ := (Numeral.int64?_eq_some_iff.1 hn).spells
    rw [Numeral.parse?_eq_some_iff.2 hspells] at hnumeral
    cases hnumeral
  unfold ofChunk?
  rw [hint, hnumeral]

theorem ofChunk?_identifier {s : Text} (h : isIdentifier s) :
    ofChunk? s = some (.operand (.var s)) := by
  cases s with
  | nil => cases h
  | cons c s =>
    have hc : c.isAlpha := by
      simp only [isIdentifier, Bool.and_eq_true] at h
      exact h.1
    have hd : c.isDigit = false := by
      simp only [Char.isAlpha, Char.isUpper, Char.isLower, Char.isDigit, Bool.or_eq_true,
        Bool.and_eq_true, decide_eq_true_eq, Bool.and_eq_false_iff, decide_eq_false_iff_not,
        UInt32.le_iff_toNat_le, ge_iff_le] at hc ⊢
      change (65 ≤ c.toNat ∧ c.toNat ≤ 90) ∨ (97 ≤ c.toNat ∧ c.toNat ≤ 122) at hc
      change ¬48 ≤ c.toNat ∨ ¬c.toNat ≤ 57
      omega
    rw [ofChunk?_eq_ofWord? s hd (by rintro rfl; cases hc) (by rintro rfl; cases hc)
      (by rintro rfl; cases hc)]
    simp only [ofWord?, h, if_true]

theorem ofChunk?_fn {name : Text} (h : isIdentifier name) :
    ofChunk? ('@' :: name) = some (.fn name) := by
  have hword : isIdentifier ('@' :: name) = false := rfl
  rw [ofChunk?_eq_ofWord? name (by decide) (by decide) (by decide) (by decide)]
  simp [ofWord?, hword, h]

theorem ofChunk?_quote (s : Text) :
    ofChunk? ('"' :: s) =
      (Literal.toText? ('"' :: s)).map fun t => .operand (.const (.str t)) := by
  have hword : isIdentifier ('"' :: s) = false := rfl
  rw [ofChunk?_eq_ofWord? s (by decide) (by decide) (by decide) (by decide)]
  simp [ofWord?, hword]

theorem ofChunk?_double {x : Float} (h : x.isFinite) :
    ofChunk? (Double.text x) = some (.operand (.const (.double x))) := by
  obtain ⟨negative, whole, part, hparts⟩ := Double.exists_parts h
  have hne := hparts.whole_ne_nil
  have hwhole := hparts.whole_digits
  unfold ofChunk?
  rw [hparts.text_eq, int64?_eq_none_of_point (by simp),
    Numeral.parse?_point negative hne hwhole hparts.part_digits]
  simp only [hparts.reads, h, if_true]

/-- A written element is read as itself. -/
theorem ofChunk?_source {e : Element} (h : e.Legible) : ofChunk? e.source = some e := by
  match e with
  | .operand (.const (.int n)) => exact ofChunk?_of_int64? (int64?_intText n)
  | .operand (.const (.double x)) => exact ofChunk?_double h
  | .operand (.const (.str s)) =>
    have hq := ofChunk?_quote (Literal.escape s ++ ['"'])
    rw [← List.cons_append, ← Literal.ofText, Literal.toText?_ofText] at hq
    exact hq
  | .operand (.var name) => exact ofChunk?_identifier h
  | .fn name => exact ofChunk?_fn h
  | .op o => cases o <;> decide

/-- An element is written as a literal or as a plain word. -/
theorem source_cases {e : Element} (h : e.Legible) :
    (∃ s, e = .operand (.const (.str s))) ∨ (e.source ≠ [] ∧ ∀ c ∈ e.source, isPlain c) := by
  match e with
  | .operand (.const (.int n)) => exact .inr ⟨intText_ne_nil _, isPlain_of_mem_intText⟩
  | .operand (.const (.double x)) => exact .inr ⟨Double.text_ne_nil h, isPlain_of_mem_text h⟩
  | .operand (.const (.str s)) => exact .inl ⟨s, rfl⟩
  | .operand (.var name) =>
    refine .inr ⟨?_, isPlain_of_isIdentifier h⟩
    rintro rfl
    cases h
  | .fn name =>
    refine .inr ⟨List.cons_ne_nil _ _, ?_⟩
    intro c hc
    rcases List.mem_cons.1 hc with rfl | hc
    · decide
    · exact isPlain_of_isIdentifier h c hc
  | .op o => exact .inr ⟨by cases o <;> decide, List.all_eq_true.1 (by cases o <;> decide)⟩

theorem isWhole_source {e : Element} (h : e.Legible) : Chunk.IsWhole e.source := by
  rcases source_cases h with ⟨s, rfl⟩ | ⟨hne, hp⟩
  · exact Chunk.isWhole_ofText s
  · exact isWhole_of_isPlain hne hp

theorem inert_source {e : Element} (h : e.Writable) : Inert e.source := by
  rcases source_cases h.legible with ⟨s, rfl⟩ | ⟨-, hp⟩
  · exact Literal.inert_ofText h
  · exact inert_of_isPlain hp

theorem writable_of_ofWord? {s : Text} {e : Element} (h : ofWord? s = some e)
    (hs : ¬Closes s) : e.Writable := by
  unfold ofWord? at h
  split at h
  · rename_i hword
    cases h
    exact hword
  · split at h
    · split at h
      · rename_i hname
        cases h
        exact hname
      · cases h
    · obtain ⟨t, ht, rfl⟩ := Option.map_eq_some_iff.1 h
      exact Literal.not_closes_of_toText? ht hs
    · obtain ⟨o, -, rfl⟩ := Option.map_eq_some_iff.1 h
      trivial

/-- What a chunk that closes no tag is can be written. -/
theorem writable_of_ofChunk? {s : Text} {e : Element} (h : ofChunk? s = some e)
    (hs : ¬Closes s) : e.Writable := by
  unfold ofChunk? at h
  split at h
  · cases h
    trivial
  · split at h
    · split at h
      · rename_i hfinite
        cases h
        exact hfinite
      · cases h
    · exact writable_of_ofWord? h hs

/-- Elements written with a space between each two are split into what was written, and each is
read as it was. A text is written so that it is read back whatever it says. -/
theorem split_sources {es : List Element} (h : ∀ e ∈ es, e.Legible) :
    Chunk.split (Chunk.unsplit (es.map source)) = es.map source ∧
      (es.map source).map ofChunk? = es.map some ∧
      ∀ s, Literal.unescape (Literal.escape s) = s := by
  have hwhole : ∀ w ∈ es.map source, Chunk.IsWhole w := by
    intro w hw
    obtain ⟨e, he, rfl⟩ := List.mem_map.1 hw
    exact isWhole_source (h e he)
  have hread : (es.map source).map ofChunk? = es.map some := by
    rw [List.map_map]
    exact List.map_congr_left fun e he => ofChunk?_source (h e he)
  exact ⟨Chunk.split_unsplit hwhole, hread, Literal.unescape_escape⟩

/-- A text that closes a tag, with both kinds of line break and a backslash at its end. -/
theorem split_sources_breaks :
    let es : List Element := [.operand (.const (.int (-3))), .operand (.const (.double 0.25)),
      .operand (.const (.str "a\r\n\\r\n\r \"$\x7d\t\\".toList)), .fn ['f'], .op .pow]
    Chunk.split (Chunk.unsplit (es.map source)) = es.map source ∧
      (es.map source).map ofChunk? = es.map some := by
  intro es
  have hdouble : (0.25 : Float).isFinite := by decide +kernel
  have hname : isIdentifier ['f'] := by decide
  have h : ∀ e ∈ es, e.Legible := by
    simp only [es, List.forall_mem_cons]
    exact ⟨trivial, hdouble, trivial, hname, trivial, by simp⟩
  exact ⟨(split_sources h).1, (split_sources h).2.1⟩

end Element
end PageTemplate
