import PageTemplate.Proofs.Element.Source
import PageTemplate.Proofs.Number.Grammar

/-! How each kind of element is written. No text is written as two kinds, except that an integer
is a numeral as well, so a chunk may be tried as one kind after the other in any order that has
the integers before the doubles. -/
namespace PageTemplate

/-! ## What is written -/

def IsLetter (c : Char) : Prop := ('A' ≤ c ∧ c ≤ 'Z') ∨ ('a' ≤ c ∧ c ≤ 'z')

/-- A letter, then letters, digits and underscores. -/
inductive Identifier : Text → Prop
  | mk {c : Char} {s : Text} (hc : IsLetter c)
    (hs : ∀ d ∈ s, (IsLetter d ∨ Numeral.IsDigit d) ∨ d = '_') : Identifier (c :: s)

inductive Operator.Spells : Text → Operator → Prop
  | add : Spells ['+'] .add
  | sub : Spells ['-'] .sub
  | mul : Spells ['*'] .mul
  | div : Spells ['/'] .div
  | pow : Spells ['^'] .pow

/-- A text and the element that it is. An integer that fits 64 bits is no double. -/
inductive Element.Reads : Text → Element → Prop
  | int {s : Text} {n : Int64} (h : Numeral.SpellsInt s n.toInt) :
    Reads s (.operand (.const (.int n)))
  | double {s : Text} {m : Numeral} (h : Numeral.Spells s m) (hfinite : m.toFloat.isFinite)
    (hint : ∀ n : Int64, ¬Numeral.SpellsInt s n.toInt) :
    Reads s (.operand (.const (.double m.toFloat)))
  | str (inner : Text) :
    Reads ('"' :: inner ++ ['"']) (.operand (.const (.str (Literal.unescape inner))))
  | var {name : Text} (h : Identifier name) : Reads name (.operand (.var name))
  | fn {name : Text} (h : Identifier name) : Reads ('@' :: name) (.fn name)
  | op {s : Text} {o : Operator} (h : o.Spells s) : Reads s (.op o)

/-- The kinds of element, and of the constants each kind of value. -/
inductive Kind
  | int
  | double
  | str
  | var
  | fn
  | op
deriving DecidableEq

namespace Kind

/-- The grammar of a kind. Whether a number fits is not part of it. -/
def Spells (s : Text) : Kind → Prop
  | .int => ∃ n, Numeral.SpellsInt s n
  | .double => ∃ m, Numeral.Spells s m
  | .str => ∃ inner, s = '"' :: inner ++ ['"']
  | .var => Identifier s
  | .fn => ∃ name, s = '@' :: name ∧ Identifier name
  | .op => ∃ o : Operator, o.Spells s

/-- The name of a function, behind its mark. -/
def fnName? : Text → Option Text
  | '@' :: name => if isIdentifier name then some name else none
  | _ => none

/-- Tries a chunk as one kind only. -/
def read? (s : Text) : Kind → Option Element
  | .int => (int64? s).map fun n => .operand (.const (.int n))
  | .double => ((Numeral.parse? s).filter (·.toFloat.isFinite)).map
      fun m => .operand (.const (.double m.toFloat))
  | .str => (Literal.toText? s).map fun t => .operand (.const (.str t))
  | .var => if isIdentifier s then some (.operand (.var s)) else none
  | .fn => (fnName? s).map .fn
  | .op => (Operator.ofSymbol? s).map .op

end Kind

/-! ## Reading is finding what is written -/

theorem isAlpha_iff {c : Char} : c.isAlpha ↔ IsLetter c := by
  simp only [Char.isAlpha, Char.isUpper, Char.isLower, Bool.or_eq_true, Bool.and_eq_true,
    decide_eq_true_eq, ge_iff_le]
  rfl

theorem isIdentifier_iff {s : Text} : isIdentifier s ↔ Identifier s := by
  cases s with
  | nil => exact iff_of_false (by simp [isIdentifier]) nofun
  | cons c s =>
    simp only [isIdentifier, Char.isAlphanum, Bool.and_eq_true, List.all_eq_true,
      Bool.or_eq_true, beq_iff_eq, isAlpha_iff, Numeral.isDigit_iff]
    constructor
    · exact fun h => .mk h.1 h.2
    · rintro ⟨hc, hs⟩
      exact ⟨hc, hs⟩

theorem Operator.ofSymbol?_eq_some_iff {s : Text} {o : Operator} :
    Operator.ofSymbol? s = some o ↔ o.Spells s := by
  constructor
  · intro h
    rw [← Operator.symbol_of_ofSymbol? h]
    cases o <;> constructor
  · rintro ⟨⟩ <;> decide

theorem Literal.toText?_eq_some_iff {s t : Text} :
    toText? s = some t ↔ ∃ inner, s = '"' :: inner ++ ['"'] ∧ unescape inner = t := by
  constructor
  · fun_cases toText? s with
    | case1 s hlast =>
      rintro ⟨⟩
      exact ⟨s.dropLast, by rw [List.cons_append, List.dropLast_append_getLast? _ hlast], rfl⟩
    | case2 => rintro ⟨⟩
    | case3 => rintro ⟨⟩
  · rintro ⟨inner, rfl, rfl⟩
    exact toText?_quoted inner

namespace Kind

theorem fnName?_eq_some_iff {s name : Text} :
    fnName? s = some name ↔ s = '@' :: name ∧ Identifier name := by
  constructor
  · fun_cases fnName? s with
    | case1 name hname =>
      rintro ⟨⟩
      exact ⟨rfl, isIdentifier_iff.1 hname⟩
    | case2 => rintro ⟨⟩
    | case3 => rintro ⟨⟩
  · rintro ⟨rfl, hname⟩
    rw [fnName?, if_pos (isIdentifier_iff.2 hname)]

/-- A chunk tried as one kind is read as what it says, unless it is an integer tried as a double. -/
theorem reads_of_read? {s : Text} {k : Kind} {e : Element} (h : k.read? s = some e)
    (hint : k = .double → ∀ n : Int64, ¬Numeral.SpellsInt s n.toInt) : Element.Reads s e := by
  cases k with
  | int =>
    obtain ⟨n, hn, rfl⟩ := Option.map_eq_some_iff.1 h
    exact .int (Numeral.int64?_eq_some_iff.1 hn)
  | double =>
    obtain ⟨m, hm, rfl⟩ := Option.map_eq_some_iff.1 h
    obtain ⟨hm, hfinite⟩ := Option.filter_eq_some_iff.1 hm
    exact .double (Numeral.parse?_eq_some_iff.1 hm) hfinite (hint rfl)
  | str =>
    obtain ⟨t, ht, rfl⟩ := Option.map_eq_some_iff.1 h
    obtain ⟨inner, rfl, rfl⟩ := Literal.toText?_eq_some_iff.1 ht
    exact .str inner
  | var =>
    rw [read?] at h
    split at h
    · rename_i hname
      cases h
      exact .var (isIdentifier_iff.1 hname)
    · cases h
  | fn =>
    obtain ⟨name, hname, rfl⟩ := Option.map_eq_some_iff.1 h
    obtain ⟨rfl, hid⟩ := fnName?_eq_some_iff.1 hname
    exact .fn hid
  | op =>
    obtain ⟨o, ho, rfl⟩ := Option.map_eq_some_iff.1 h
    exact .op (Operator.ofSymbol?_eq_some_iff.1 ho)

/-- What a chunk says it is found to be when it is tried as that kind. -/
theorem exists_read? {s : Text} {e : Element} (h : Element.Reads s e) :
    ∃ k : Kind, k.read? s = some e := by
  cases h with
  | int h => exact ⟨.int, by rw [read?, Numeral.int64?_eq_some_iff.2 h, Option.map_some]⟩
  | double h hfinite hint =>
    refine ⟨.double, Option.map_eq_some_iff.2 ⟨_, ?_, rfl⟩⟩
    exact Option.filter_eq_some_iff.2 ⟨Numeral.parse?_eq_some_iff.2 h, hfinite⟩
  | str inner => exact ⟨.str, by rw [read?, Literal.toText?_quoted, Option.map_some]⟩
  | var h => exact ⟨.var, by rw [read?, if_pos (isIdentifier_iff.2 h)]⟩
  | fn h => exact ⟨.fn, by rw [read?, fnName?_eq_some_iff.2 ⟨rfl, h⟩, Option.map_some]⟩
  | op h => exact ⟨.op, by rw [read?, Operator.ofSymbol?_eq_some_iff.2 h, Option.map_some]⟩

end Kind

namespace Element

theorem reads_of_ofWord? {s : Text} {e : Element} (h : ofWord? s = some e) : Reads s e := by
  unfold ofWord? at h
  split at h
  · rename_i hname
    cases h
    exact .var (isIdentifier_iff.1 hname)
  · split at h
    · split at h
      · rename_i hname
        cases h
        exact .fn (isIdentifier_iff.1 hname)
      · cases h
    · exact Kind.reads_of_read? (k := .str) h nofun
    · exact Kind.reads_of_read? (k := .op) h nofun

theorem ofChunk?_eq_some_iff {s : Text} {e : Element} : ofChunk? s = some e ↔ Reads s e := by
  constructor
  · intro h
    unfold ofChunk? at h
    split at h
    · rename_i n hn
      cases h
      exact .int (Numeral.int64?_eq_some_iff.1 hn)
    · rename_i hint
      split at h
      · rename_i m hm
        split at h
        · rename_i hfinite
          cases h
          refine .double (Numeral.parse?_eq_some_iff.1 hm) hfinite fun n hn => ?_
          rw [Numeral.int64?_eq_some_iff.2 hn] at hint
          cases hint
        · cases h
      · exact reads_of_ofWord? h
  · intro h
    cases h with
    | int h => exact ofChunk?_of_int64? (Numeral.int64?_eq_some_iff.2 h)
    | double h hfinite hint =>
      have hnone : int64? s = none :=
        Option.eq_none_iff_forall_ne_some.2 fun n hn => hint n (Numeral.int64?_eq_some_iff.1 hn)
      simp only [ofChunk?, hnone, Numeral.parse?_eq_some_iff.2 h, hfinite, if_true]
    | str inner =>
      rw [List.cons_append, ofChunk?_quote, ← List.cons_append, Literal.toText?_quoted]
      rfl
    | var h => exact ofChunk?_identifier (isIdentifier_iff.2 h)
    | fn h => exact ofChunk?_fn (isIdentifier_iff.2 h)
    | op h => cases h <;> decide

end Element

/-! ## The kinds apart -/

namespace Kind

/-- An integer is a numeral. -/
def grammar : Kind → Kind
  | .int => .double
  | k => k

/-- The kind that the first character tells, or whether there is a digit. -/
def shape : Text → Kind
  | [] => .op
  | c :: s =>
    if c.isAlpha then .var
    else if c = '@' then .fn
    else if c = '"' then .str
    else if (c :: s).any Char.isDigit then .double
    else .op

end Kind

theorem Numeral.IsDigit.isAlpha {c : Char} (h : IsDigit c) : c.isAlpha = false := by
  rw [← Bool.not_eq_true, isAlpha_iff]
  simp only [IsDigit, IsLetter, Char.le_def, UInt32.le_iff_toNat_le] at h ⊢
  have h9 : '9'.val.toNat = 57 := rfl
  have hA : 'A'.val.toNat = 65 := rfl
  have ha : 'a'.val.toNat = 97 := rfl
  omega

namespace Kind

/-- A text that is written as a kind tells it, but for an integer, which tells a numeral. -/
theorem Spells.shape_eq {s : Text} {k : Kind} (h : k.Spells s) : shape s = k.grammar := by
  have hnumeral {m : Numeral} (h : Numeral.Spells s m) : shape s = .double := by
    obtain ⟨d, hd, hdigit⟩ := h.exists_isDigit
    obtain ⟨c, r, rfl⟩ := List.exists_cons_of_ne_nil (List.ne_nil_of_mem hd)
    have hany : (c :: r).any Char.isDigit := List.any_eq_true.2 ⟨d, hd, hdigit⟩
    have hfirst : c.isAlpha = false ∧ c ≠ '@' ∧ c ≠ '"' := by
      rcases h.head c rfl with (rfl | rfl | rfl) | hc
      · decide
      · decide
      · decide
      · exact ⟨hc.isAlpha, Numeral.ne_of_isDigit hc (by decide),
          Numeral.ne_of_isDigit hc (by decide)⟩
    simp [shape, hfirst, hany]
  cases k with
  | int =>
    obtain ⟨n, hn⟩ := h
    obtain ⟨m, hm⟩ := hn.spells
    exact hnumeral hm
  | double =>
    obtain ⟨m, hm⟩ := h
    exact hnumeral hm
  | str =>
    obtain ⟨inner, rfl⟩ := h
    rfl
  | var =>
    obtain ⟨hc, hs⟩ := h
    simp [shape, isAlpha_iff.2 hc, grammar]
  | fn =>
    obtain ⟨name, rfl, hname⟩ := h
    rfl
  | op =>
    obtain ⟨o, ho⟩ := h
    cases ho <;> rfl

/-- Two kinds of one text are the integers and the doubles. -/
theorem Spells.unique {s : Text} {k l : Kind} (hk : k.Spells s) (hl : l.Spells s) (hne : k ≠ l) :
    (k = .int ∧ l = .double) ∨ (k = .double ∧ l = .int) := by
  have hgrammar : k.grammar = l.grammar := hk.shape_eq.symm.trans hl.shape_eq
  revert hne hgrammar
  cases k <;> cases l <;> decide

end Kind

/-! ## Trying one kind after the other -/

section

variable {α β : Type} {f : α → Option β} {r : Option β} {l : List α}

/-- The first success is the one that there is. -/
theorem findSome?_eq_of_forall (hall : ∀ a ∈ l, f a = none ∨ f a = r)
    (hex : r = none ∨ ∃ a ∈ l, f a = r) : l.findSome? f = r := by
  induction l with
  | nil => simpa [eq_comm] using hex
  | cons a l ih =>
    rw [List.forall_mem_cons] at hall
    rw [List.findSome?_cons]
    cases hfa : f a with
    | some b =>
      rw [hfa] at hall
      exact hall.1.resolve_left nofun
    | none =>
      refine ih hall.2 ?_
      rcases hex with hr | ⟨x, hx, hr⟩
      · exact .inl hr
      · rcases List.mem_cons.1 hx with rfl | hx
        · exact .inl (hr.symm.trans hfa)
        · exact .inr ⟨x, hx, hr⟩

end

namespace Kind

variable {s : Text}

/-- A chunk tried as a kind is nothing, or what it is, unless it is an integer tried as a double. -/
theorem read?_eq_or {k : Kind}
    (hint : k = .double → ∀ n : Int64, ¬Numeral.SpellsInt s n.toInt) :
    k.read? s = none ∨ k.read? s = Element.ofChunk? s := by
  cases h : k.read? s with
  | none => exact .inl rfl
  | some e => exact .inr (Element.ofChunk?_eq_some_iff.2 (reads_of_read? h hint)).symm

/-- Where the integers stand before the doubles, the first kind that a chunk can be read as tells
what it is. -/
theorem findSome?_read? {before after : List Kind} (hdouble : .double ∉ before)
    (hall : ∀ k : Kind, k ∈ before ++ .int :: after) :
    (before ++ .int :: after).findSome? (read? s) = Element.ofChunk? s := by
  by_cases hint : ∃ n : Int64, Numeral.SpellsInt s n.toInt
  · obtain ⟨n, hn⟩ := hint
    have hread : Element.ofChunk? s = some (.operand (.const (.int n))) :=
      Element.ofChunk?_eq_some_iff.2 (.int hn)
    have hfound : (before ++ [Kind.int]).findSome? (read? s) = Element.ofChunk? s := by
      refine findSome?_eq_of_forall (fun k hk => read?_eq_or ?_) (.inr ⟨.int, by simp, ?_⟩)
      · rintro rfl
        simp [hdouble] at hk
      · rw [hread, read?, Numeral.int64?_eq_some_iff.2 hn, Option.map_some]
    rw [← List.singleton_append, ← List.append_assoc, List.findSome?_append, hfound, hread]
    rfl
  · have hint : ∀ n : Int64, ¬Numeral.SpellsInt s n.toInt := fun n hn => hint ⟨n, hn⟩
    refine findSome?_eq_of_forall (fun k _ => read?_eq_or fun _ => hint) ?_
    cases h : Element.ofChunk? s with
    | none => exact .inl rfl
    | some e =>
      obtain ⟨k, hk⟩ := exists_read? (Element.ofChunk?_eq_some_iff.1 h)
      exact .inr ⟨k, hall k, hk⟩

end Kind

namespace Element

theorem Reads.exists_spells {s : Text} {e : Element} (h : Reads s e) : ∃ k : Kind, k.Spells s := by
  cases h with
  | int h => exact ⟨.int, _, h⟩
  | double h => exact ⟨.double, _, h⟩
  | str inner => exact ⟨.str, inner, rfl⟩
  | var h => exact ⟨.var, h⟩
  | fn h => exact ⟨.fn, _, rfl, h⟩
  | op h => exact ⟨.op, _, h⟩

theorem ofChunk?_eq_none_of_large {s : Text} {m : Numeral} (hm : Numeral.Spells s m)
    (hint : ∀ n : Int64, ¬Numeral.SpellsInt s n.toInt) (hlarge : m.toFloat.isFinite = false) :
    ofChunk? s = none := by
  have hnone : int64? s = none :=
    Option.eq_none_iff_forall_ne_some.2 fun n hn => hint n (Numeral.int64?_eq_some_iff.1 hn)
  simp [ofChunk?, hnone, Numeral.parse?_eq_some_iff.2 hm, hlarge]

/-- A chunk is no element if it is written as none, or as a number that fits neither an integer
nor a double. -/
theorem ofChunk?_eq_none_iff {s : Text} :
    ofChunk? s = none ↔
      (∀ k : Kind, ¬k.Spells s) ∨
        (∀ n : Int64, ¬Numeral.SpellsInt s n.toInt) ∧
          ∃ m, Numeral.Spells s m ∧ m.toFloat.isFinite = false := by
  constructor
  · intro h
    have hreads : ∀ e, ¬Reads s e := by
      intro e he
      rw [ofChunk?_eq_some_iff.2 he] at h
      cases h
    have hint : ∀ n : Int64, ¬Numeral.SpellsInt s n.toInt := fun n hn => hreads _ (.int hn)
    by_cases hnumeral : ∃ m, Numeral.Spells s m
    · obtain ⟨m, hm⟩ := hnumeral
      exact .inr ⟨hint, m, hm, Bool.eq_false_iff.2 fun hf => hreads _ (.double hm hf hint)⟩
    · refine .inl fun k hk => ?_
      cases k with
      | int =>
        obtain ⟨n, hn⟩ := hk
        exact hnumeral hn.spells
      | double => exact hnumeral hk
      | str =>
        obtain ⟨inner, rfl⟩ := hk
        exact hreads _ (.str inner)
      | var => exact hreads _ (.var hk)
      | fn =>
        obtain ⟨name, rfl, hname⟩ := hk
        exact hreads _ (.fn hname)
      | op =>
        obtain ⟨o, ho⟩ := hk
        exact hreads _ (.op ho)
  · rintro (hkind | ⟨hint, m, hm, hlarge⟩)
    · rw [Option.eq_none_iff_forall_ne_some]
      intro e he
      obtain ⟨k, hk⟩ := (ofChunk?_eq_some_iff.1 he).exists_spells
      exact hkind k hk
    · exact ofChunk?_eq_none_of_large hm hint hlarge

/-- A chunk is the element that it is written as, and none if it is written as none or as a number
that does not fit. The kinds share no text but the integers, each of which is a numeral, and in
which order they are tried does not matter if the integers come before the doubles. -/
theorem ofChunk?_grammar (s : Text) :
    (∀ e, ofChunk? s = some e ↔ Reads s e) ∧
      (ofChunk? s = none ↔
        (∀ k : Kind, ¬k.Spells s) ∨
          (∀ n : Int64, ¬Numeral.SpellsInt s n.toInt) ∧
            ∃ m, Numeral.Spells s m ∧ m.toFloat.isFinite = false) ∧
      (Kind.int.Spells s → Kind.double.Spells s) ∧
      (∀ k l : Kind, k.Spells s → l.Spells s → k ≠ l →
        (k = .int ∧ l = .double) ∨ (k = .double ∧ l = .int)) ∧
      ∀ before after : List Kind, .double ∉ before → (∀ k : Kind, k ∈ before ++ .int :: after) →
        (before ++ .int :: after).findSome? (Kind.read? s) = ofChunk? s := by
  refine ⟨fun e => ofChunk?_eq_some_iff, ofChunk?_eq_none_iff, ?_, fun k l => Kind.Spells.unique,
    fun before after => Kind.findSome?_read?⟩
  rintro ⟨n, hn⟩
  exact hn.spells

end Element
end PageTemplate
