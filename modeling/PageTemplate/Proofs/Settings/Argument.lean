import PageTemplate.Proofs.Element.Source
import PageTemplate.Settings.Directive

/-! Arguments of a settings line as they are written. Between double quotes any text can stand,
with a backslash before every quote and every backslash in it. A plain word may go without the
quotes. -/
namespace PageTemplate.Settings

/-- A character between quotes. -/
def argumentChar (c : Char) : Text := if c = '"' ∨ c = '\\' then ['\\', c] else [c]

/-- An argument between quotes. -/
def quoteArgument (s : Text) : Text := '"' :: s.flatMap argumentChar ++ ['"']

/-- A blank or the end of the line. -/
def EndsArgument (s : Text) : Prop := ∀ c ∈ s.head?, Text.isAsciiSpace c

/-- A spelling of an argument, which is split off whole. -/
structure IsArgument (w s : Text) : Prop extends Text.Tight w where
  split : ∀ rest, EndsArgument rest → splitArguments (w ++ rest) = s :: splitArguments rest

/-! ## One argument -/

theorem argumentsFrom_quote (inside : Bool) (said s : Text) :
    argumentsFrom inside said ('"' :: s) = argumentsFrom (!inside) said s := by
  rw [argumentsFrom.eq_def]
  rfl

theorem argumentsFrom_backslash (said : Text) (c : Char) (s : Text) :
    argumentsFrom true said ('\\' :: c :: s) = argumentsFrom true (c :: said) s := by
  rw [argumentsFrom.eq_def]
  rfl

theorem argumentsFrom_inside (said : Text) {c : Char} (hquote : c ≠ '"') (hslash : c ≠ '\\')
    (s : Text) : argumentsFrom true said (c :: s) = argumentsFrom true (c :: said) s := by
  rw [argumentsFrom.eq_def]
  simp [hquote, hslash]

theorem argumentsFrom_outside (said : Text) {c : Char} (hquote : c ≠ '"')
    (hblank : Text.isAsciiSpace c = false) (s : Text) :
    argumentsFrom false said (c :: s) = argumentsFrom false (c :: said) s := by
  rw [argumentsFrom.eq_def]
  simp [hquote, hblank]

theorem argumentsFrom_blank (said : Text) {c : Char} (hblank : Text.isAsciiSpace c) (s : Text) :
    argumentsFrom false said (c :: s) = flushArgument said (splitArguments s) := by
  have hquote : c ≠ '"' := by
    rintro rfl
    exact absurd hblank (by decide)
  rw [argumentsFrom.eq_def]
  simp [hquote, hblank, splitArguments]

theorem splitArguments_blank {c : Char} (hblank : Text.isAsciiSpace c) (s : Text) :
    splitArguments (c :: s) = splitArguments s :=
  argumentsFrom_blank [] hblank s

theorem argumentsFrom_argumentChar (said : Text) (c : Char) (s : Text) :
    argumentsFrom true said (argumentChar c ++ s) = argumentsFrom true (c :: said) s := by
  unfold argumentChar
  split
  · exact argumentsFrom_backslash said c s
  · rename_i h
    rw [not_or] at h
    exact argumentsFrom_inside said h.1 h.2 s

/-- What stands between quotes is read up to the closing one. -/
theorem argumentsFrom_quoted (said s rest : Text) :
    argumentsFrom true said (s.flatMap argumentChar ++ '"' :: rest) =
      argumentsFrom false (s.reverse ++ said) rest := by
  induction s generalizing said with
  | nil => exact argumentsFrom_quote true said rest
  | cons c s ih =>
    rw [List.flatMap_cons, List.append_assoc, argumentsFrom_argumentChar, ih]
    simp

theorem isAsciiSpace_of_isPlain {c : Char} (h : isPlain c) : Text.isAsciiSpace c = false := by
  rw [Bool.eq_false_iff]
  intro hblank
  exact Bool.eq_false_iff.1 (isSpace_of_isPlain h) (Text.isSpace_of_isAsciiSpace hblank)

theorem argumentsFrom_plain (said : Text) {w : Text} (h : ∀ c ∈ w, isPlain c) (rest : Text) :
    argumentsFrom false said (w ++ rest) = argumentsFrom false (w.reverse ++ said) rest := by
  induction w generalizing said with
  | nil => rfl
  | cons c w ih =>
    have hc := h c List.mem_cons_self
    have hquote : c ≠ '"' := ne_of_isPlain hc (by decide)
    rw [List.cons_append, argumentsFrom_outside said hquote (isAsciiSpace_of_isPlain hc),
      ih _ fun d hd => h d (List.mem_cons_of_mem c hd)]
    simp

/-- An argument that has begun ends with a blank or with the line. -/
theorem argumentsFrom_of_ends {said rest : Text} (hne : said ≠ []) (h : EndsArgument rest) :
    argumentsFrom false said rest = said.reverse :: splitArguments rest := by
  cases rest with
  | nil => simp [splitArguments, argumentsFrom, flushArgument, hne]
  | cons c rest =>
    have hc := h c rfl
    rw [argumentsFrom_blank said hc, splitArguments_blank hc, flushArgument, if_neg hne]

theorem isArgument_quoteArgument {s : Text} (hne : s ≠ []) : IsArgument (quoteArgument s) s where
  toTight := Text.tight_quotes _
  split := by
    intro rest h
    have hinside : splitArguments (quoteArgument s ++ rest) =
        argumentsFrom true [] (s.flatMap argumentChar ++ '"' :: rest) := by
      simp [splitArguments, quoteArgument, argumentsFrom_quote]
    have hreverse : s.reverse ≠ [] := List.reverse_ne_nil_iff.2 hne
    rw [hinside, argumentsFrom_quoted, List.append_nil, argumentsFrom_of_ends hreverse h,
      List.reverse_reverse]

theorem isArgument_of_isPlain {w : Text} (hne : w ≠ []) (h : ∀ c ∈ w, isPlain c) :
    IsArgument w w where
  toTight := Text.tight_of_forall hne fun c hc => isSpace_of_isPlain (h c hc)
  split := by
    intro rest hrest
    have hreverse : w.reverse ≠ [] := List.reverse_ne_nil_iff.2 hne
    rw [splitArguments, argumentsFrom_plain [] h, List.append_nil,
      argumentsFrom_of_ends hreverse hrest, List.reverse_reverse]

/-! ## Lines -/

theorem joinWords_cons_cons (v w : Text) (ws : List Text) :
    joinWords (v :: w :: ws) = v ++ ' ' :: joinWords (w :: ws) := rfl

theorem joinWords_eq_unsplit (ws : List Text) : joinWords ws = Chunk.unsplit ws := by
  induction ws with
  | nil => rfl
  | cons v ws ih =>
    cases ws with
    | nil => simp [joinWords, Chunk.unsplit]
    | cons w ws => rw [joinWords_cons_cons, ih, Chunk.unsplit_cons_cons]

theorem splitArguments_joinWords {ws arguments : List Text}
    (h : List.Forall₂ IsArgument ws arguments) : splitArguments (joinWords ws) = arguments := by
  induction h with
  | nil => rfl
  | @cons w s ws arguments hw hws ih =>
    cases ws with
    | nil =>
      cases hws
      have hend : EndsArgument [] := fun c hc => by cases hc
      simpa [joinWords, splitArguments, argumentsFrom, flushArgument] using hw.split [] hend
    | cons v ws =>
      have hblank : EndsArgument (' ' :: joinWords (v :: ws)) := by
        intro c hc
        cases hc
        decide
      rw [joinWords_cons_cons, hw.split _ hblank, splitArguments_blank (by decide), ih]

end PageTemplate.Settings
