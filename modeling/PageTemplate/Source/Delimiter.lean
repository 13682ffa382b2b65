import PageTemplate.Text.Space

/-! Tag delimiters. A tag opens with `{$` and closes with `$}`; the two characters may stand
apart if a line break is among the blanks between them. -/
namespace PageTemplate.Delimiter

/-- Blanks that may stand inside a delimiter. -/
def isBlank (c : Char) : Bool := c == ' ' || c == '\t' || c == '\n' || c == '\r'

def isBreak (c : Char) : Bool := c == '\n' || c == '\r'

/-- A gap inside a delimiter: nothing, or blanks with a line break among them. -/
def isGap (s : Text) : Bool := s.all isBlank && (s.isEmpty || s.any isBreak)

/-- What follows the delimiter `first`, gap, `last` at the start of a text. -/
def after? (first last : Char) : Text → Option Text
  | [] => none
  | c :: s =>
    if c = first then
      match s.dropWhile isBlank with
      | [] => none
      | d :: rest => if d = last ∧ isGap (s.takeWhile isBlank) then some rest else none
    else none

def afterOpening? : Text → Option Text := after? '{' '$'

def afterClosing? : Text → Option Text := after? '$' '}'

theorem after?_length {first last : Char} {s rest : Text} (h : after? first last s = some rest) :
    rest.length + 2 ≤ s.length := by
  cases s with
  | nil => simp [after?] at h
  | cons c s =>
    have hlen := congrArg List.length (List.takeWhile_append_dropWhile (p := isBlank) (l := s))
    simp only [after?] at h
    split at h
    · split at h
      · simp at h
      · rename_i d r hd
        split at h
        · cases h
          simp only [hd, List.length_append, List.length_cons] at hlen ⊢
          omega
        · simp at h
    · simp at h

theorem after?_eq_none_of_ne {first last c : Char} (s : Text) (h : c ≠ first) :
    after? first last (c :: s) = none := by
  simp [after?, h]

end PageTemplate.Delimiter
