/-! Runs of characters and their white space. Chunks, trimmed tag bodies and numbers
written as text use the full `White_Space` property; arguments of a settings line are
cut at the five ASCII blanks only. -/
namespace PageTemplate

/-- A run of characters. -/
abbrev Text := List Char

namespace Text

/-- The characters with the `White_Space` property. -/
def isSpace (c : Char) : Bool :=
  let n := c.toNat
  (9 ≤ n && n ≤ 13) || n == 0x20 || n == 0x85 || n == 0xA0 || n == 0x1680 ||
    (0x2000 ≤ n && n ≤ 0x200A) || n == 0x2028 || n == 0x2029 || n == 0x202F ||
    n == 0x205F || n == 0x3000

/-- Space, tab, line feed, form feed and carriage return; the vertical tab is not one. -/
def isAsciiSpace (c : Char) : Bool :=
  c == ' ' || c == '\t' || c == '\n' || c == '\x0c' || c == '\r'

def trimStart (s : Text) : Text := s.dropWhile isSpace

def trimEnd (s : Text) : Text := (s.reverse.dropWhile isSpace).reverse

def trim (s : Text) : Text := trimEnd (trimStart s)

theorem isSpace_of_isAsciiSpace {c : Char} (h : isAsciiSpace c) : isSpace c := by
  simp only [isAsciiSpace, Bool.or_eq_true, beq_iff_eq] at h
  rcases h with (((rfl | rfl) | rfl) | rfl) | rfl <;> decide

theorem trimEnd_append_space (s : Text) {c : Char} (h : isSpace c) :
    trimEnd (s ++ [c]) = trimEnd s := by
  simp [trimEnd, h]

end Text
end PageTemplate
