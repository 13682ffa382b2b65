import PageTemplate.Text.Space
import PageTemplate.Text.Unprintable

/-! Quoted text, as error messages show the text they complain about. It stands between
double quotes; the quote, the backslash and the usual controls have a short escape, and
whatever would not be seen is written as its code point. -/
namespace PageTemplate.Text

/-- A code point in lower-case hexadecimal between braces. -/
def codePoint (c : Char) : Text :=
  ['\\', 'u', '{'] ++ Nat.toDigits 16 c.toNat ++ ['}']

def quotedChar (c : Char) : Text :=
  if c = '\x00' then ['\\', '0']
  else if c = '\t' then ['\\', 't']
  else if c = '\n' then ['\\', 'n']
  else if c = '\r' then ['\\', 'r']
  else if c = '"' then ['\\', '"']
  else if c = '\\' then ['\\', '\\']
  else if isUnprintable c then codePoint c
  else [c]

def quoted (s : Text) : String :=
  String.ofList ('"' :: s.flatMap quotedChar ++ ['"'])

theorem quotedChar_ne_nil (c : Char) : quotedChar c ≠ [] := by
  unfold quotedChar codePoint
  repeat' split
  all_goals simp

end PageTemplate.Text
