import PageTemplate.Text.Space

/-! The inside of a string literal. A backslash stands before a quote, a backslash, and the
letters for tab, line feed and carriage return; any other backslash stands for itself. The
pair of escapes for carriage return and line feed is one line break, so a carriage return
before a line feed is written with the line feed as it is. -/
namespace PageTemplate.Literal

def unescape : Text → Text
  | '\\' :: 'r' :: '\\' :: 'n' :: s => '\n' :: unescape s
  | '\\' :: 'r' :: s => '\r' :: unescape s
  | '\\' :: 'n' :: s => '\n' :: unescape s
  | '\\' :: 't' :: s => '\t' :: unescape s
  | '\\' :: '"' :: s => '"' :: unescape s
  | '\\' :: '\\' :: s => '\\' :: unescape s
  | '\\' :: c :: s => '\\' :: c :: unescape s
  | c :: s => c :: unescape s
  | [] => []

def escapeChar (c : Char) : Text :=
  if c = '\\' then ['\\', '\\']
  else if c = '"' then ['\\', '"']
  else if c = '\n' then ['\\', 'n']
  else if c = '\r' then ['\\', 'r']
  else if c = '\t' then ['\\', 't']
  else [c]

def escape : Text → Text
  | [] => []
  | '\r' :: '\n' :: s => '\\' :: 'r' :: '\n' :: escape s
  | c :: s => escapeChar c ++ escape s

/-- A string literal that says `s`. -/
def ofText (s : Text) : Text := '"' :: escape s ++ ['"']

/-- What a string literal says; its quotes are the first and the last character. -/
def toText? : Text → Option Text
  | '"' :: s => if s.getLast? = some '"' then some (unescape s.dropLast) else none
  | _ => none

theorem toText?_quoted (s : Text) : toText? ('"' :: s ++ ['"']) = some (unescape s) := by
  simp [toText?]

end PageTemplate.Literal
