import PageTemplate.Document.Basic

/-! Documents as source text, in one fixed spelling. An empty tag keeps two texts that follow
each other apart. -/
namespace PageTemplate

/-- A character of a text; a backslash goes before a backslash and an opening brace. -/
def escapeTextChar (c : Char) : Text := if c = '\\' ∨ c = '{' then ['\\', c] else [c]

def escapeText (s : Text) : Text := s.flatMap escapeTextChar

def echoSource (es : List Element) : Text :=
  ['{', '$', '='] ++ es.flatMap (fun e => ' ' :: e.source) ++ [' ', '$', '}']

def LoopHead.source (h : LoopHead) : Text :=
  ['{', '$', ' ', 'F', 'O', 'R', ' '] ++ h.name ++ ' ' :: h.start.source ++
    ' ' :: h.stop.source ++
    (match h.step with
      | none => []
      | some o => ' ' :: o.source) ++ [' ', '$', '}']

/-- The tag that closes a loop. -/
def endSource : Text := ['{', '$', 'E', 'N', 'D', '$', '}']

/-- A tag that says nothing. -/
def emptyTagSource : Text := ['{', '$', '$', '}']

/-- The source of nodes that stand directly after a text, or not. -/
def Document.sourceAfter (afterText : Bool) : Document → Text
  | .nil => []
  | .text s rest =>
    (if afterText then emptyTagSource else []) ++ escapeText s ++ rest.sourceAfter true
  | .echo es rest => echoSource es ++ rest.sourceAfter false
  | .loop h inner rest =>
    h.source ++ inner.sourceAfter false ++ endSource ++ rest.sourceAfter false

def Document.source (d : Document) : Text := d.sourceAfter false

end PageTemplate
