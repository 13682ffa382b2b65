import PageTemplate.Text.Space

/-! The chunks of a tag body. White space separates them. A quote at the start of a chunk
opens a string that goes on to the next unescaped quote, white space included, and that
quote ends the chunk. -/
namespace PageTemplate.Chunk

/-- The chunk being read, in reverse. -/
inductive Pending
  | nothing
  | word (said : Text)
  | string (said : Text)
deriving DecidableEq

/-- Splits the rest of a body. -/
def splitFrom : Pending → Text → List Text
  | .nothing, [] => []
  | .word said, [] => [said.reverse]
  | .string said, [] => [said.reverse]
  | .nothing, c :: s =>
    if Text.isSpace c then splitFrom .nothing s
    else if c = '"' then splitFrom (.string [c]) s
    else splitFrom (.word [c]) s
  | .word said, c :: s =>
    if Text.isSpace c then said.reverse :: splitFrom .nothing s
    else splitFrom (.word (c :: said)) s
  | .string said, '\\' :: d :: s => splitFrom (.string (d :: '\\' :: said)) s
  | .string said, c :: s =>
    if c = '"' then (c :: said).reverse :: splitFrom .nothing s
    else splitFrom (.string (c :: said)) s

/-- The chunks of a tag body in order. -/
def split (body : Text) : List Text := splitFrom .nothing body

theorem splitFrom_space {c : Char} (h : Text.isSpace c) (s : Text) :
    splitFrom .nothing (c :: s) = splitFrom .nothing s := by
  simp [splitFrom, h]

theorem splitFrom_word_space (said : Text) {c : Char} (h : Text.isSpace c) (s : Text) :
    splitFrom (.word said) (c :: s) = said.reverse :: splitFrom .nothing s := by
  simp [splitFrom, h]

theorem splitFrom_string_escaped (said : Text) (d : Char) (s : Text) :
    splitFrom (.string said) ('\\' :: d :: s) = splitFrom (.string (d :: '\\' :: said)) s := by
  simp [splitFrom]

theorem splitFrom_string_quote (said s : Text) :
    splitFrom (.string said) ('"' :: s) = ('"' :: said).reverse :: splitFrom .nothing s := by
  simp [splitFrom]

/-- Leading white space makes no difference. -/
theorem split_trimStart (s : Text) : split (Text.trimStart s) = split s := by
  induction s with
  | nil => rfl
  | cons c s ih =>
    by_cases h : Text.isSpace c
    · simpa [split, Text.trimStart, h, splitFrom_space h] using ih
    · simp [Text.trimStart, h]

end PageTemplate.Chunk
