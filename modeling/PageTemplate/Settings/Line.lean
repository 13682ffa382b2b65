import PageTemplate.Text.Space

/-! Lines of a settings text. A line is a directive and its arguments, separated by ASCII
blanks. Between double quotes, which may stand anywhere in an argument, blanks count as
text and a backslash takes the next character as it is. An empty argument is none. -/
namespace PageTemplate

/-- Cuts a text at its line feeds, given the line so far in reverse. -/
def linesFrom (said : Text) : Text → List Text
  | [] => [said.reverse]
  | c :: s => if c = '\n' then said.reverse :: linesFrom [] s else linesFrom (c :: said) s

def splitLines (s : Text) : List Text := linesFrom [] s

/-- An argument read so far in reverse, before the arguments after it. -/
def flushArgument (said : Text) (rest : List Text) : List Text :=
  if said = [] then rest else said.reverse :: rest

/-- Splits the rest of a text; `inside` tells whether it starts between quotes. -/
def argumentsFrom (inside : Bool) (said : Text) : Text → List Text
  | [] => flushArgument said []
  | c :: s =>
    if c = '"' then argumentsFrom (!inside) said s
    else if c = '\\' ∧ inside then
      match s with
      | [] => flushArgument said []
      | d :: s => argumentsFrom inside (d :: said) s
    else if Text.isAsciiSpace c ∧ !inside then flushArgument said (argumentsFrom inside [] s)
    else argumentsFrom inside (c :: said) s

def splitArguments (s : Text) : List Text := argumentsFrom false [] s

/-- Splits at the first equals sign; the name before it must not be empty. -/
def splitPair? (s : Text) : Option (Text × Text) :=
  match s.takeWhile (· ≠ '='), s.dropWhile (· ≠ '=') with
  | [], _ => none
  | _, [] => none
  | name, _ :: value => some (name, value)

/-- The directive of a trimmed line and its arguments. -/
def splitDirective (line : Text) : Text × List Text :=
  let rest := line.dropWhile (!Text.isAsciiSpace ·)
  (line.takeWhile (!Text.isAsciiSpace ·), splitArguments (Text.trim (rest.drop 1)))

theorem splitPair?_append {name : Text} (value : Text) (hne : name ≠ []) (h : '=' ∉ name) :
    splitPair? (name ++ '=' :: value) = some (name, value) := by
  have hp : ∀ c ∈ name, decide (c ≠ '=') = true := fun c hc =>
    decide_eq_true fun he => h (he ▸ hc)
  have h1 : (name ++ '=' :: value).takeWhile (· ≠ '=') = name := by
    rw [List.takeWhile_append_of_pos hp]
    simp
  have h2 : (name ++ '=' :: value).dropWhile (· ≠ '=') = '=' :: value := by
    rw [List.dropWhile_append_of_pos hp]
    simp
  unfold splitPair?
  rw [h1, h2]
  cases name with
  | nil => exact absurd rfl hne
  | cons => rfl

end PageTemplate
