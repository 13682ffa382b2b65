import PageTemplate.Source.Token

/-! The reading of a whole template. Text and tags alternate at their delimiters; a run that
says nothing gives no token, and a tag body is trimmed. The first bad escape ends the
reading, and the text before it is dropped with it. -/
namespace PageTemplate

/-- The kinds of run a template alternates between. -/
inductive Mode
  | text
  | tag
deriving DecidableEq

def Mode.run : Mode → Text → TokenRun
  | .text => TokenRun.text
  | .tag => TokenRun.tag

def Mode.token : Mode → Text → Token
  | .text, s => .text s
  | .tag, s => .tag (Text.trim s)

def Mode.other : Mode → Mode
  | .text => .tag
  | .tag => .text

/-- The tokens before the first bad escape, and that escape if there is one. -/
structure Scan where
  tokens : List Token
  fault : Option ScanError
deriving DecidableEq

theorem Mode.length_lt_of_stop {mode : Mode} {s rest : Text}
    (h : (mode.run s).stop = .delimiter rest) : rest.length < s.length := by
  cases mode with
  | text => exact TokenRun.length_lt_of_text_stop h
  | tag => exact TokenRun.length_lt_of_tag_stop h

namespace Scan

/-- Puts a token in front, unless it would be empty before trimming. -/
def emit (mode : Mode) (content : Text) (after : Scan) : Scan :=
  if content = [] then after else { after with tokens := mode.token content :: after.tokens }

/-- Reads the rest of a template of `size` characters in all. -/
def ofRest (size : Nat) (mode : Mode) (s : Text) : Scan :=
  let r := mode.run s
  match _h : r.stop with
  | .finished => emit mode r.content ⟨[], none⟩
  | .badEscape c => ⟨[], some ⟨size - r.rest.length, c⟩⟩
  | .delimiter rest => emit mode r.content (ofRest size mode.other rest)
termination_by s.length
decreasing_by exact Mode.length_lt_of_stop ‹_›

end Scan

/-- Reads a template. -/
def scan (source : Text) : Scan := Scan.ofRest source.length .text source

end PageTemplate
