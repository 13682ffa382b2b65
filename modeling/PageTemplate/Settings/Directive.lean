import PageTemplate.Number.Numeral
import PageTemplate.Settings.Basic
import PageTemplate.Settings.Line
import PageTemplate.Text.Quoted

/-! Settings texts. Each line holds one directive; blank lines and lines that start with a
semicolon say nothing. A bad line is reported with its number, and loading goes on. -/
namespace PageTemplate

inductive DirectiveError
  | notOneArgument (directive : Text)
  | notPair (directive token : Text)
  | unknownEncoding (name : Text)
  | missingStatus
  | badStatus (code : Text)
  | badHeaderWord (word : Text)
  | missingCookie
  | badCookie (token : Text)
  | badAttribute (token : Text)
  | badMaxAge (value : Text)
  | unknownAttribute (key : Text)
  | unknownDirective (directive : Text)
deriving DecidableEq

def DirectiveError.message : DirectiveError → String
  | .notOneArgument d => String.ofList d ++ " takes exactly one argument"
  | .notPair d token => String.ofList d ++ " expects name=value, got " ++ Text.quoted token
  | .unknownEncoding name => "unsupported encoding: " ++ String.ofList name
  | .missingStatus => "status requires a code"
  | .badStatus code => "invalid status code: " ++ String.ofList code
  | .badHeaderWord word => "header must be on or off, not " ++ Text.quoted word
  | .missingCookie => "cookie requires name=value"
  | .badCookie token => "cookie expects name=value, got " ++ Text.quoted token
  | .badAttribute token => "bad cookie attribute: " ++ String.ofList token
  | .badMaxAge value => "invalid max-age: " ++ String.ofList value
  | .unknownAttribute key => "unknown cookie attribute: " ++ String.ofList key
  | .unknownDirective d => "unknown directive: " ++ String.ofList d

/-- A bad line, counted from one. -/
structure LineError where
  line : Nat
  cause : DirectiveError
deriving DecidableEq

def LineError.message (e : LineError) : String :=
  "line " ++ toString e.line ++ ": " ++ e.cause.message

namespace Settings

def single (directive : Text) : List Text → Except DirectiveError Text
  | [a] => .ok a
  | _ => .error (.notOneArgument directive)

def singlePair (directive : Text) (arguments : List Text) :
    Except DirectiveError (Text × Text) := do
  let token ← single directive arguments
  match splitPair? token with
  | some p => .ok p
  | none => .error (.notPair directive token)

/-- Words joined by single spaces. -/
def joinWords : List Text → Text
  | [] => []
  | [w] => w
  | w :: ws => w ++ ' ' :: joinWords ws

def statusCode? (s : Text) : Option UInt16 := (natBelow? UInt16.size s).map UInt16.ofNat

def maxAge? (s : Text) : Option UInt32 := (natBelow? UInt32.size s).map UInt32.ofNat

/-- Adds one attribute to a cookie; its key may be in any ASCII case. -/
def addAttribute (c : Cookie) (token : Text) : Except DirectiveError Cookie :=
  match splitPair? token with
  | none => .error (.badAttribute token)
  | some (key, value) =>
    let word := key.map Char.toLower
    if word = "domain".toList then .ok { c with domain := some value }
    else if word = "path".toList then .ok { c with path := some value }
    else if word = "max-age".toList then
      match maxAge? value with
      | some n => .ok { c with maxAge := some n }
      | none => .error (.badMaxAge value)
    else .error (.unknownAttribute key)

def addAttributes (c : Cookie) : List Text → Except DirectiveError Cookie
  | [] => .ok c
  | t :: ts => do (addAttributes (← addAttribute c t) ts)

def readCookie : List Text → Except DirectiveError Cookie
  | [] => .error .missingCookie
  | token :: attributes =>
    match splitPair? token with
    | none => .error (.badCookie token)
    | some (name, value) => addAttributes ⟨name, value, none, none, none⟩ attributes

def readHeaderWord (word : Text) : Except DirectiveError Bool :=
  if word = "on".toList then .ok true
  else if word = "off".toList then .ok false
  else .error (.badHeaderWord word)

/-- A change to settings. One that fails leaves what it has changed so far. -/
abbrev Change := EStateM DirectiveError Settings Unit

/-- Sets the status code, and the text if there is one. -/
def setStatus : List Text → Change
  | [] => throw .missingStatus
  | code :: words =>
    match statusCode? code with
    | none => throw (.badStatus code)
    | some n => do
      modify fun s => { s with statusCode := some n }
      if words = [] then pure ()
      else modify fun s => { s with statusText := some (joinWords words) }

/-- Changes settings as a directive says. -/
def apply (directive : Text) (arguments : List Text) : Change :=
  if directive = "param".toList then do
    let (name, value) ← MonadExcept.ofExcept (singlePair directive arguments)
    modify fun s => { s with request := s.request.insert name value }
  else if directive = "pparam".toList then do
    let (name, value) ← MonadExcept.ofExcept (singlePair directive arguments)
    modify fun s => { s with persistent := s.persistent.insert name value }
  else if directive = "mime".toList then do
    let mime ← MonadExcept.ofExcept (single directive arguments)
    modify fun s => { s with mimeType := some mime }
  else if directive = "encoding".toList then do
    let name ← MonadExcept.ofExcept (single directive arguments)
    if (Encoding.ofName? name).isSome then modify fun s => { s with encoding := some name }
    else throw (.unknownEncoding name)
  else if directive = "status".toList then setStatus arguments
  else if directive = "header".toList then do
    let word ← MonadExcept.ofExcept (single directive arguments)
    let on ← MonadExcept.ofExcept (readHeaderWord word)
    modify fun s => { s with wantsHeader := on }
  else if directive = "cookie".toList then do
    let c ← MonadExcept.ofExcept (readCookie arguments)
    modify fun s => { s with cookies := s.cookies ++ [c] }
  else throw (.unknownDirective directive)

/-- Whether a trimmed line says nothing. -/
def isIdle (line : Text) : Bool := line.isEmpty || line.head? == some ';'

/-- Changes settings as a line says; it may be idle. -/
def applyLine (raw : Text) : Change :=
  let line := Text.trim raw
  if isIdle line then pure ()
  else
    let (directive, arguments) := splitDirective line
    apply directive arguments

/-- Loads the lines from number `n` on. After a bad line it goes on with what that line left. -/
def loadFrom (s : Settings) (n : Nat) : List Text → Settings × List LineError
  | [] => (s, [])
  | raw :: lines =>
    match applyLine raw s with
    | .ok _ s => loadFrom s (n + 1) lines
    | .error cause s =>
      let (t, errors) := loadFrom s (n + 1) lines
      (t, ⟨n, cause⟩ :: errors)

/-- The settings of a text, and its bad lines in order. -/
def load (text : Text) : Settings × List LineError := loadFrom empty 1 (splitLines text)

end Settings
end PageTemplate
