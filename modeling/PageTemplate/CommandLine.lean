import PageTemplate.Settings.Line
import PageTemplate.Text.Quoted

/-! Command lines. Flags and options are single letters and may stand in one cluster; an
option takes the rest of its cluster as its value, or else the next argument whole. A dash
alone is a template, and after two dashes everything is. -/
namespace PageTemplate

/-- Where the settings come from. -/
inductive SettingsChoice
  | search
  | skip
  | file (path : Text)
deriving DecidableEq

structure Arguments where
  settings : SettingsChoice
  request : List (Text × Text)
  persistent : List (Text × Text)
  header : Bool
  printTree : Bool
  help : Bool
  templates : List Text
deriving DecidableEq

/-- The letters that take a value. -/
inductive ValueOption
  | settings
  | request
  | persistent
deriving DecidableEq

def ValueOption.letter : ValueOption → Char
  | .settings => 'c'
  | .request => 'p'
  | .persistent => 'P'

inductive UsageError
  | missingValue (o : ValueOption)
  | unknownLetter (letter : Char)
  | badPair (o : ValueOption) (value : Text)
  | noTemplates
deriving DecidableEq

def UsageError.message : UsageError → String
  | .missingValue o => "-" ++ String.singleton o.letter ++ " requires an argument"
  | .unknownLetter c => "unknown option: -" ++ String.singleton c
  | .badPair o value =>
    "-" ++ String.singleton o.letter ++ " expects name=value, got " ++ Text.quoted value
  | .noTemplates => "no template given"

namespace Arguments

def empty : Arguments := ⟨.search, [], [], false, false, false, []⟩

def addTemplates (a : Arguments) (paths : List Text) : Arguments :=
  { a with templates := a.templates ++ paths }

def setOption (a : Arguments) (o : ValueOption) (value : Text) : Except UsageError Arguments :=
  match o with
  | .settings => .ok { a with settings := .file value }
  | .request =>
    match splitPair? value with
    | some p => .ok { a with request := a.request ++ [p] }
    | none => .error (.badPair o value)
  | .persistent =>
    match splitPair? value with
    | some p => .ok { a with persistent := a.persistent ++ [p] }
    | none => .error (.badPair o value)

/-- What the letter of a flag changes. -/
def setFlag? (a : Arguments) (letter : Char) : Option Arguments :=
  if letter = 'n' then some { a with settings := .skip }
  else if letter = 'H' then some { a with header := true }
  else if letter = 't' then some { a with printTree := true }
  else if letter = 'h' then some { a with help := true }
  else none

def option? (letter : Char) : Option ValueOption :=
  [ValueOption.settings, .request, .persistent].find? fun o => o.letter = letter

/-- Reads a cluster of letters, and gives the option at its end that still wants a value. -/
def addCluster (a : Arguments) : Text → Except UsageError (Arguments × Option ValueOption)
  | [] => .ok (a, none)
  | c :: s =>
    match a.setFlag? c with
    | some b => b.addCluster s
    | none =>
      match option? c with
      | none => .error (.unknownLetter c)
      | some o => if s = [] then .ok (a, some o) else (a.setOption o s).map fun b => (b, none)

def isTemplate (argument : Text) : Bool := argument == ['-'] || argument.head? != some '-'

/-- Reads the arguments that are left. -/
def addAll (a : Arguments) : List Text → Except UsageError Arguments
  | [] => .ok a
  | argument :: more =>
    if argument = ['-', '-'] then .ok (a.addTemplates more)
    else if isTemplate argument then (a.addTemplates [argument]).addAll more
    else
      match a.addCluster (argument.drop 1) with
      | .error e => .error e
      | .ok (b, none) => b.addAll more
      | .ok (b, some o) =>
        match more with
        | [] => .error (.missingValue o)
        | value :: more =>
          match b.setOption o value with
          | .error e => .error e
          | .ok b => b.addAll more

/-- Reads a command line; only a call for help does without a template. -/
def parse (argv : List Text) : Except UsageError Arguments :=
  match empty.addAll argv with
  | .error e => .error e
  | .ok a => if a.templates = [] ∧ !a.help then .error .noTemplates else .ok a

end Arguments
end PageTemplate
