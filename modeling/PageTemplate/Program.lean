import PageTemplate.CommandLine
import PageTemplate.Document.Builder
import PageTemplate.Document.Source
import PageTemplate.Render.Document
import PageTemplate.Settings.Directive
import PageTemplate.Text.Path

/-! The program. It reads all templates before it renders any, and then renders them in
order, each with a response of its own; the persistent parameters pass from one to the
next. What a template wrote before it failed is still put out, and nothing after it. -/
namespace PageTemplate

inductive ReadError
  | notFound
  | notDirectory
  | isDirectory
  | nameTooLong
  | notText
  | other (message : String)
deriving DecidableEq

def ReadError.message : ReadError → String
  | .notFound => "No such file or directory (os error 2)"
  | .notDirectory => "Not a directory (os error 20)"
  | .isDirectory => "Is a directory (os error 21)"
  | .nameTooLong => "File name too long (os error 36)"
  | .notText => "stream did not contain valid UTF-8"
  | .other m => m

/-- What stands at a path: no file, a file that cannot be read, a file, or a device that can
be read like one. -/
inductive File
  | absent (e : ReadError)
  | unreadable (e : ReadError)
  | bytes (content : ByteArray)
  | device (content : ByteArray)

/-- Bytes as text, which they must spell in UTF-8. -/
def decodeText (content : ByteArray) : Except ReadError Text :=
  match String.fromUTF8? content with
  | some s => .ok s.toList
  | none => .error .notText

def File.text : File → Except ReadError Text
  | .absent e => .error e
  | .unreadable e => .error e
  | .bytes content => decodeText content
  | .device content => decodeText content

/-- Whether a file proper stands there; only such a path is found in a search. -/
def File.isRegular : File → Bool
  | .absent _ => false
  | .unreadable _ => true
  | .bytes _ => true
  | .device _ => false

/-- Why a template gives no page. -/
inductive TemplateError
  | read (e : ReadError)
  | parse (e : ParseError)
  | render (e : RenderError)
  | context (e : ContextError)
deriving DecidableEq

def TemplateError.message : TemplateError → String
  | .read e => e.message
  | .parse e => "parse error: " ++ e.message
  | .render e => "runtime error: " ++ e.message
  | .context e => e.message

/-- Why a template is left before its page is whole. -/
inductive TemplateHalt
  | failed (e : TemplateError)
  | outOfTurns
deriving DecidableEq

def TemplateHalt.ofHalt : Halt → TemplateHalt
  | .failed e => .failed (.render e)
  | .outOfTurns => .outOfTurns

inductive ProgramError
  | settings (path : Text) (e : ReadError)
  | template (path : Text) (e : TemplateError)
deriving DecidableEq

def ProgramError.message : ProgramError → String
  | .settings path e => String.ofList path ++ ": " ++ e.message
  | .template path e => String.ofList path ++ ": " ++ e.message

/-- Renders a document as a template. -/
def renderTemplate {ω : Type} [Page ω] (turns : Nat) (d : Document) :
    EStateM TemplateHalt (Context ω) Unit := fun c =>
  match d.render turns c with
  | .ok _ c => .ok () c
  | .error h c => .error (.ofHalt h) c

/-- Parses a template and renders it. -/
def renderSource {ω : Type} [Page ω] (turns : Nat) (source : Text) :
    EStateM TemplateHalt (Context ω) Unit :=
  match parse source with
  | .error e => throw (.failed (.parse e))
  | .ok d => renderTemplate turns d

/-- Ends a page with an empty write, so that one without a body still gets its header. -/
def finish : EStateM TemplateHalt (Context Response) Unit := fun c =>
  match Context.onPage (Response.writeBytes []) c with
  | .ok _ c => .ok () c
  | .error e c => .error (.failed (.context e)) c

/-- Renders a document to the end of its page. -/
def serve (turns : Nat) (d : Document) : EStateM TemplateHalt (Context Response) Unit := do
  renderTemplate turns d
  finish

/-- What the program finds around it. -/
structure World where
  files : Text → File
  input : ByteArray
  /-- A path to look for settings at before any other. -/
  settingsPath : Option Text
  /-- The directory of the user's settings. -/
  settingsHome : Option Text

/-- What the program leaves behind. -/
structure Outcome where
  output : Array UInt8
  /-- The bad lines of the settings. The log tells of each on the standard error, in a form and
  above a level of its own. -/
  warnings : List LineError
  /-- What the program itself says on the standard error after that. -/
  errors : String
  status : UInt32
deriving DecidableEq

namespace Program

def name : String := "smartscript"

def usage : String :=
  "Usage: smartscript [-nHt] [-c <config>] [-p name=value]... [-P name=value]... <template>..."

/-- Where settings are looked for, in order. -/
def settingsPaths (path home : Option Text) : List Text :=
  path.toList ++ (home.toList.map (· ++ "/smartscript/smartscriptrc".toList)) ++
    ["./.smartscriptrc".toList]

/-- The path of the settings, if any are used. -/
def settingsFile (w : World) : SettingsChoice → Option Text
  | .skip => none
  | .file path => some path
  | .search => (settingsPaths w.settingsPath w.settingsHome).find? fun p => (w.files p).isRegular

/-- Loads the settings; bad lines are passed over, and the log tells of them. -/
def loadSettings (w : World) (choice : SettingsChoice) :
    Except ProgramError (Settings × List LineError) :=
  match settingsFile w choice with
  | none => .ok (.empty, [])
  | some path =>
    match (w.files path).text with
    | .ok text => .ok (Settings.load text)
    | .error e => .error (.settings path e)

/-- The settings with what the command line adds to them. -/
def override (s : Settings) (a : Arguments) : Settings :=
  { s with
    request := s.request.insertAll a.request
    persistent := s.persistent.insertAll a.persistent
    wantsHeader := s.wantsHeader || a.header }

/-- Whether a path stands for the standard input. -/
def isInput (path : Text) : Bool := Path.spells ['-'] path

/-- Reads templates in order; the standard input has nothing more to give the second time. -/
def readTemplates (w : World) (input : ByteArray) :
    List Text → Except ProgramError (List (Text × Document))
  | [] => .ok []
  | path :: paths => do
    let file := if isInput path then .bytes input else w.files path
    let source ← file.text.mapError fun e => .template path (.read e)
    let d ← (parse source).mapError fun e => .template path (.parse e)
    let rest ← readTemplates w (if isInput path then .empty else input) paths
    return (path, d) :: rest

/-- The sources of documents, one after the other. -/
def printTemplates (templates : List (Text × Document)) : Array UInt8 :=
  (templates.flatMap fun t => Encoding.utf8.encode t.2.source).toArray

/-- Renders documents after `output`, up to the first that fails. There is nothing to tell if one
of them runs out of turns. -/
def renderTemplates (turns : Nat) (s : Settings) (output : Array UInt8) :
    List (Text × Document) → Option (Array UInt8 × Option ProgramError)
  | [] => some (output, none)
  | (path, d) :: rest =>
    match s.response .unlimited with
    | .error e => some (output, some (.template path (.context e)))
    | .ok c =>
      match serve turns d c with
      | .error .outOfTurns _ => none
      | .error (.failed e) c => some (output ++ c.page.sink.bytes, some (.template path e))
      | .ok _ c =>
        renderTemplates turns { s with persistent := c.parameters.persistent }
          (output ++ c.page.sink.bytes) rest

/-- What is left behind after an error, which the program tells of in its own name. -/
def complain (output : Array UInt8) (warnings : List LineError) (message : String) : Outcome :=
  ⟨output, warnings, name ++ ": " ++ message ++ "\n", 1⟩

/-- What is left behind after renders that put out `output`. -/
def report (warnings : List LineError) (output : Array UInt8) : Option ProgramError → Outcome
  | none => ⟨output, warnings, "", 0⟩
  | some e => complain output warnings e.message

/-- Runs with arguments that are in order and do not ask for help. -/
def runArguments (turns : Nat) (w : World) (a : Arguments) : Option Outcome :=
  match loadSettings w a.settings with
  | .error e => some (complain #[] [] e.message)
  | .ok (s, warnings) =>
    match readTemplates w w.input a.templates with
    | .error e => some (complain #[] warnings e.message)
    | .ok templates =>
      if a.printTree then some ⟨printTemplates templates, warnings, "", 0⟩
      else
        (renderTemplates turns (override s a) #[] templates).map fun r => report warnings r.1 r.2

/-- Runs with a command line. A run in which a loop does not end within `turns` leaves nothing to
tell behind, since the program does not come to its end there. -/
def run (turns : Nat) (w : World) (argv : List Text) : Option Outcome :=
  match Arguments.parse argv with
  | .error e =>
    let c := complain #[] [] e.message
    some { c with errors := c.errors ++ usage ++ "\n" }
  | .ok a =>
    if a.help then some ⟨(usage ++ "\n").toUTF8.data, [], "", 0⟩ else runArguments turns w a

end Program
end PageTemplate
