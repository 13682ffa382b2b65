import PageTemplate.Document.Basic
import PageTemplate.Element.Chunk
import PageTemplate.Element.OfChunk
import PageTemplate.Source.Scan

/-! What a tag says. An equals sign begins an echo, the words FOR and END, in any case, open
and close a loop, and nothing else is a tag. -/
namespace PageTemplate

inductive ParseError
  | scan (e : ScanError)
  | unknownTag (body : Text)
  | loopArity (count : Nat)
  | loopVariable (chunk : Text)
  | loopArgument (chunk : Text)
  | noElement (chunk : Text)
  | strayEnd
  | openLoops (loops : Nat)
  | tooDeep (limit : Nat)
deriving DecidableEq

namespace ParseError

def message : ParseError → String
  | .scan e => e.message
  | .unknownTag body => "unknown tag name " ++ Text.quoted body
  | .loopArity n => "FOR tag takes 3 or 4 arguments, found " ++ toString n
  | .loopVariable c => "first FOR argument must be a variable, found " ++ Text.quoted c
  | .loopArgument c =>
    "FOR argument " ++ Text.quoted c ++ " must be a number, string or variable"
  | .noElement c => "invalid element " ++ Text.quoted c
  | .strayEnd => "more closing tags than opening loop tags"
  | .openLoops n => "unbalanced loop/end tags: " ++ toString n ++ " loop(s) left open"
  | .tooDeep n => "loops nested deeper than " ++ toString n ++ " levels"

end ParseError

/-- A tag by its first chunk; the chunks of an echo and of a loop are yet to be read. -/
inductive TagForm
  | echo (chunks : List Text)
  | opening (arguments : List Text)
  | closing
  | unknown
deriving DecidableEq

def TagForm.ofChunks : List Text → TagForm
  | [] => .unknown
  | name :: arguments =>
    if name = ['='] then .echo arguments
    else match name, arguments with
    | '=' :: element, [] => .echo [element]
    | _, _ =>
      let word := name.map Char.toLower
      if word = ['f', 'o', 'r'] then .opening arguments
      else if word = ['e', 'n', 'd'] ∧ arguments = [] then .closing
      else .unknown

def readElement (chunk : Text) : Except ParseError Element :=
  match Element.ofChunk? chunk with
  | some e => .ok e
  | none => .error (.noElement chunk)

/-- Reads the chunks of an echo, up to the first that is no element. -/
def readElements : List Text → Except ParseError (List Element)
  | [] => .ok []
  | c :: cs => do
    let e ← readElement c
    let es ← readElements cs
    return e :: es

namespace LoopHead

def readName (chunk : Text) : Except ParseError Text :=
  match Element.ofChunk? chunk with
  | some (.operand (.var name)) => .ok name
  | _ => .error (.loopVariable chunk)

def readArgument (chunk : Text) : Except ParseError Operand :=
  match Element.ofChunk? chunk with
  | some (.operand o) => .ok o
  | _ => .error (.loopArgument chunk)

def ofArguments : List Text → Except ParseError LoopHead
  | [name, start, stop] => do
    let name ← readName name
    let start ← readArgument start
    let stop ← readArgument stop
    return ⟨name, start, stop, none⟩
  | [name, start, stop, step] => do
    let name ← readName name
    let start ← readArgument start
    let stop ← readArgument stop
    let step ← readArgument step
    return ⟨name, start, stop, some step⟩
  | arguments => .error (.loopArity arguments.length)

end LoopHead
end PageTemplate
