import PageTemplate.Document.Tag

/-! Documents out of tokens. The builder keeps the loops that are still open, each with the
nodes before it; an END closes the innermost. The first bad token ends the reading. -/
namespace PageTemplate

/-- How many loops may be open at once. -/
def depthLimit : Nat := 256

/-- An open loop and the nodes before it, in reverse. -/
structure OpenLoop where
  head : LoopHead
  before : Document
deriving DecidableEq

/-- The nodes of the innermost open loop so far, in reverse, and the open loops, the
innermost first. -/
structure Builder where
  current : Document
  loops : List OpenLoop
deriving DecidableEq

namespace Builder

def empty : Builder := ⟨.nil, []⟩

def openLoop (b : Builder) (head : LoopHead) : Builder := ⟨.nil, ⟨head, b.current⟩ :: b.loops⟩

def closeLoop (b : Builder) : Except ParseError Builder :=
  match b.loops with
  | [] => .error .strayEnd
  | l :: ls => .ok ⟨.loop l.head b.current.reverse l.before, ls⟩

def addTag (b : Builder) (body : Text) : Except ParseError Builder :=
  match TagForm.ofChunks (Chunk.split body) with
  | .echo chunks => do
    let es ← readElements chunks
    return { b with current := .echo es b.current }
  | .opening arguments =>
    if depthLimit ≤ b.loops.length then .error (.tooDeep depthLimit)
    else do
      let head ← LoopHead.ofArguments arguments
      return b.openLoop head
  | .closing => b.closeLoop
  | .unknown => .error (.unknownTag body)

def add (b : Builder) : Token → Except ParseError Builder
  | .text s => .ok { b with current := .text s b.current }
  | .tag body => b.addTag body

def addAll (b : Builder) : List Token → Except ParseError Builder
  | [] => .ok b
  | t :: ts => do (← b.add t).addAll ts

/-- The document, once every loop is closed. -/
def finish (b : Builder) : Except ParseError Document :=
  if b.loops = [] then .ok b.current.reverse else .error (.openLoops b.loops.length)

end Builder

/-- Reads a template. A bad escape counts after the tokens before it. -/
def parse (source : Text) : Except ParseError Document := do
  let s := scan source
  let b ← Builder.empty.addAll s.tokens
  match s.fault with
  | some e => .error (.scan e)
  | none => b.finish

theorem Builder.addAll_append (b : Builder) (ts us : List Token) :
    b.addAll (ts ++ us) = (b.addAll ts).bind (·.addAll us) := by
  induction ts generalizing b with
  | nil => rfl
  | cons t ts ih =>
    simp only [List.cons_append, addAll]
    cases h : b.add t with
    | error e => rfl
    | ok b' => exact ih b'

end PageTemplate
