import PageTemplate.Document.Builder

/-! Documents in an arena. All nodes stand in one list, the root first, and a container refers to
its children by their places in it. The builder keeps the places of the open containers and adds
each node to the innermost of them. -/
namespace PageTemplate

inductive ArenaNode
  | document (children : List Nat)
  | text (content : Text)
  | echo (elements : List Element)
  | loop (head : LoopHead) (children : List Nat)
deriving DecidableEq

namespace ArenaNode

/-- The places of the children; a leaf has none. -/
def children : ArenaNode → List Nat
  | .document is => is
  | .text _ => []
  | .echo _ => []
  | .loop _ is => is

/-- The node with one more child, if it is a container. -/
def addChild? (i : Nat) : ArenaNode → Option ArenaNode
  | .document is => some (.document (is ++ [i]))
  | .text _ => none
  | .echo _ => none
  | .loop head is => some (.loop head (is ++ [i]))

end ArenaNode

abbrev Arena := List ArenaNode

/-- Adds a node at the end, as the last child of a container. -/
def Arena.append? (a : Arena) (parent : Nat) (n : ArenaNode) : Option Arena := do
  let p ← a[parent]?
  let q ← p.addChild? a.length
  return a.set parent q ++ [n]

/-- What ends the reading: a template that cannot be read, or a child for a leaf. -/
inductive ArenaError
  | parse (e : ParseError)
  | leaf
deriving DecidableEq

/-- The nodes so far, and the places of the open containers, the innermost first. -/
structure ArenaBuilder where
  nodes : Arena
  opened : List Nat
deriving DecidableEq

namespace ArenaBuilder

def empty : ArenaBuilder := ⟨[.document []], [0]⟩

/-- Adds a node to the innermost open container. -/
def append (b : ArenaBuilder) (n : ArenaNode) : Except ArenaError ArenaBuilder :=
  match b.nodes.append? (b.opened.headD 0) n with
  | some nodes => .ok { b with nodes := nodes }
  | none => .error .leaf

def openLoop (b : ArenaBuilder) (head : LoopHead) : Except ArenaError ArenaBuilder := do
  let c ← b.append (.loop head [])
  return { c with opened := b.nodes.length :: c.opened }

def closeLoop (b : ArenaBuilder) : Except ArenaError ArenaBuilder :=
  if b.opened.tail = [] then .error (.parse .strayEnd)
  else .ok { b with opened := b.opened.tail }

def addTag (b : ArenaBuilder) (body : Text) : Except ArenaError ArenaBuilder :=
  match TagForm.ofChunks (Chunk.split body) with
  | .echo chunks => do
    let es ← (readElements chunks).mapError .parse
    b.append (.echo es)
  | .opening arguments =>
    if depthLimit < b.opened.length then .error (.parse (.tooDeep depthLimit))
    else do
      let head ← (LoopHead.ofArguments arguments).mapError .parse
      b.openLoop head
  | .closing => b.closeLoop
  | .unknown => .error (.parse (.unknownTag body))

def add (b : ArenaBuilder) : Token → Except ArenaError ArenaBuilder
  | .text s => b.append (.text s)
  | .tag body => b.addTag body

def addAll (b : ArenaBuilder) : List Token → Except ArenaError ArenaBuilder
  | [] => .ok b
  | t :: ts => do (← b.add t).addAll ts

/-- The arena, once only the root is open. -/
def finish (b : ArenaBuilder) : Except ArenaError Arena :=
  if b.opened.length = 1 then .ok b.nodes
  else .error (.parse (.openLoops (b.opened.length - 1)))

end ArenaBuilder

/-- Reads a template into an arena. -/
def parseArena (source : Text) : Except ArenaError Arena := do
  let s := scan source
  let b ← ArenaBuilder.empty.addAll s.tokens
  match s.fault with
  | some e => .error (.parse (.scan e))
  | none => b.finish

namespace Document

/-- The places of the nodes on the top level, if the nodes stand in an arena depth first and the
first of them at `k`. -/
def places (k : Nat) : Document → List Nat
  | .nil => []
  | .text _ rest => k :: rest.places (k + 1)
  | .echo _ rest => k :: rest.places (k + 1)
  | .loop _ inner rest => k :: rest.places (k + 1 + inner.size)

/-- The nodes depth first, as they stand in an arena with the first of them at `k`. -/
def nodesFrom (k : Nat) : Document → Arena
  | .nil => []
  | .text s rest => .text s :: rest.nodesFrom (k + 1)
  | .echo es rest => .echo es :: rest.nodesFrom (k + 1)
  | .loop h inner rest =>
    .loop h (inner.places (k + 1)) ::
      (inner.nodesFrom (k + 1) ++ rest.nodesFrom (k + 1 + inner.size))

/-- A document as an arena. -/
def arena (d : Document) : Arena := .document (d.places 1) :: d.nodesFrom 1

@[simp] theorem length_nodesFrom (d : Document) (k : Nat) : (d.nodesFrom k).length = d.size := by
  induction d generalizing k with
  | nil => rfl
  | text s rest ih => simp [nodesFrom, size, ih]
  | echo es rest ih => simp [nodesFrom, size, ih]
  | loop h inner rest ihi ihr => simp [nodesFrom, size, ihi, ihr]

@[simp] theorem size_append (d e : Document) : (d ++ e).size = d.size + e.size := by
  induction d with
  | nil => simp [size]
  | text s rest ih => simp [size, ih, Nat.add_right_comm]
  | echo es rest ih => simp [size, ih, Nat.add_right_comm]
  | loop h inner rest _ ih =>
    simp only [loop_append, size, ih]
    omega

@[simp] theorem size_reverse (d : Document) : d.reverse.size = d.size := by
  induction d with
  | nil => rfl
  | text s rest ih => simp [size, ih]
  | echo es rest ih => simp [size, ih]
  | loop h inner rest _ ih =>
    simp only [reverse_loop, size_append, size, ih]
    omega

theorem places_append (d e : Document) (k : Nat) :
    (d ++ e).places k = d.places k ++ e.places (k + d.size) := by
  induction d generalizing k with
  | nil => rfl
  | text s rest ih => simp [places, size, ih, Nat.add_assoc, Nat.add_comm 1]
  | echo es rest ih => simp [places, size, ih, Nat.add_assoc, Nat.add_comm 1]
  | loop h inner rest _ ih =>
    have hk : k + 1 + inner.size + rest.size = k + (inner.size + rest.size + 1) := by omega
    simp [places, size, ih, hk]

theorem nodesFrom_append (d e : Document) (k : Nat) :
    (d ++ e).nodesFrom k = d.nodesFrom k ++ e.nodesFrom (k + d.size) := by
  induction d generalizing k with
  | nil => rfl
  | text s rest ih => simp [nodesFrom, size, ih, Nat.add_assoc, Nat.add_comm 1]
  | echo es rest ih => simp [nodesFrom, size, ih, Nat.add_assoc, Nat.add_comm 1]
  | loop h inner rest _ ih =>
    have hk : k + 1 + inner.size + rest.size = k + (inner.size + rest.size + 1) := by omega
    simp [nodesFrom, size, ih, hk]

end Document
end PageTemplate
