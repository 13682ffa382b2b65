import PageTemplate.Element.Basic

/-! Documents: text, echo tags and loops in source order. A loop holds the document that it
repeats. -/
namespace PageTemplate

/-- The head of a loop; without a step the variable goes up by one. -/
structure LoopHead where
  name : Text
  start : Operand
  stop : Operand
  step : Option Operand
deriving DecidableEq

/-- A sequence of nodes: the first one, and the nodes after it. -/
inductive Document
  | nil
  | text (content : Text) (rest : Document)
  | echo (elements : List Element) (rest : Document)
  | loop (head : LoopHead) (inner rest : Document)
deriving DecidableEq

namespace Document

def append : Document → Document → Document
  | .nil, e => e
  | .text s rest, e => .text s (rest.append e)
  | .echo es rest, e => .echo es (rest.append e)
  | .loop h inner rest, e => .loop h inner (rest.append e)

instance : Append Document := ⟨append⟩

/-- The nodes of the first document in reverse, before the second. Loops keep what is in
them as it is. -/
def reverseOnto : Document → Document → Document
  | .nil, e => e
  | .text s rest, e => rest.reverseOnto (.text s e)
  | .echo es rest, e => rest.reverseOnto (.echo es e)
  | .loop h inner rest, e => rest.reverseOnto (.loop h inner e)

def reverse (d : Document) : Document := d.reverseOnto .nil

/-- The number of nodes at every depth. -/
def size : Document → Nat
  | .nil => 0
  | .text _ rest => rest.size + 1
  | .echo _ rest => rest.size + 1
  | .loop _ inner rest => inner.size + rest.size + 1

@[simp] theorem nil_append (d : Document) : nil ++ d = d := rfl

@[simp] theorem text_append (s : Text) (d e : Document) : text s d ++ e = text s (d ++ e) := rfl

@[simp] theorem echo_append (es : List Element) (d e : Document) :
    echo es d ++ e = echo es (d ++ e) := rfl

@[simp] theorem loop_append (h : LoopHead) (inner d e : Document) :
    loop h inner d ++ e = loop h inner (d ++ e) := rfl

@[simp] theorem append_nil (d : Document) : d ++ nil = d := by
  induction d with
  | nil => rfl
  | text s rest ih => simp [ih]
  | echo es rest ih => simp [ih]
  | loop h inner rest _ ih => simp [ih]

theorem append_assoc (d e f : Document) : d ++ e ++ f = d ++ (e ++ f) := by
  induction d with
  | nil => rfl
  | text s rest ih => simp [ih]
  | echo es rest ih => simp [ih]
  | loop h inner rest _ ih => simp [ih]

theorem reverseOnto_eq (d e : Document) : d.reverseOnto e = d.reverse ++ e := by
  unfold reverse
  induction d generalizing e with
  | nil => rfl
  | text s rest ih => simp only [reverseOnto]; rw [ih, ih (.text s .nil)]; simp [append_assoc]
  | echo es rest ih => simp only [reverseOnto]; rw [ih, ih (.echo es .nil)]; simp [append_assoc]
  | loop h inner rest _ ih =>
    simp only [reverseOnto]
    rw [ih, ih (.loop h inner .nil)]
    simp [append_assoc]

@[simp] theorem reverse_nil : reverse nil = nil := rfl

@[simp] theorem reverse_text (s : Text) (d : Document) :
    reverse (text s d) = reverse d ++ text s nil := reverseOnto_eq d (text s nil)

@[simp] theorem reverse_echo (es : List Element) (d : Document) :
    reverse (echo es d) = reverse d ++ echo es nil := reverseOnto_eq d (echo es nil)

@[simp] theorem reverse_loop (h : LoopHead) (inner d : Document) :
    reverse (loop h inner d) = reverse d ++ loop h inner nil :=
  reverseOnto_eq d (loop h inner nil)

end Document
end PageTemplate
