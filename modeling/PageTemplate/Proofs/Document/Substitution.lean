import PageTemplate.Document.Basic

/-! Names in documents, and operands put in the place of references. What a loop repeats is out
of reach for a substitution of its own name; its head is not. -/
namespace PageTemplate

/-! ## Names -/

def Operand.names : Operand → List Text
  | .const _ => []
  | .var name => [name]

def Element.names : Element → List Text
  | .operand o => o.names
  | .fn _ => []
  | .op _ => []

/-- The variables that a loop head refers to. -/
def LoopHead.references (h : LoopHead) : List Text :=
  h.start.names ++ h.stop.names ++ h.step.toList.flatMap Operand.names

/-- The names that occur in a document, as references or as the variables of loops. -/
def Document.names : Document → List Text
  | .nil => []
  | .text _ rest => rest.names
  | .echo es rest => es.flatMap Element.names ++ rest.names
  | .loop h inner rest => h.name :: h.references ++ inner.names ++ rest.names

/-! ## Substitution -/

def Operand.subst (o : Operand) (name : Text) (new : Operand) : Operand :=
  match o with
  | .const v => .const v
  | .var other => if other = name then new else .var other

def Element.subst (e : Element) (name : Text) (new : Operand) : Element :=
  match e with
  | .operand o => .operand (o.subst name new)
  | .fn f => .fn f
  | .op o => .op o

/-- The variable of the loop stays as it is. -/
def LoopHead.subst (h : LoopHead) (name : Text) (new : Operand) : LoopHead :=
  { h with
    start := h.start.subst name new
    stop := h.stop.subst name new
    step := h.step.map (·.subst name new) }

/-- Puts an operand in the place of each free reference to a name. -/
def Document.subst (name : Text) (new : Operand) : Document → Document
  | .nil => .nil
  | .text s rest => .text s (rest.subst name new)
  | .echo es rest => .echo (es.map (·.subst name new)) (rest.subst name new)
  | .loop h inner rest =>
    .loop (h.subst name new) (if h.name = name then inner else inner.subst name new)
      (rest.subst name new)

theorem Operand.subst_self (o : Operand) (name : Text) : o.subst name (.var name) = o := by
  cases o with
  | const v => rfl
  | var other => exact ite_eq_right_iff.2 fun h => h ▸ rfl

theorem Element.subst_self (e : Element) (name : Text) : e.subst name (.var name) = e := by
  cases e with
  | operand o => simp [subst, Operand.subst_self]
  | fn f => rfl
  | op o => rfl

theorem LoopHead.subst_self (h : LoopHead) (name : Text) : h.subst name (.var name) = h := by
  simp [subst, Operand.subst_self]

/-- A name put in its own place changes nothing. -/
theorem Document.subst_self (d : Document) (name : Text) : d.subst name (.var name) = d := by
  induction d with
  | nil => rfl
  | text s rest ih => simp [subst, ih]
  | echo es rest ih => simp [subst, Element.subst_self, ih]
  | loop h inner rest ihi ihr => simp [subst, LoopHead.subst_self, ihi, ihr]

/-! ## Surroundings -/

/-- A document around a gap: the nodes before the gap, the loops that it is in, and the nodes
after each of these loops. -/
inductive Surroundings
  | none
  | text (content : Text) (next : Surroundings)
  | echo (elements : List Element) (next : Surroundings)
  | after (head : LoopHead) (inner : Document) (next : Surroundings)
  | inside (head : LoopHead) (next : Surroundings) (rest : Document)

/-- The document with the gap filled; what fills it goes on to the end of the sequence. -/
def Surroundings.fill : Surroundings → Document → Document
  | .none, d => d
  | .text s next, d => .text s (next.fill d)
  | .echo es next, d => .echo es (next.fill d)
  | .after h inner next, d => .loop h inner (next.fill d)
  | .inside h next rest, d => .loop h (next.fill d) rest

end PageTemplate
