import PageTemplate.Text.Space

/-! Paths as text. A slash ends a part of a path; after the first part, empty parts and single
dots say nothing. -/
namespace PageTemplate.Path

/-- The parts between the slashes, the empty ones included. -/
def parts : Text → List Text
  | [] => [[]]
  | c :: s =>
    if c = '/' then [] :: parts s
    else match parts s with
    | [] => [[c]]
    | p :: ps => (c :: p) :: ps

/-- Whether a part after the first says nothing. -/
def isIdlePart (part : Text) : Bool := part.isEmpty || part == ['.']

/-- Whether a path is the name of one part, however it is spelled. -/
def spells (name path : Text) : Bool :=
  match parts path with
  | [] => false
  | p :: ps => p == name && ps.all isIdlePart

theorem parts_eq_singleton {s : Text} (h : '/' ∉ s) : parts s = [s] := by
  induction s with
  | nil => rfl
  | cons c s ih =>
    rw [List.mem_cons, not_or] at h
    simp [parts, Ne.symm h.1, ih h.2]

/-- A name is a spelling of itself. -/
theorem spells_self {name : Text} (h : '/' ∉ name) : spells name name := by
  simp [spells, parts_eq_singleton h]

end PageTemplate.Path
