import Mathlib.Logic.Relation
import PageTemplate.Proofs.Render.Lookup

/-! Points of a render. A render goes from node to node and, in a loop, from turn to turn, and
wherever it is the variables that are bound are those of the loops around. -/
namespace PageTemplate

variable {ω : Type}

/-! ## Names -/

namespace Bindings

/-- The names of the bindings in force, the most recent first. -/
def names (b : Bindings) : List Text := b.entries.map (·.1)

@[simp] theorem names_empty : empty.names = [] := rfl

@[simp] theorem names_push (b : Bindings) (name : Text) (c : Cell) :
    (b.push name c).names = name :: b.names := rfl

theorem peek_eq_none_iff (b : Bindings) (name : Text) : b.peek name = none ↔ name ∉ b.names := by
  simp only [peek, names, Option.map_eq_none_iff, List.find?_eq_none, decide_eq_true_eq,
    List.mem_map, not_exists, not_and]

theorem names_replace (b : Bindings) (name : Text) (c : Cell) :
    (b.replace name c).names = b.names := by
  obtain ⟨es⟩ := b
  induction es with
  | nil => rfl
  | cons e es ih =>
    by_cases h : e.1 = name
    · simp [replace, replaceFirst, names, h]
    · simpa [replace, replaceFirst, names, h] using ih

end Bindings

/-! ## Points of a render -/

/-- Where a render is: before some nodes, or before a turn of a loop. The scope is the names
of the loops around, the innermost first. -/
inductive Point (ω : Type)
  | nodes (scope : List Text) (d : Document) (r : Rendering ω)
  | turn (outer : List Text) (h : LoopHead) (inner : Document) (stop step : Value) (left : Nat)
      (r : Rendering ω)

namespace Point

def scope : Point ω → List Text
  | nodes scope _ _ => scope
  | turn outer h _ _ _ _ _ => h.name :: outer

def bindings : Point ω → Bindings
  | nodes _ _ r => r.bindings
  | turn _ _ _ _ _ _ r => r.bindings

/-- Just the variables of the loops around are bound. -/
def Exact (p : Point ω) : Prop := p.bindings.names = p.scope

theorem Exact.peek_eq_none_iff {p : Point ω} (h : p.Exact) (name : Text) :
    p.bindings.peek name = none ↔ name ∉ p.scope := by
  rw [Bindings.peek_eq_none_iff, h]

theorem Exact.exists_peek {p : Point ω} (h : p.Exact) {name : Text} (hn : name ∈ p.scope) :
    ∃ c, p.bindings.peek name = some c := by
  cases hp : p.bindings.peek name with
  | some c => exact ⟨c, rfl⟩
  | none => exact absurd hn ((h.peek_eq_none_iff name).1 hp)

end Point

/-! ## Loops -/

/-- A step of a loop changes its cell and binds no name anew. -/
theorem Render.names_advance {name : Text} {step : Value} {r r' : Rendering ω}
    (h : advance name step r = .ok () r') : r'.bindings.names = r.bindings.names := by
  obtain ⟨c, r₁, hbinding, hrest⟩ := ok_of_bind h
  obtain ⟨d, r₂, hadd, hmodify⟩ := ok_of_bind hrest
  obtain ⟨-, rfl⟩ := ok_onBindings hbinding
  obtain ⟨-, rfl⟩ := ok_onBindings hadd
  cases hmodify
  exact Bindings.names_replace _ _ _

/-- The step of a loop, one if it has none. -/
def LoopHead.stepValue? (h : LoopHead) (b : Bindings) : Except RenderError Value :=
  match h.step with
  | some o => o.value? b
  | none => .ok (.int 1)

theorem LoopHead.unbound_of_stepValue? {h : LoopHead} {b : Bindings} {name : Text}
    (he : h.stepValue? b = .error (.unboundVariable name)) :
    h.step = some (.var name) ∧ b.peek name = none := by
  unfold stepValue? at he
  cases hs : h.step with
  | none =>
    rw [hs] at he
    cases he
  | some o =>
    rw [hs] at he
    obtain ⟨rfl, hnone⟩ := Operand.unbound_of_value? he
    exact ⟨rfl, hnone⟩

namespace Render

variable {body : Render ω Unit} {head : LoopHead} {turns left : Nat} {r r' : Rendering ω}
  {start stop step : Value} {c : Cell} {name : Text}

theorem binding_of_peek (h : r.bindings.peek name = some c) : binding name r = .ok c r := by
  apply onBindings_of_ok
  rw [h]

theorem loop_eq (head : LoopHead) (body : Render ω Unit) (turns : Nat) :
    loop head body turns = (do
      let start ← onBindings id head.start.value?
      let stop ← onBindings id head.stop.value?
      let step ← onBindings id head.stepValue?
      let c ← onBindings .value fun _ => Cell.ofValue (some start)
      withBinding head.name c (iterate head.name stop step body turns)) := by
  unfold loop LoopHead.stepValue?
  cases head.step <;> rfl

/-- A loop whose head has values is its turns with the variable bound. -/
theorem loop_of_head (hstart : head.start.value? r.bindings = .ok start)
    (hstop : head.stop.value? r.bindings = .ok stop)
    (hstep : head.stepValue? r.bindings = .ok step) (hc : Cell.ofValue (some start) = .ok c) :
    loop head body turns r =
      withBinding head.name c (iterate head.name stop step body turns) r := by
  rw [loop_eq, bind_of_ok (onBindings_of_ok hstart), bind_of_ok (onBindings_of_ok hstop),
    bind_of_ok (onBindings_of_ok hstep), bind_of_ok (onBindings_of_ok hc)]

/-- A turn that is not past the end is what the loop repeats, a step and the other turns. -/
theorem iterate_succ {order : Ordering} (hc : r.bindings.peek name = some c)
    (ho : c.compare (some stop) = .ok order) (hgt : order ≠ .gt) :
    iterate name stop step body (left + 1) r =
      (do
        body
        advance name step
        iterate name stop step body left) r := by
  rw [iterate, bind_of_ok (binding_of_peek hc), bind_of_ok (onBindings_of_ok ho)]
  cases order with
  | lt => rfl
  | eq => rfl
  | gt => exact absurd rfl hgt

/-- A turn that finds its own cell and fails for want of a variable is not past the end. -/
theorem goesOn_of_unbound {unbound : Text} (hc : r.bindings.peek name = some c)
    (h : iterate name stop step body (left + 1) r =
      .error (.failed (.unboundVariable unbound)) r') :
    ∃ order, c.compare (some stop) = .ok order ∧ order ≠ .gt := by
  rw [iterate, bind_of_ok (binding_of_peek hc)] at h
  cases ho : c.compare (some stop) with
  | error e =>
    rw [bind_of_error (onBindings_of_error ho)] at h
    cases h
  | ok order =>
    refine ⟨order, rfl, ?_⟩
    rintro rfl
    rw [bind_of_ok (onBindings_of_ok ho)] at h
    cases h

/-- A step that finds its own cell does not fail for want of a variable. -/
theorem advance_ne_unbound (hc : r.bindings.peek name = some c) (unbound : Text) :
    advance name step r ≠ .error (.failed (.unboundVariable unbound)) r' := by
  intro h
  unfold advance at h
  rw [bind_of_ok (binding_of_peek hc)] at h
  rcases error_of_bind h with h | ⟨d, r₁, -, h⟩
  · obtain ⟨e, -, he, -⟩ := error_onBindings h
    cases he
  · cases h

theorem error_withBinding {m : Render ω Unit} {e : Halt}
    (h : withBinding name c m r = .error e r') :
    ∃ r₁, m ⟨r.bindings.push name c, r.context⟩ = .error e r₁ := by
  cases hm : m ⟨r.bindings.push name c, r.context⟩ with
  | ok a r₁ =>
    simp only [withBinding, hm] at h
    cases h
  | error e' r₁ =>
    simp only [withBinding, hm] at h
    cases h
    exact ⟨r₁, rfl⟩

theorem withBinding_of_error {m : Render ω Unit} {e : Halt} {r₁ : Rendering ω}
    (h : m ⟨r.bindings.push name c, r.context⟩ = .error e r₁) :
    withBinding name c m r = .error e ⟨r₁.bindings.pop name, r₁.context⟩ := by
  simp only [withBinding, h]

end Render

variable [Page ω]

/-- How a render goes from one point to the next: past a node that succeeds, into a loop, from
a turn that is not past the end into what the loop repeats, and from a turn to the one after. -/
inductive Point.Step (turns : Nat) : Point ω → Point ω → Prop
  | text {scope : List Text} {s : Text} {rest : Document} {r r' : Rendering ω}
      (h : Render.write s r = .ok () r') :
      Step turns (.nodes scope (.text s rest) r) (.nodes scope rest r')
  | echo {scope : List Text} {es : List Element} {rest : Document} {r r' : Rendering ω}
      (h : Render.echo es r = .ok () r') :
      Step turns (.nodes scope (.echo es rest) r) (.nodes scope rest r')
  | enter {scope : List Text} {head : LoopHead} {inner rest : Document} {r : Rendering ω}
      {start stop step : Value} {c : Cell} (hstart : head.start.value? r.bindings = .ok start)
      (hstop : head.stop.value? r.bindings = .ok stop)
      (hstep : head.stepValue? r.bindings = .ok step) (hc : Cell.ofValue (some start) = .ok c) :
      Step turns (.nodes scope (.loop head inner rest) r)
        (.turn scope head inner stop step turns ⟨r.bindings.push head.name c, r.context⟩)
  | leave {scope : List Text} {head : LoopHead} {inner rest : Document} {r r' : Rendering ω}
      (h : Render.loop head (inner.run turns) turns r = .ok () r') :
      Step turns (.nodes scope (.loop head inner rest) r) (.nodes scope rest r')
  | body {outer : List Text} {head : LoopHead} {inner : Document} {stop step : Value}
      {left : Nat} {r : Rendering ω} {c : Cell} {order : Ordering}
      (hc : r.bindings.peek head.name = some c) (ho : c.compare (some stop) = .ok order)
      (hgt : order ≠ .gt) :
      Step turns (.turn outer head inner stop step (left + 1) r)
        (.nodes (head.name :: outer) inner r)
  | next {outer : List Text} {head : LoopHead} {inner : Document} {stop step : Value}
      {left : Nat} {r r₁ r₂ : Rendering ω} {c : Cell} {order : Ordering}
      (hc : r.bindings.peek head.name = some c) (ho : c.compare (some stop) = .ok order)
      (hgt : order ≠ .gt) (hbody : inner.run turns r = .ok () r₁)
      (hadvance : Render.advance head.name step r₁ = .ok () r₂) :
      Step turns (.turn outer head inner stop step (left + 1) r)
        (.turn outer head inner stop step left r₂)

/-- The points that a render comes to from another. -/
def Point.Reaches (turns : Nat) : Point ω → Point ω → Prop :=
  Relation.ReflTransGen (Point.Step turns)

/-- The point before a document with no loop around it. -/
def Document.begin (d : Document) (c : Context ω) : Point ω := .nodes [] d ⟨Bindings.empty, c⟩

/-- A reference to a name is evaluated next: all of the echo before it has been evaluated, or
all of the loop head before it. -/
inductive Point.LooksUp (name : Text) : Point ω → Prop
  | echo {scope : List Text} {before after : List Element} {rest : Document} {r : Rendering ω}
      {s : Evaluation ω} (h : evalAll r.bindings before ⟨[], r.context⟩ = .ok () s) :
      LooksUp name (.nodes scope (.echo (before ++ .operand (.var name) :: after) rest) r)
  | start {scope : List Text} {head : LoopHead} {inner rest : Document} {r : Rendering ω}
      (h : head.start = .var name) : LooksUp name (.nodes scope (.loop head inner rest) r)
  | stop {scope : List Text} {head : LoopHead} {inner rest : Document} {r : Rendering ω}
      {start : Value} (hstart : head.start.value? r.bindings = .ok start)
      (h : head.stop = .var name) : LooksUp name (.nodes scope (.loop head inner rest) r)
  | step {scope : List Text} {head : LoopHead} {inner rest : Document} {r : Rendering ω}
      {start stop : Value} (hstart : head.start.value? r.bindings = .ok start)
      (hstop : head.stop.value? r.bindings = .ok stop) (h : head.step = some (.var name)) :
      LooksUp name (.nodes scope (.loop head inner rest) r)

/-! ## What is bound -/

namespace Point

variable {turns : Nat} {p q : Point ω}

theorem Step.exact (h : Step turns p q) (hp : p.Exact) : q.Exact := by
  unfold Exact at hp ⊢
  cases h with
  | text h => exact (congrArg Bindings.names ((Render.keeps_write _).bindings_of_ok h)).trans hp
  | echo h => exact (congrArg Bindings.names ((Render.keeps_echo _).bindings_of_ok h)).trans hp
  | @enter scope head inner rest r start stop step c hstart hstop hstep hc =>
    exact (Bindings.names_push _ _ _).trans (congrArg (head.name :: ·) hp)
  | @leave scope head inner rest r r' h =>
    have hkeeps : (Render.loop head (inner.run turns) turns : Render ω Unit).Keeps :=
      Render.keeps_loop (Render.keeps_run inner turns) head turns
    exact (congrArg Bindings.names (hkeeps.bindings_of_ok h)).trans hp
  | body => exact hp
  | next hc ho hgt hbody hadvance =>
    have hkeeps := (Render.keeps_run _ turns).bindings_of_ok hbody
    exact (Render.names_advance hadvance).trans ((congrArg Bindings.names hkeeps).trans hp)

theorem Reaches.exact (h : Reaches turns p q) (hp : p.Exact) : q.Exact := by
  induction h with
  | refl => exact hp
  | tail _ hstep ih => exact hstep.exact ih

end Point
end PageTemplate
