import PageTemplate.Proofs.Render.Point

/-! Lexical scope. A render fails for want of a variable just where it comes to a reference
that is in no loop over its name, so it never does if every reference is in such a loop. -/
namespace PageTemplate

variable {ω : Type}

/-! ## References in scope -/

/-- A constant, or a variable among the names. -/
def Operand.InScope (scope : List Text) : Operand → Prop
  | .const _ => True
  | .var name => name ∈ scope

def Element.InScope (scope : List Text) : Element → Prop
  | .operand o => o.InScope scope
  | .fn _ => True
  | .op _ => True

structure LoopHead.InScope (scope : List Text) (h : LoopHead) : Prop where
  start : h.start.InScope scope
  stop : h.stop.InScope scope
  step : ∀ o ∈ h.step, o.InScope scope

/-- Every reference is to one of the names or in a loop over its name. The head of a loop is
not in the loop. -/
def Document.InScope (scope : List Text) : Document → Prop
  | .nil => True
  | .text _ rest => rest.InScope scope
  | .echo es rest => (∀ e ∈ es, e.InScope scope) ∧ rest.InScope scope
  | .loop h inner rest =>
    h.InScope scope ∧ inner.InScope (h.name :: scope) ∧ rest.InScope scope

/-! ## Places -/

/-- What is left of a document at a place in it. The scope is the names of the loops around the
place, the innermost first. -/
inductive Document.Within (d : Document) : List Text → Document → Prop
  | whole : Within d [] d
  | afterText {scope : List Text} {s : Text} {rest : Document}
      (h : Within d scope (.text s rest)) : Within d scope rest
  | afterEcho {scope : List Text} {es : List Element} {rest : Document}
      (h : Within d scope (.echo es rest)) : Within d scope rest
  | inLoop {scope : List Text} {head : LoopHead} {inner rest : Document}
      (h : Within d scope (.loop head inner rest)) : Within d (head.name :: scope) inner
  | afterLoop {scope : List Text} {head : LoopHead} {inner rest : Document}
      (h : Within d scope (.loop head inner rest)) : Within d scope rest

theorem Document.Within.inScope {d part : Document} {scope : List Text} (h : d.Within scope part)
    (hd : d.InScope []) : part.InScope scope := by
  induction h with
  | whole => exact hd
  | afterText _ ih => exact ih
  | afterEcho _ ih => exact ih.2
  | inLoop _ ih => exact ih.2.1
  | afterLoop _ ih => exact ih.2.2

namespace Point

/-- The point is at a place of a document, and its scope is that of the place. -/
def Of (d : Document) : Point ω → Prop
  | nodes scope part _ => d.Within scope part
  | turn outer h inner _ _ _ _ => ∃ rest, d.Within outer (.loop h inner rest)

variable [Page ω] {turns : Nat} {p q : Point ω} {d : Document} {name : Text}

theorem Step.of (h : Step turns p q) (hp : p.Of d) : q.Of d := by
  cases h with
  | text => exact .afterText hp
  | echo => exact .afterEcho hp
  | enter => exact ⟨_, hp⟩
  | leave => exact .afterLoop hp
  | body =>
    obtain ⟨rest, hrest⟩ := hp
    exact .inLoop hrest
  | next => exact hp

theorem Reaches.of (h : Reaches turns p q) (hp : p.Of d) : q.Of d := by
  induction h with
  | refl => exact hp
  | tail _ hstep ih => exact hstep.of ih

theorem LooksUp.mem_scope (h : p.LooksUp name) (hp : p.Of d) (hd : d.InScope []) :
    name ∈ p.scope := by
  cases h with
  | echo =>
    have hechoed := (Document.Within.inScope hp hd).1
    exact hechoed _ (List.mem_append_right _ List.mem_cons_self)
  | start h =>
    have hstart := (Document.Within.inScope hp hd).1.start
    rwa [h] at hstart
  | stop _ h =>
    have hstop := (Document.Within.inScope hp hd).1.stop
    rwa [h] at hstop
  | step _ _ h => exact (Document.Within.inScope hp hd).1.step _ h

/-! ## Runs that fail -/

/-- The run from a point fails for want of a variable. -/
def Fails (turns : Nat) (name : Text) : Point ω → Prop
  | nodes _ d r => ∃ r', d.run turns r = .error (.failed (.unboundVariable name)) r'
  | turn _ h inner stop step left r =>
    ∃ r', Render.iterate h.name stop step (inner.run turns) left r =
      .error (.failed (.unboundVariable name)) r'

/-- A run that fails for want of a variable comes to a reference to it. -/
def Blames (turns : Nat) (name : Text) (p : Point ω) : Prop :=
  ∃ q, Reaches turns p q ∧ q.LooksUp name ∧ q.bindings.peek name = none

theorem Step.blames (h : Step turns p q) (hq : Blames turns name q) :
    Blames turns name p := by
  obtain ⟨t, ht, hlooks, hnone⟩ := hq
  exact ⟨t, .head h ht, hlooks, hnone⟩

theorem blames_of_iterate {outer : List Text} {h : LoopHead} {inner : Document}
    {stop step : Value} {left : Nat}
    (hinner : ∀ r : Rendering ω, Exact (.nodes (h.name :: outer) inner r) →
      Fails turns name (.nodes (h.name :: outer) inner r) →
      Blames turns name (.nodes (h.name :: outer) inner r)) {r : Rendering ω}
    (hr : Exact (.turn outer h inner stop step left r))
    (hfails : Fails turns name (.turn outer h inner stop step left r)) :
    Blames turns name (.turn outer h inner stop step left r) := by
  induction left generalizing r with
  | zero =>
    obtain ⟨r', hr'⟩ := hfails
    cases hr'
  | succ left ih =>
    obtain ⟨r', hr'⟩ := hfails
    have hbound : ∃ c, r.bindings.peek h.name = some c := hr.exists_peek List.mem_cons_self
    obtain ⟨c, hc⟩ := hbound
    obtain ⟨order, ho, hgt⟩ := Render.goesOn_of_unbound hc hr'
    rw [Render.iterate_succ hc ho hgt] at hr'
    rcases error_of_bind hr' with hbody | ⟨⟨⟩, r₁, hbody, hr'⟩
    · exact (Step.body hc ho hgt).blames (hinner r hr ⟨r', hbody⟩)
    · rcases error_of_bind hr' with hadvance | ⟨⟨⟩, r₂, hadvance, hr'⟩
      · have hkeeps := (Render.keeps_run inner turns).bindings_of_ok hbody
        rw [← hkeeps] at hc
        exact absurd hadvance (Render.advance_ne_unbound hc name)
      · have hnext : Step turns (.turn outer h inner stop step (left + 1) r)
            (.turn outer h inner stop step left r₂) := .next hc ho hgt hbody hadvance
        exact hnext.blames (ih (hnext.exact hr) ⟨r', hr'⟩)

/-- A loop that fails for want of a variable does so in its head or in one of its turns. -/
theorem blames_of_loop {scope : List Text} {h : LoopHead} {inner rest : Document}
    {r r' : Rendering ω} (hr : Exact (.nodes scope (.loop h inner rest) r))
    (hturns : ∀ (stop step : Value) (r : Rendering ω),
      Exact (.turn scope h inner stop step turns r) →
      Fails turns name (.turn scope h inner stop step turns r) →
      Blames turns name (.turn scope h inner stop step turns r))
    (hfails : Render.loop h (inner.run turns) turns r =
      .error (.failed (.unboundVariable name)) r') :
    Blames turns name (.nodes scope (.loop h inner rest) r) := by
  rw [Render.loop_eq] at hfails
  rcases error_of_bind hfails with hhead | ⟨start, r₁, hstart, hafterStart⟩
  · obtain ⟨e, he, ⟨⟩, -⟩ := Render.error_onBindings hhead
    obtain ⟨hvar, hnone⟩ := Operand.unbound_of_value? he
    exact ⟨_, .refl, .start hvar, hnone⟩
  obtain ⟨hstart, rfl⟩ := Render.ok_onBindings hstart
  rcases error_of_bind hafterStart with hhead | ⟨stop, r₂, hstop, hafterStop⟩
  · obtain ⟨e, he, ⟨⟩, -⟩ := Render.error_onBindings hhead
    obtain ⟨hvar, hnone⟩ := Operand.unbound_of_value? he
    exact ⟨_, .refl, .stop hstart hvar, hnone⟩
  obtain ⟨hstop, rfl⟩ := Render.ok_onBindings hstop
  rcases error_of_bind hafterStop with hhead | ⟨step, r₃, hstep, hafterStep⟩
  · obtain ⟨e, he, ⟨⟩, -⟩ := Render.error_onBindings hhead
    obtain ⟨hvar, hnone⟩ := LoopHead.unbound_of_stepValue? he
    exact ⟨_, .refl, .step hstart hstop hvar, hnone⟩
  obtain ⟨hstep, rfl⟩ := Render.ok_onBindings hstep
  rcases error_of_bind hafterStep with hcell | ⟨c, r₄, hcell, hloop⟩
  · obtain ⟨e, -, he, -⟩ := Render.error_onBindings hcell
    cases he
  obtain ⟨hc, rfl⟩ := Render.ok_onBindings hcell
  obtain ⟨r₅, hr₅⟩ := Render.error_withBinding hloop
  have henter : Step turns (.nodes scope (.loop h inner rest) r₄)
      (.turn scope h inner stop step turns ⟨r₄.bindings.push h.name c, r₄.context⟩) :=
    .enter hstart hstop hstep hc
  exact henter.blames (hturns stop step _ (henter.exact hr) ⟨r₅, hr₅⟩)

/-- A run from a point where just the variables of the loops around are bound, if it fails for
want of a variable, comes to a reference to it. -/
theorem blames_of_run {d : Document} {scope : List Text} {r : Rendering ω}
    (hr : Exact (.nodes scope d r)) (hfails : Fails turns name (.nodes scope d r)) :
    Blames turns name (.nodes scope d r) := by
  induction d generalizing scope r with
  | nil =>
    obtain ⟨r', hr'⟩ := hfails
    cases hr'
  | text s rest ih =>
    obtain ⟨r', hr'⟩ := hfails
    rcases error_of_bind hr' with hwrite | ⟨⟨⟩, r₁, hwrite, hrest⟩
    · exact absurd hwrite (Render.write_ne_unbound s name r r')
    · have hstep : Step turns (.nodes scope (.text s rest) r) (.nodes scope rest r₁) :=
        .text hwrite
      exact hstep.blames (ih (hstep.exact hr) ⟨r', hrest⟩)
  | echo es rest ih =>
    obtain ⟨r', hr'⟩ := hfails
    rcases error_of_bind hr' with hecho | ⟨⟨⟩, r₁, hecho, hrest⟩
    · obtain ⟨before, after, s, rfl, hbefore, hnone⟩ := Render.unbound_of_echo hecho
      exact ⟨_, .refl, .echo hbefore, hnone⟩
    · have hstep : Step turns (.nodes scope (.echo es rest) r) (.nodes scope rest r₁) :=
        .echo hecho
      exact hstep.blames (ih (hstep.exact hr) ⟨r', hrest⟩)
  | loop h inner rest ihi ihr =>
    obtain ⟨r', hr'⟩ := hfails
    rcases error_of_bind hr' with hloop | ⟨⟨⟩, r₁, hloop, hrest⟩
    · refine blames_of_loop hr (fun stop step r₁ hr₁ hf => ?_) hloop
      exact blames_of_iterate (fun r hr hf => ihi hr hf) hr₁ hf
    · have hstep : Step turns (.nodes scope (.loop h inner rest) r) (.nodes scope rest r₁) :=
        .leave hloop
      exact hstep.blames (ihr (hstep.exact hr) ⟨r', hrest⟩)

/-! ## Points that fail -/

theorem fails_of_loop {scope : List Text} {head : LoopHead} {inner rest : Document}
    {r r' : Rendering ω} (h : Render.loop head (inner.run turns) turns r =
      .error (.failed (.unboundVariable name)) r') :
    Fails turns name (.nodes scope (.loop head inner rest) r) :=
  ⟨r', bind_of_error h _⟩

theorem Step.fails (h : Step turns p q) (hq : Fails turns name q) : Fails turns name p := by
  cases h with
  | text h =>
    obtain ⟨r', hr'⟩ := hq
    exact ⟨r', (bind_of_ok h _).trans hr'⟩
  | echo h =>
    obtain ⟨r', hr'⟩ := hq
    exact ⟨r', (bind_of_ok h _).trans hr'⟩
  | enter hstart hstop hstep hc =>
    obtain ⟨r', hr'⟩ := hq
    apply fails_of_loop
    exact (Render.loop_of_head hstart hstop hstep hc).trans (Render.withBinding_of_error hr')
  | leave h =>
    obtain ⟨r', hr'⟩ := hq
    exact ⟨r', (bind_of_ok h _).trans hr'⟩
  | body hc ho hgt =>
    obtain ⟨r', hr'⟩ := hq
    exact ⟨r', (Render.iterate_succ hc ho hgt).trans (bind_of_error hr' _)⟩
  | next hc ho hgt hbody hadvance =>
    obtain ⟨r', hr'⟩ := hq
    refine ⟨r', (Render.iterate_succ hc ho hgt).trans ?_⟩
    rw [bind_of_ok hbody, bind_of_ok hadvance]
    exact hr'

theorem Reaches.fails (h : Reaches turns p q) (hq : Fails turns name q) :
    Fails turns name p := by
  induction h with
  | refl => exact hq
  | tail _ hstep ih => exact ih (hstep.fails hq)

/-- A run from a reference without a binding fails for want of it. -/
theorem LooksUp.fails (h : p.LooksUp name) (hnone : p.bindings.peek name = none) :
    Fails turns name p := by
  cases h with
  | echo h =>
    obtain ⟨r', hr'⟩ := Render.echo_of_unbound h hnone
    exact ⟨r', bind_of_error hr' _⟩
  | start h =>
    have hvalue := Operand.value?_of_unbound hnone
    rw [← h] at hvalue
    apply fails_of_loop
    rw [Render.loop_eq]
    exact bind_of_error (Render.onBindings_of_error hvalue) _
  | stop hstart h =>
    have hvalue := Operand.value?_of_unbound hnone
    rw [← h] at hvalue
    apply fails_of_loop
    rw [Render.loop_eq, bind_of_ok (Render.onBindings_of_ok hstart)]
    exact bind_of_error (Render.onBindings_of_error hvalue) _
  | @step scope head inner rest r start stop hstart hstop h =>
    have hvalue : head.stepValue? r.bindings = .error (.unboundVariable name) := by
      rw [LoopHead.stepValue?, h]
      exact Operand.value?_of_unbound hnone
    apply fails_of_loop
    rw [Render.loop_eq, bind_of_ok (Render.onBindings_of_ok hstart),
      bind_of_ok (Render.onBindings_of_ok hstop)]
    exact bind_of_error (Render.onBindings_of_error hvalue) _

end Point

/-! ## Scoping -/

theorem Document.exact_begin (d : Document) (c : Context ω) : (d.begin c).Exact :=
  Bindings.names_empty

/-- A render that fails for want of a variable is a run that does. -/
theorem Document.fails_begin_iff [Page ω] {d : Document} {turns : Nat} {c : Context ω}
    {name : Text} : (∃ c', d.render turns c = .error (.failed (.unboundVariable name)) c') ↔
      Point.Fails turns name (d.begin c) := by
  change _ ↔ ∃ r', d.run turns ⟨Bindings.empty, c⟩ = .error (.failed (.unboundVariable name)) r'
  unfold render
  cases hrun : d.run turns ⟨Bindings.empty, c⟩ <;> simp

/-- Scoping. A render whose references are all in loops over their names does not fail for want
of a variable; another does just if it comes to a reference at a place with no loop over the
name around it. Wherever it is, the variables of the loops around are bound and no others, and a
turn finds the variable of its loop before what the loop repeats and after it. -/
theorem render_scoping [Page ω] (d : Document) (turns : Nat) (c : Context ω) :
    (d.InScope [] →
      ∀ name c', d.render turns c ≠ .error (.failed (.unboundVariable name)) c') ∧
    (∀ name, (∃ c', d.render turns c = .error (.failed (.unboundVariable name)) c') ↔
      ∃ p, Point.Reaches turns (d.begin c) p ∧ p.LooksUp name ∧ name ∉ p.scope) ∧
    (∀ p, Point.Reaches turns (d.begin c) p →
      p.Of d ∧ ∀ name, p.bindings.peek name = none ↔ name ∉ p.scope) ∧
    ∀ outer h inner stop step left r,
      Point.Reaches turns (d.begin c) (.turn outer h inner stop step left r) →
      (∃ cell, Render.binding h.name r = .ok cell r) ∧
      ∀ r', inner.run turns r = .ok () r' → ∃ cell, Render.binding h.name r' = .ok cell r' := by
  have hexact : ∀ {p : Point ω}, Point.Reaches turns (d.begin c) p → p.Exact :=
    fun hp => hp.exact (d.exact_begin c)
  have hof : ∀ {p : Point ω}, Point.Reaches turns (d.begin c) p → p.Of d :=
    fun hp => hp.of .whole
  have hblames : ∀ name, (∃ c', d.render turns c = .error (.failed (.unboundVariable name)) c') ↔
      ∃ p, Point.Reaches turns (d.begin c) p ∧ p.LooksUp name ∧ name ∉ p.scope := by
    intro name
    rw [Document.fails_begin_iff]
    constructor
    · intro hfails
      obtain ⟨p, hp, hlooks, hnone⟩ := Point.blames_of_run (d.exact_begin c) hfails
      exact ⟨p, hp, hlooks, ((hexact hp).peek_eq_none_iff name).1 hnone⟩
    · rintro ⟨p, hp, hlooks, hscope⟩
      exact hp.fails (hlooks.fails (((hexact hp).peek_eq_none_iff name).2 hscope))
  refine ⟨?_, hblames, fun p hp => ⟨hof hp, (hexact hp).peek_eq_none_iff⟩, ?_⟩
  · intro hd name c' hrender
    obtain ⟨p, hp, hlooks, hscope⟩ := (hblames name).1 ⟨c', hrender⟩
    exact hscope (hlooks.mem_scope (hof hp) hd)
  · intro outer h inner stop step left r hp
    obtain ⟨cell, hcell⟩ := (hexact hp).exists_peek List.mem_cons_self
    refine ⟨⟨cell, Render.binding_of_peek hcell⟩, fun r' hbody => ⟨cell, ?_⟩⟩
    have hkeeps := (Render.keeps_run inner turns).bindings_of_ok hbody
    apply Render.binding_of_peek
    rw [hkeeps]
    exact hcell

end PageTemplate
