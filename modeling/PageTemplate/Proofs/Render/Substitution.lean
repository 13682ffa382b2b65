import PageTemplate.Proofs.Document.Substitution
import PageTemplate.Proofs.Render.Outcome

/-! Renders and substitution. A document with an operand in the place of a name renders like the
document itself where the name is bound to what the operand stands for. The bindings of the two
runs differ in that name, and inner loops over it bring them together again. -/
namespace PageTemplate

variable {ω : Type} {b₁ b₂ : Bindings} {name : Text} {new : Operand} {names : List Text}

theorem Bindings.peek_push_of_ne (b : Bindings) {name other : Text} (c : Cell)
    (h : name ≠ other) : (b.push name c).peek other = b.peek other := by
  simp [push, peek, h]

/-! ## Bindings that agree -/

/-- In the first bindings the name stands for what the operand stands for in the second; the
other names are bound alike. -/
structure Bindings.Agree (name : Text) (new : Operand) (names : List Text) (b₁ b₂ : Bindings) :
    Prop where
  bound : (Operand.var name).value? b₁ = new.value? b₂
  others : ∀ x ∈ names, x ≠ name → b₁.peek x = b₂.peek x

namespace Bindings.Agree

theorem mono {names' : List Text} (h : Agree name new names b₁ b₂) (hsub : names' ⊆ names) :
    Agree name new names' b₁ b₂ := ⟨h.bound, fun x hx => h.others x (hsub hx)⟩

/-- In a loop over the name itself both runs find the cell of that loop. -/
theorem push_self (h : Agree name new names b₁ b₂) (c : Cell) :
    Agree name (.var name) names (b₁.push name c) (b₂.push name c) := by
  refine ⟨?_, fun x hx hne => ?_⟩
  · simp only [Operand.value?, peek_push]
  · rw [peek_push_of_ne _ _ (Ne.symm hne), peek_push_of_ne _ _ (Ne.symm hne)]
    exact h.others x hx hne

/-- A loop over another name must not be over what the operand refers to. -/
theorem push_other {other : Text} (h : Agree name new names b₁ b₂) (hne : other ≠ name)
    (hnew : new ≠ .var other) (c : Cell) :
    Agree name new names (b₁.push other c) (b₂.push other c) := by
  refine ⟨?_, fun x hx hx' => ?_⟩
  · have hvar : (Operand.var name).value? (b₁.push other c) = (Operand.var name).value? b₁ := by
      simp only [Operand.value?, peek_push_of_ne _ _ hne]
    rw [hvar, h.bound]
    cases new with
    | const v => rfl
    | var w =>
      have hw : other ≠ w := fun hw => hnew (hw ▸ rfl)
      simp only [Operand.value?, peek_push_of_ne _ _ hw]
  · by_cases hxo : other = x
    · subst hxo
      rw [peek_push, peek_push]
    · rw [peek_push_of_ne _ _ hxo, peek_push_of_ne _ _ hxo]
      exact h.others x hx hx'

end Bindings.Agree

/-! ## Operands, elements and loop heads -/

theorem Operand.value?_subst {o : Operand} (h : Bindings.Agree name new o.names b₁ b₂) :
    o.value? b₁ = (o.subst name new).value? b₂ := by
  cases o with
  | const v => rfl
  | var x =>
    by_cases hx : x = name
    · subst hx
      simpa [subst] using h.bound
    · have hpeek := h.others x List.mem_cons_self hx
      simp only [subst, if_neg hx, value?, hpeek]

theorem LoopHead.stepValue?_subst {h : LoopHead}
    (ha : Bindings.Agree name new h.references b₁ b₂) :
    h.stepValue? b₁ = (h.subst name new).stepValue? b₂ := by
  unfold stepValue? subst
  cases hs : h.step with
  | none => rfl
  | some o =>
    refine Operand.value?_subst (ha.mono fun x hx => ?_)
    simp [references, hs, hx]

section Pages

variable [Page ω]

theorem Element.eval_subst {e : Element} (h : Bindings.Agree name new e.names b₁ b₂) :
    (e.eval b₁ : Eval ω Unit) = (e.subst name new).eval b₂ := by
  cases e with
  | operand o => simp only [eval, subst, Operand.value?_subst h]
  | fn f => rfl
  | op o => rfl

theorem evalAll_subst {es : List Element}
    (h : Bindings.Agree name new (es.flatMap Element.names) b₁ b₂) :
    (evalAll b₁ es : Eval ω Unit) = evalAll b₂ (es.map (·.subst name new)) := by
  induction es with
  | nil => rfl
  | cons e es ih =>
    have he : (e.eval b₁ : Eval ω Unit) = (e.subst name new).eval b₂ :=
      Element.eval_subst (h.mono fun x hx => by simp [hx])
    have hes := ih (h.mono fun x hx => by simp [hx])
    simp only [evalAll, List.map_cons, he, hes]

namespace Render

theorem alike_write (s : Text) : Alike b₁ b₂ (write s : Render ω Unit) (write s) := by
  intro c
  unfold outcome write
  dsimp only
  cases c.write s <;> rfl

theorem alike_writeValues (vs : List Value) :
    Alike b₁ b₂ (writeValues vs : Render ω Unit) (writeValues vs) := by
  induction vs with
  | nil => exact fun c => rfl
  | cons v vs ih => exact (alike_write v.text).bind (keeps_write _) (keeps_write _) fun _ => ih

theorem alike_echo {es : List Element}
    (h : Bindings.Agree name new (es.flatMap Element.names) b₁ b₂) :
    Alike b₁ b₂ (echo es : Render ω Unit) (echo (es.map (·.subst name new))) := by
  have hevaluate : Alike b₁ b₂ (evaluate es : Render ω (List Value))
      (evaluate (es.map (·.subst name new))) := by
    intro c
    unfold outcome evaluate
    dsimp only
    rw [evalAll_subst h]
    cases evalAll b₂ (es.map (·.subst name new)) ⟨[], c⟩ <;> rfl
  exact hevaluate.bind (keeps_evaluate _) (keeps_evaluate _) fun vs => alike_writeValues vs

/-- Substitution. No loop in the document may be over the name that the operand refers to. -/
theorem alike_subst {d : Document} (hnew : ∀ x ∈ d.names, new = .var x → x = name)
    (h : Bindings.Agree name new d.names b₁ b₂) (turns : Nat) :
    Alike b₁ b₂ (d.run turns : Render ω Unit) ((d.subst name new).run turns) := by
  induction d generalizing new b₁ b₂ with
  | nil => exact fun c => rfl
  | text s rest ih =>
    exact (alike_write s).bind (keeps_write s) (keeps_write s) fun _ => ih hnew h
  | echo es rest ih =>
    have hes := h.mono (List.subset_append_left (es.flatMap Element.names) rest.names)
    have hrest : rest.names ⊆ (Document.echo es rest).names := List.subset_append_right _ _
    exact (alike_echo hes).bind (keeps_echo _) (keeps_echo _) fun _ =>
      ih (fun x hx => hnew x (hrest hx)) (h.mono hrest)
  | loop head inner rest ihi ihr =>
    have hhead : head.references ⊆ (Document.loop head inner rest).names := by
      intro x hx
      simp [Document.names, hx]
    have hinner : inner.names ⊆ (Document.loop head inner rest).names := by
      intro x hx
      simp [Document.names, hx]
    have hrest : rest.names ⊆ (Document.loop head inner rest).names := by
      intro x hx
      simp [Document.names, hx]
    have hname : head.name ∈ (Document.loop head inner rest).names := List.mem_cons_self
    have hrefs := h.mono hhead
    -- an inner loop over the name keeps its body, which is the body with the name for itself
    have hbody : ∀ cell, Alike (b₁.push head.name cell) (b₂.push head.name cell)
        (inner.run turns : Render ω Unit)
        ((if head.name = name then inner else inner.subst name new).run turns) := by
      intro cell
      by_cases hn : head.name = name
      · rw [if_pos hn]
        have hself : Alike (b₁.push name cell) (b₂.push name cell) (inner.run turns : Render ω Unit)
            ((inner.subst name (.var name)).run turns) :=
          ihi (fun x _ hx => (Operand.var.inj hx).symm) ((h.mono hinner).push_self cell)
        rw [Document.subst_self] at hself
        rwa [hn]
      · rw [if_neg hn]
        have hcapture : new ≠ .var head.name := fun he => hn (hnew _ hname he)
        exact ihi (fun x hx => hnew x (hinner hx)) ((h.mono hinner).push_other hn hcapture cell)
    have hloop : Alike b₁ b₂ (loop head (inner.run turns) turns : Render ω Unit)
        (loop (head.subst name new)
          ((if head.name = name then inner else inner.subst name new).run turns) turns) :=
      alike_loop (keeps_run inner turns) (keeps_run _ turns)
        (Operand.value?_subst (hrefs.mono (by simp [LoopHead.references])))
        (Operand.value?_subst (hrefs.mono (by simp [LoopHead.references])))
        (LoopHead.stepValue?_subst hrefs) hbody turns
    exact hloop.bind (keeps_loop (keeps_run _ _) _ _) (keeps_loop (keeps_run _ _) _ _) fun _ =>
      ihr (fun x hx => hnew x (hrest hx)) (h.mono hrest)

end Render

/-! ## Documents with a gap -/

/-- What fills a gap counts only by its runs. -/
theorem Surroundings.run_fill_congr {d e : Document} {turns : Nat}
    (h : (d.run turns : Render ω Unit) = e.run turns) (around : Surroundings) :
    ((around.fill d).run turns : Render ω Unit) = (around.fill e).run turns := by
  induction around with
  | none => exact h
  | text s next ih => simp only [fill, Document.run, ih]
  | echo es next ih => simp only [fill, Document.run, ih]
  | after head inner next ih => simp only [fill, Document.run, ih]
  | inside head next rest ih => simp only [fill, Document.run, ih]

theorem Surroundings.render_fill_congr {d e : Document} {turns : Nat}
    (h : (d.run turns : Render ω Unit) = e.run turns) (around : Surroundings) (c : Context ω) :
    (around.fill d).render turns c = (around.fill e).render turns c := by
  unfold Document.render
  rw [run_fill_congr h around]

end Pages
end PageTemplate
