import PageTemplate.Proofs.Render.Point

/-! The bound on the turns of a loop. It only cuts a render short: one that does not run out of
turns is the same with any larger bound. -/
namespace PageTemplate

variable {ω α β : Type}

namespace Render

/-- A computation that does what another does, unless it runs out of turns. -/
def Within (m n : Render ω α) : Prop := ∀ r, m r = n r ∨ ∃ r', m r = .error .outOfTurns r'

variable {m n : Render ω α} {body body' : Render ω Unit} {turns turns' left left' : Nat}

theorem within_refl (m : Render ω α) : m.Within m := fun _ => .inl rfl

theorem Within.bind {f g : α → Render ω β} (hm : m.Within n) (hf : ∀ a, (f a).Within (g a)) :
    (m >>= f).Within (n >>= g) := by
  intro r
  rcases hm r with h | ⟨r', h⟩
  · cases hn : n r with
    | ok a r₁ =>
      rw [bind_of_ok (h.trans hn), bind_of_ok hn]
      exact hf a r₁
    | error e r₁ =>
      rw [bind_of_error (h.trans hn), bind_of_error hn]
      exact .inl rfl
  · exact .inr ⟨r', bind_of_error h f⟩

theorem Within.withBinding (hm : m.Within n) (name : Text) (c : Cell) :
    (withBinding name c m).Within (withBinding name c n) := by
  rintro ⟨b, context⟩
  unfold Render.withBinding
  dsimp only
  rcases hm ⟨b.push name c, context⟩ with h | ⟨r', h⟩
  · exact .inl (by rw [h])
  · exact .inr ⟨_, by rw [h]⟩

theorem Within.iterate (hbody : body.Within body') (name : Text) (stop step : Value)
    (hle : left ≤ left') :
    (iterate name stop step body left).Within (iterate name stop step body' left') := by
  induction left generalizing left' with
  | zero => exact fun r => .inr ⟨r, rfl⟩
  | succ left ih =>
    obtain ⟨left', rfl⟩ := Nat.exists_eq_succ_of_ne_zero (by omega : left' ≠ 0)
    refine (within_refl _).bind fun c => (within_refl _).bind fun order => ?_
    cases order with
    | gt => exact within_refl _
    | lt | eq =>
      exact hbody.bind fun _ => (within_refl _).bind fun _ => ih (Nat.le_of_succ_le_succ hle)

theorem Within.loop (hbody : body.Within body') (h : LoopHead) (hle : turns ≤ turns') :
    (loop h body turns).Within (loop h body' turns') := by
  rw [loop_eq, loop_eq]
  refine (within_refl _).bind fun start => (within_refl _).bind fun stop =>
    (within_refl _).bind fun step => (within_refl _).bind fun c => ?_
  exact (hbody.iterate h.name stop step hle).withBinding h.name c

theorem within_run [Page ω] (d : Document) (hle : turns ≤ turns') :
    (d.run turns : Render ω Unit).Within (d.run turns') := by
  induction d with
  | nil => exact within_refl _
  | text s rest ih => exact (within_refl _).bind fun _ => ih
  | echo es rest ih => exact (within_refl _).bind fun _ => ih
  | loop h inner rest ihInner ihRest => exact (ihInner.loop h hle).bind fun _ => ihRest

end Render

/-- A render that does not run out of turns is the same with more of them. -/
theorem Document.render_of_le [Page ω] {turns turns' : Nat} (d : Document) (hle : turns ≤ turns')
    {c : Context ω} (h : failure? (d.render turns c) ≠ some .outOfTurns) :
    d.render turns' c = d.render turns c := by
  have hrun : d.run turns ⟨Bindings.empty, c⟩ = d.run turns' ⟨Bindings.empty, c⟩ := by
    refine (Render.within_run d hle ⟨Bindings.empty, c⟩).resolve_right ?_
    rintro ⟨r', hturns⟩
    refine h ?_
    unfold render
    rw [hturns]
    rfl
  unfold render
  rw [hrun]

end PageTemplate
