import PageTemplate.Context.Capture
import PageTemplate.Proofs.Render.Point

/-! Bindings during a run and after it. Wherever a run is, the bindings that it began with are in
force beneath those of the loops around, one for each loop; where it ends there are no others. -/
namespace PageTemplate

variable {ω : Type} {b b' : Bindings} {names : List Text}

/-! ## Bindings on top of others -/

/-- The bindings of loops over the names on top of `b`, the innermost loop first. -/
inductive Bindings.Over (b : Bindings) : List Text → Bindings → Prop
  | refl : Over b [] b
  | push {names : List Text} {b' : Bindings} (h : Over b names b') (name : Text) (c : Cell) :
      Over b (name :: names) (b'.push name c)

namespace Bindings

theorem Over.exists_push {name : Text} (h : b.Over (name :: names) b') :
    ∃ b₁ c, b.Over names b₁ ∧ b' = b₁.push name c := by
  cases h with
  | push h _ c => exact ⟨_, c, h, rfl⟩

theorem Over.of_eq {b₁ : Bindings} (h : b.Over names b') (he : b₁ = b') : b.Over names b₁ := by
  rwa [he]

/-- The cells of a name are as they were, beneath one cell for each loop over the name. -/
theorem Over.stack (h : b.Over names b') (name : Text) : b.stack name <:+ b'.stack name ∧
    (b'.stack name).length = names.count name + (b.stack name).length := by
  induction h with
  | refl => exact ⟨List.suffix_rfl, by simp⟩
  | @push names b₁ h other c ih =>
    obtain ⟨hsuffix, hlength⟩ := ih
    rw [stack_push]
    by_cases hname : other = name
    · subst hname
      rw [if_pos rfl, List.count_cons_self, List.length_cons, hlength]
      exact ⟨hsuffix.trans (List.suffix_cons c _), by omega⟩
    · rw [if_neg hname, List.count_cons_of_ne hname]
      exact ⟨hsuffix, hlength⟩

end Bindings

/-! ## Steps of a run -/

/-- A step of a loop leaves what is beneath its own cell. -/
theorem Render.over_advance {name : Text} {step : Value} {r r' : Rendering ω}
    (h : advance name step r = .ok () r') (hr : b.Over (name :: names) r.bindings) :
    b.Over (name :: names) r'.bindings := by
  obtain ⟨b₁, c, hover, hpush⟩ := hr.exists_push
  have hfinal := preserves_advance b₁ name step r ⟨c, hpush⟩
  rw [final_of_ok h] at hfinal
  obtain ⟨d, hd⟩ := hfinal
  rw [hd]
  exact hover.push name d

namespace Point

variable [Page ω] {turns : Nat} {p q : Point ω}

theorem Step.over (h : Step turns p q) (hp : b.Over p.scope p.bindings) :
    b.Over q.scope q.bindings := by
  cases h with
  | text h => exact hp.of_eq ((Render.keeps_write _).bindings_of_ok h)
  | echo h => exact hp.of_eq ((Render.keeps_echo _).bindings_of_ok h)
  | enter => exact hp.push _ _
  | leave h =>
    have hkeeps := (Render.keeps_loop (Render.keeps_run _ turns) _ turns).bindings_of_ok h
    exact hp.of_eq hkeeps
  | body => exact hp
  | next hc ho hgt hbody hadvance =>
    have hkeeps := (Render.keeps_run _ turns).bindings_of_ok hbody
    exact Render.over_advance hadvance (hp.of_eq hkeeps)

theorem Reaches.over (h : Reaches turns p q) (hp : b.Over p.scope p.bindings) :
    b.Over q.scope q.bindings := by
  induction h with
  | refl => exact hp
  | tail _ hstep ih => exact hstep.over ih

end Point

/-! ## Restoration -/

/-- However a run ends, the bindings are those that it began with, so a render ends with none. On
the way every name has its cells beneath one cell for each loop over it that the run is in. -/
theorem run_restores [Page ω] (d : Document) (turns : Nat) (r : Rendering ω) :
    ((d.run turns).final r).bindings = r.bindings ∧
    (∀ c : Context ω, ((d.run turns).final ⟨Bindings.empty, c⟩).bindings = Bindings.empty) ∧
    ∀ p, Point.Reaches turns (.nodes [] d r) p → ∀ name,
      r.bindings.stack name <:+ p.bindings.stack name ∧
      (p.bindings.stack name).length = p.scope.count name + (r.bindings.stack name).length := by
  have hkeeps : (d.run turns : Render ω Unit).Keeps := Render.keeps_run d turns
  refine ⟨hkeeps r, fun c => hkeeps ⟨Bindings.empty, c⟩, fun p hp name => ?_⟩
  have hover : r.bindings.Over p.scope p.bindings := hp.over .refl
  exact hover.stack name

/-- After a failure in two loops over one name, the name has the cell that it had before them. -/
theorem run_restores_failure :
    let d : Document := .loop ⟨['i'], .const (.int 1), .const (.int 2), none⟩
      (.loop ⟨['i'], .const (.int 5), .const (.int 6), none⟩
        (.echo [.operand (.var ['i']), .fn ['f']] .nil) .nil) .nil
    let r : Rendering Capture := ⟨⟨[(['i'], ⟨7⟩)]⟩, ⟨⟨.empty, .empty, .empty⟩, .empty⟩⟩
    failure? (d.run 3 r) = some (.failed (.unknownFunction ['f'])) ∧
      ((d.run 3).final r).bindings = ⟨[(['i'], ⟨7⟩)]⟩ := by
  intro d r
  exact ⟨by decide +kernel, (run_restores d 3 r).1⟩

end PageTemplate
