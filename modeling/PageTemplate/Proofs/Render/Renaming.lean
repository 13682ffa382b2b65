import Mathlib.Control.Monad.Basic
import PageTemplate.Context.Capture
import PageTemplate.Document.Builder
import PageTemplate.Proofs.Render.Substitution

/-! Loops over other names. The name of a loop's variable is free to choose, as long as it does
not occur in what the loop repeats. -/
namespace PageTemplate

variable {ω : Type} [Page ω]

/-- The loop over another variable. Its head is evaluated outside the loop and stays as it is. -/
def LoopHead.rename (h : LoopHead) (name : Text) : LoopHead := { h with name := name }

namespace Render

/-- A body finds in the cell of the new variable what it found in that of the old one. -/
theorem agree_push_push (b : Bindings) {name new : Text} {names : List Text} (h : new ∉ names)
    (c : Cell) :
    Bindings.Agree name (.var new) names (b.push name c) (b.push new c) := by
  refine ⟨?_, fun x hx hne => ?_⟩
  · simp only [Operand.value?, Bindings.peek_push]
  · have hnew : new ≠ x := fun he => h (he ▸ hx)
    rw [Bindings.peek_push_of_ne _ _ (Ne.symm hne), Bindings.peek_push_of_ne _ _ hnew]

theorem loop_rename (h : LoopHead) {new : Text} {inner : Document} (hnew : new ∉ inner.names)
    (turns : Nat) :
    (loop h (inner.run turns) turns : Render ω Unit) =
      loop (h.rename new) ((inner.subst h.name (.var new)).run turns) turns := by
  have hkeeps : ∀ d : Document, (d.run turns : Render ω Unit).Keeps := fun d => keeps_run d turns
  refine Keeps.ext (keeps_loop (hkeeps _) _ _) (keeps_loop (hkeeps _) _ _) fun b => ?_
  apply alike_loop (hkeeps _) (hkeeps _)
  · rfl
  · rfl
  · rfl
  · intro cell
    refine alike_subst (fun x hx he => ?_) (agree_push_push b hnew cell) turns
    -- the new name is no name in the body
    exact absurd (Operand.var.inj he ▸ hx) hnew

end Render

/-- Renaming. A loop in a document, wherever it is, may be over any name that does not occur in
what it repeats, with the references to its variable renamed, and every render ends the same
way. -/
theorem render_rename (around : Surroundings) (h : LoopHead) {new : Text} {inner : Document}
    (hnew : new ∉ inner.names) (rest : Document) (turns : Nat) (c : Context ω) :
    (around.fill (.loop h inner rest)).render turns c =
      (around.fill (.loop (h.rename new) (inner.subst h.name (.var new)) rest)).render turns c := by
  refine around.render_fill_congr ?_ c
  simp only [Document.run, Render.loop_rename h hnew turns]

/-- The loop around is over the new name, and the loop inside over the old one. -/
theorem render_rename_outer :
    ∃ d e,
      parse ("\x7b$FOR j 1 2$\x7d\x7b$FOR i 1 3$\x7d".toList ++
        "\x7b$FOR i i 2$\x7d\x7b$=i$\x7d\x7b$END$\x7d\x7b$= i k$\x7d".toList ++
        "\x7b$END$\x7d\x7b$END$\x7d".toList) = .ok d ∧
      parse ("\x7b$FOR j 1 2$\x7d\x7b$FOR j 1 3$\x7d".toList ++
        "\x7b$FOR i j 2$\x7d\x7b$=i$\x7d\x7b$END$\x7d\x7b$= j k$\x7d".toList ++
        "\x7b$END$\x7d\x7b$END$\x7d".toList) = .ok e ∧
      ['j'] ∉ Document.names (.loop ⟨['i'], .var ['i'], .const (.int 2), none⟩
        (.echo [.operand (.var ['i'])] .nil)
        (.echo [.operand (.var ['i']), .operand (.var ['k'])] .nil)) ∧
      ∀ (turns : Nat) (c : Context Capture), d.render turns c = e.render turns c := by
  have hnew : ['j'] ∉ Document.names (.loop ⟨['i'], .var ['i'], .const (.int 2), none⟩
      (.echo [.operand (.var ['i'])] .nil)
      (.echo [.operand (.var ['i']), .operand (.var ['k'])] .nil)) := by decide
  exact ⟨_, _, by decide +kernel, by decide +kernel, hnew, render_rename
    (.inside ⟨['j'], .const (.int 1), .const (.int 2), none⟩ .none .nil)
    ⟨['i'], .const (.int 1), .const (.int 3), none⟩ hnew .nil⟩

end PageTemplate
