import PageTemplate.Context.Capture
import PageTemplate.Proofs.Document.RoundTrip
import PageTemplate.Proofs.Render.Bindings

/-! Templates one after the other. The sources of two documents in a row are read as the nodes
of both, but for a text at the seam that goes on in the next, and the render of that document
is the render of the first and then, if it succeeds, that of the second. -/
namespace PageTemplate

namespace Document

/-- The nodes of both documents, with a text at the end of the first and one at the start of
the second made into one. -/
def fuse : Document → Document → Document
  | .nil, e => e
  | .text s .nil, .text t e => .text (s ++ t) e
  | .text s d, e => .text s (d.fuse e)
  | .echo es d, e => .echo es (d.fuse e)
  | .loop h inner d, e => .loop h inner (d.fuse e)

theorem writable_fuse {d e : Document} (hd : d.Writable) (he : e.Writable) :
    (d.fuse e).Writable := by
  fun_induction fuse d e with
  | case1 e => exact he
  | case2 s t e => exact ⟨by simp [hd.1], he.2⟩
  | case3 s d e _ ih => exact ⟨hd.1, ih hd.2 he⟩
  | case4 es d e ih => exact ⟨hd.1, ih hd.2 he⟩
  | case5 h inner d e ih => exact ⟨hd.1, hd.2.1, ih hd.2.2 he⟩

theorem depth_fuse (d e : Document) : (d.fuse e).depth = max d.depth e.depth := by
  fun_induction fuse d e with
  | case1 e => simp [depth]
  | case2 s t e => simp [depth]
  | case3 s d e _ ih => simp [depth, ih]
  | case4 es d e ih => simp [depth, ih]
  | case5 h inner d e ih => simp [depth, ih, Nat.max_assoc]

theorem sourceAfter_of_not_text {e : Document} (h : ∀ t r, e ≠ .text t r) :
    e.sourceAfter true = e.sourceAfter false := by
  cases e with
  | nil => rfl
  | text t r => exact absurd rfl (h t r)
  | echo es r => rfl
  | loop h inner r => rfl

/-- The source of a fused document is both sources in a row. The second stands after a text
only where the first has no nodes. -/
theorem sourceAfter_fuse (d e : Document) (afterText : Bool) :
    (d.fuse e).sourceAfter afterText =
      d.sourceAfter afterText ++ e.sourceAfter (afterText && decide (d = .nil)) := by
  fun_induction fuse d e generalizing afterText with
  | case1 e => simp [sourceAfter]
  | case2 s t e => simp [sourceAfter, escapeText]
  | case3 s d e hseam ih =>
    have hsecond : e.sourceAfter (true && decide (d = .nil)) = e.sourceAfter false := by
      by_cases hd : d = .nil
      · simpa [hd] using sourceAfter_of_not_text fun t r he => hseam t r he hd
      · simp [hd]
    simp only [sourceAfter, ih true, hsecond]
    simp
  | case4 es d e ih => simp [sourceAfter, ih false]
  | case5 h inner d e ih => simp [sourceAfter, ih false]

theorem source_fuse (d e : Document) : (d.fuse e).source = d.source ++ e.source :=
  (sourceAfter_fuse d e false).trans rfl

end Document

/-! ## Renders -/

namespace Render

theorem write_append (s t : Text) :
    (write (s ++ t) : Render Capture Unit) = (do write s; write t) := by
  funext r
  have hout : ∀ output : String, output ++ String.ofList (s ++ t) =
      output ++ String.ofList s ++ String.ofList t := by
    intro output
    rw [String.ofList_append, String.append_assoc]
  change EStateM.Result.ok () _ = EStateM.Result.ok () _
  simp only [hout]

end Render

namespace Document

/-- A fused document runs as the two do one after the other. -/
theorem run_fuse (d e : Document) (turns : Nat) :
    ((d.fuse e).run turns : Render Capture Unit) = (do d.run turns; e.run turns) := by
  fun_induction fuse d e with
  | case1 e => rfl
  | case2 s t e => simp [run, Render.write_append]
  | case3 s d e _ ih => simp [run, ih]
  | case4 es d e ih => simp [run, ih]
  | case5 h inner d e ih => simp [run, ih]

theorem render_fuse (d e : Document) (turns : Nat) (c : Context Capture) :
    (d.fuse e).render turns c =
      match d.render turns c with
      | .ok _ c' => e.render turns c'
      | .error err c' => .error err c' := by
  have hkeeps := Render.keeps_run d turns ⟨Bindings.empty, c⟩
  unfold render
  rw [run_fuse]
  cases hd : d.run turns ⟨Bindings.empty, c⟩ with
  | ok a r =>
    obtain ⟨bindings, context⟩ := r
    rw [Render.final_of_ok hd] at hkeeps
    obtain rfl : bindings = Bindings.empty := hkeeps
    rw [bind_of_ok hd]
  | error err r => rw [bind_of_error hd]

end Document

/-- Two templates that are read, written one after the other, are read, and the render is that
of the first and then, only if it succeeds, that of the second where the first ended. -/
theorem render_of_source_append {s t : Text} {d e : Document} (hs : parse s = .ok d)
    (ht : parse t = .ok e) :
    ∃ f, parse (d.source ++ e.source) = .ok f ∧
      ∀ (turns : Nat) (c : Context Capture), f.render turns c =
        match d.render turns c with
        | .ok _ c' => e.render turns c'
        | .error err c' => .error err c' := by
  obtain ⟨hd, hdepth⟩ := writable_of_parse hs
  obtain ⟨he, hedepth⟩ := writable_of_parse ht
  refine ⟨d.fuse e, ?_, d.render_fuse e⟩
  rw [← Document.source_fuse]
  refine parse_of_writable (Document.writable_fuse hd he) ?_
  rw [Document.depth_fuse]
  exact Nat.max_le.2 ⟨hdepth, hedepth⟩

theorem render_of_source_append_brace :
    ∃ d e, parse "\x7b$= 1 $\x7da\\\x7b".toList = .ok d ∧ parse "$\x7b$= 2".toList = .ok e ∧
      ∃ f, parse (d.source ++ e.source) = .ok f ∧
        ∀ (turns : Nat) (c : Context Capture), f.render turns c =
          match d.render turns c with
          | .ok _ c' => e.render turns c'
          | .error err c' => .error err c' := by
  have hs : parse "\x7b$= 1 $\x7da\\\x7b".toList =
      .ok (.echo [.operand (.const (.int 1))] <| .text ['a', '{'] .nil) := by
    decide +kernel
  have ht : parse "$\x7b$= 2".toList =
      .ok (.text ['$'] <| .echo [.operand (.const (.int 2))] .nil) := by
    decide +kernel
  exact ⟨_, _, hs, ht, render_of_source_append hs ht⟩

end PageTemplate
