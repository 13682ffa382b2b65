import PageTemplate.Context.Capture
import PageTemplate.Document.Builder
import PageTemplate.Proofs.Number.Nearest
import PageTemplate.Proofs.Render.Substitution

/-! Loops written out. A loop from one integer to another renders like the copies of what it
repeats, one for each value of its variable, with the value in the place of the variable. -/
namespace PageTemplate

/-! ## The values of a loop -/

/-- The integers `a`, `a + s`, `a + 2 * s` and so on, up to the last that is not past `b`. -/
def loopValues (a b s : Int) : List Int :=
  (List.range ((b - a) / s + 1).toNat).map fun k : Nat => a + s * (k : Int)

theorem loopValues_of_lt {a b s : Int} (hs : 0 < s) (h : b < a) : loopValues a b s = [] := by
  have hneg : (b - a) / s < 0 := Int.ediv_neg_of_neg_of_pos (by omega) hs
  have hzero : ((b - a) / s + 1).toNat = 0 := by omega
  simp [loopValues, hzero]

theorem loopValues_of_le {a b s : Int} (hs : 0 < s) (h : a ≤ b) :
    loopValues a b s = a :: loopValues (a + s) b s := by
  have hnonneg : 0 ≤ (b - a) / s := Int.ediv_nonneg (by omega) hs.le
  have hnext : (b - (a + s)) / s = (b - a) / s - 1 := by
    rw [show b - (a + s) = b - a + s * -1 by ring, Int.add_mul_ediv_left _ _ hs.ne']
    ring
  have hcount : ((b - a) / s + 1).toNat = ((b - (a + s)) / s + 1).toNat + 1 := by omega
  unfold loopValues
  rw [hcount, List.range_succ_eq_map, List.map_cons, List.map_map]
  congr 1
  · simp
  · refine List.map_congr_left fun k _ => ?_
    simp only [Function.comp_apply, Nat.cast_succ]
    ring

theorem length_loopValues_le {a b s : Int} (hs : 0 < s) :
    (loopValues a b s).length ≤ (b - a + 1).toNat := by
  have hle : (b - a) / s + 1 ≤ max 0 (b - a + 1) := by
    rcases le_or_gt 0 (b - a) with h | h
    · have := Int.ediv_le_self s h
      omega
    · have := Int.ediv_neg_of_neg_of_pos h hs
      omega
  simp only [loopValues, List.length_map, List.length_range]
  omega

/-- The values of a loop between literals; without a step the variable goes up by one. -/
def literalValues (a b : Int64) (step : Option Int64) : List Int :=
  loopValues a.toInt b.toInt (step.getD 1).toInt

/-! ## Copies -/

def intLiteral (n : Int) : Operand := .const (.int (Int64.ofInt n))

/-- Copies of a document, one for each value, with the value in the place of the name; then the
nodes that follow. -/
def Document.copies (name : Text) (inner rest : Document) : List Int → Document
  | [] => rest
  | n :: values => inner.subst name (intLiteral n) ++ inner.copies name rest values

/-- A loop from one integer literal to another. -/
def LoopHead.ofLiterals (name : Text) (a b : Int64) (step : Option Int64) : LoopHead :=
  ⟨name, .const (.int a), .const (.int b), step.map fun s => .const (.int s)⟩

theorem Document.copies_eq_append (name : Text) (inner rest : Document) (values : List Int) :
    inner.copies name rest values = inner.copies name .nil values ++ rest := by
  induction values with
  | nil => rfl
  | cons n values ih => simp only [copies, ih, append_assoc]

variable {ω : Type} [Page ω]

theorem Document.run_append (d e : Document) (turns : Nat) :
    ((d ++ e).run turns : Render ω Unit) = (do d.run turns; e.run turns) := by
  induction d with
  | nil => rfl
  | text s rest ih => simp [run, ih]
  | echo es rest ih => simp [run, ih]
  | loop h inner rest _ ih => simp [run, ih]

/-! ## Turns -/

namespace Render

variable {name : Text} {a b : Int64} {step : Option Int64} {inner : Document} {turns : Nat}

theorem agree_literal (β : Bindings) (name : Text) {n : Int} (hn : n.natAbs < 2 ^ 53)
    (names : List Text) :
    Bindings.Agree name (intLiteral n) names (β.push name ⟨Float.ofInt n⟩) β := by
  refine ⟨?_, fun x _ hne => Bindings.peek_push_of_ne _ _ (Ne.symm hne)⟩
  simp only [Operand.value?, intLiteral, Bindings.peek_push, Cell.value_ofInt hn]

/-- The turns from a value on are the copies for this value and those after it. -/
theorem outcome_turns {s : Int64} (hb : b.toInt.natAbs ≤ 2 ^ 51) (hs : 1 ≤ s.toInt)
    (hs' : s.toInt ≤ 2 ^ 51) (β : Bindings) {left : Nat} {i : Int} (hi : -(2 ^ 51) ≤ i)
    (hi' : i ≤ 2 ^ 52) (hleft : (loopValues i b.toInt s.toInt).length < left) (c : Context ω) :
    outcome (iterate name (.int b) (.int s) (inner.run turns) left)
        (β.push name ⟨Float.ofInt i⟩) c =
      outcome ((inner.copies name .nil (loopValues i b.toInt s.toInt)).run turns) β c := by
  induction left generalizing i c with
  | zero => exact absurd hleft (Nat.not_lt_zero _)
  | succ left ih =>
    have ho := Cell.compare_ofInt (i := i) (n := b) (by omega) (by omega)
    rcases le_or_gt i b.toInt with h | h
    · have hvalues := loopValues_of_le (by omega : 0 < s.toInt) h
      have hgt : Ord.compare i b.toInt ≠ .gt := by
        rw [ne_eq, Int.compare_eq_gt]
        omega
      rw [hvalues] at hleft ⊢
      have hbody : Alike (β.push name ⟨Float.ofInt i⟩) β (inner.run turns : Render ω Unit)
          ((inner.subst name (intLiteral i)).run turns) :=
        alike_subst (fun x _ he => Operand.noConfusion he) (agree_literal β name (by omega) _) turns
      have hc := hbody c
      rw [outcome_iterate_of_turn ho hgt, Document.copies, Document.run_append]
      cases hout : outcome ((inner.subst name (intLiteral i)).run turns) β c with
      | error e c' =>
        rw [hout] at hc
        rw [outcome_bind_of_error _ hc, outcome_bind_of_error _ hout]
      | ok u c' =>
        rw [hout] at hc
        have hadd := Cell.add_ofInt (i := i) (n := s) (by omega) (by omega) (by omega)
        rw [outcome_turn_of_ok (keeps_run _ _) hc hadd, outcome_bind_of_ok (keeps_run _ _) _ hout]
        exact ih (by omega) (by omega) (by simpa using hleft) c'
    · have hvalues := loopValues_of_lt (by omega : 0 < s.toInt) h
      rw [Int.compare_eq_gt.2 h] at ho
      rw [outcome_iterate_of_gt ho, hvalues]
      rfl

theorem loop_unroll (ha : a.toInt.natAbs ≤ 2 ^ 51) (hb : b.toInt.natAbs ≤ 2 ^ 51)
    (hs : 1 ≤ (step.getD 1).toInt) (hs' : (step.getD 1).toInt ≤ 2 ^ 51)
    (hturns : (literalValues a b step).length < turns) :
    (loop (.ofLiterals name a b step) (inner.run turns) turns : Render ω Unit) =
      (inner.copies name .nil (literalValues a b step)).run turns := by
  refine Keeps.ext (keeps_loop (keeps_run _ _) _ _) (keeps_run _ _) fun β c => ?_
  have hstep : (LoopHead.ofLiterals name a b step).stepValue? β = .ok (.int (step.getD 1)) := by
    cases step <;> rfl
  unfold literalValues at hturns ⊢
  rw [← outcome_turns hb hs hs' β (by omega) (by omega) hturns, ← outcome_withBinding]
  unfold outcome
  rw [loop_of_head (r := ⟨β, c⟩) rfl rfl hstep rfl]
  rfl

end Render

/-- Unrolling. A loop between integer literals of at most `2 ^ 51` with a step of at least one
runs, whatever is bound around it, like the copies of its body for its values, and a document
renders the same with the copies in the place of the loop. The turns that a loop is allowed must
be more than it has values; those of a program are. -/
theorem render_unroll (name : Text) (inner rest : Document) (a b : Int64) (step : Option Int64)
    (ha : a.toInt.natAbs ≤ 2 ^ 51) (hb : b.toInt.natAbs ≤ 2 ^ 51)
    (hs : 1 ≤ (step.getD 1).toInt) (hs' : (step.getD 1).toInt ≤ 2 ^ 51) :
    (literalValues a b step).length < turnLimit ∧
    ∀ turns, (literalValues a b step).length < turns →
      (∀ r : Rendering ω, (Document.loop (.ofLiterals name a b step) inner rest).run turns r =
        (inner.copies name rest (literalValues a b step)).run turns r) ∧
      ∀ (around : Surroundings) (c : Context ω),
        (around.fill (.loop (.ofLiterals name a b step) inner rest)).render turns c =
          (around.fill (inner.copies name rest (literalValues a b step))).render turns c := by
  constructor
  · have hlength := length_loopValues_le (a := a.toInt) (b := b.toInt)
      (by omega : 0 < (step.getD 1).toInt)
    unfold turnLimit literalValues
    omega
  · intro turns hturns
    have hrun : ((Document.loop (.ofLiterals name a b step) inner rest).run turns : Render ω Unit) =
        (inner.copies name rest (literalValues a b step)).run turns := by
      rw [Document.copies_eq_append, Document.run_append, ← Render.loop_unroll ha hb hs hs' hturns]
      rfl
    exact ⟨fun r => congrFun hrun r, fun around c => around.render_fill_congr hrun c⟩

theorem render_unroll_shadowed :
    ∃ d e,
      parse ("\x7b$FOR i -1 4 2$\x7d".toList ++
        "\x7b$FOR i i 1$\x7d\x7b$=i$\x7d\x7b$END$\x7d\x7b$=i$\x7d".toList ++
        "\x7b$END$\x7d".toList) = .ok d ∧
      parse ("\x7b$FOR i -1 1$\x7d\x7b$=i$\x7d\x7b$END$\x7d\x7b$=-1$\x7d".toList ++
        "\x7b$FOR i 1 1$\x7d\x7b$=i$\x7d\x7b$END$\x7d\x7b$=1$\x7d".toList ++
        "\x7b$FOR i 3 1$\x7d\x7b$=i$\x7d\x7b$END$\x7d\x7b$=3$\x7d".toList) = .ok e ∧
      ∀ c : Context Capture, d.render turnLimit c = e.render turnLimit c := by
  obtain ⟨hlimit, hunroll⟩ := render_unroll (ω := Capture) ['i']
    (.loop ⟨['i'], .var ['i'], .const (.int 1), none⟩ (.echo [.operand (.var ['i'])] .nil)
      (.echo [.operand (.var ['i'])] .nil)) .nil (-1) 4 (some 2)
    (by decide) (by decide) (by decide) (by decide)
  exact ⟨_, _, by decide +kernel, by decide +kernel, (hunroll turnLimit hlimit).2 .none⟩

end PageTemplate
