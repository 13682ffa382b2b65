import PageTemplate.Document.Builder
import PageTemplate.Proofs.Source.Scanner

/-! The reading of a document from a scanner. Each token is added to the document as it is handed
out, so that nothing is asked of the scanner behind the first bad tag. -/
namespace PageTemplate

namespace Builder

/-- Adds what a scanner hands out, up to its end or to the first thing that is wrong. -/
def addFrom (b : Builder) (s : Scanner) : Except ParseError Document :=
  match _h : s.next with
  | (.error e, _) => .error (.scan e)
  | (.ok none, _) => b.finish
  | (.ok (some t), s') =>
    match b.add t with
    | .error e => .error e
    | .ok b => b.addFrom s'
termination_by s.stepsLeft
decreasing_by exact Scanner.stepsLeft_lt_of_next ‹_›

/-- Adds the tokens of a reading; a bad escape counts after them. -/
def addScan (b : Builder) (s : Scan) : Except ParseError Document := do
  let b ← b.addAll s.tokens
  match s.fault with
  | some e => .error (.scan e)
  | none => b.finish

theorem addScan_after (b : Builder) (t : Token) (s : Scan) :
    b.addScan (.after [t] s) = (b.add t).bind (·.addScan s) := by
  change ((b.add t).bind fun b => b.addAll s.tokens).bind _ = _
  cases b.add t <;> rfl

/-- Adding tokens one by one is adding those of the reading that is left. -/
theorem addFrom_eq (b : Builder) (s : Scanner) : b.addFrom s = b.addScan s.scan := by
  have hnext := s.next_eq
  fun_induction addFrom b s with
  | case1 b s e s' hs =>
    rw [hs] at hnext
    rw [Scan.eq_of_first_error hnext.1.symm]
    rfl
  | case2 b s s' hs =>
    rw [hs] at hnext
    rw [Scan.eq_of_first_end hnext.1.symm]
    rfl
  | case3 b s t s' hs e hadd =>
    rw [hs] at hnext
    rw [Scan.eq_of_first_token hnext.1.symm, addScan_after, hadd]
    rfl
  | case4 b s t s' hs b' hadd ih =>
    rw [hs] at hnext
    rw [ih s'.next_eq, hnext.2, Scan.eq_of_first_token hnext.1.symm, addScan_after, hadd]
    rfl

end Builder

/-- A template is read token by token, and the first bad tag or escape ends the reading. -/
theorem parse_eq_addFrom (source : Text) :
    parse source = Builder.empty.addFrom (.ofSource source) := by
  rw [Builder.addFrom_eq, Scanner.scan_ofSource]
  rfl

end PageTemplate
