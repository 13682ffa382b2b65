import PageTemplate.Source.Scan

/-! A scanner that is asked for one token at a time. It goes over the template character by
character and keeps what the run says so far from call to call. A token that ends at a delimiter is
handed out before the delimiter is read; at a bad escape and at the end of the template the scanner
stays where it is. -/
namespace PageTemplate

/-- What a scanner is in the middle of. What the run says so far is kept in reverse. -/
inductive Phase
  | start
  | within (mode : Mode) (said : Text)
deriving DecidableEq

/-- What a scanner is in the middle of, how many characters it has read, and those that are left. -/
structure Scanner where
  phase : Phase
  offset : Nat
  rest : Text
deriving DecidableEq

/-- What a scanner does next. -/
inductive Move
  | on (s : Scanner)
  | answer (a : Except ScanError (Option Token)) (s : Scanner)

/-- What follows the delimiter that ends a run. -/
def Mode.afterEnd? : Mode → Text → Option Text
  | .text => Delimiter.afterOpening?
  | .tag => Delimiter.afterClosing?

theorem Mode.length_of_afterEnd? {mode : Mode} {s rest : Text}
    (h : mode.afterEnd? s = some rest) : rest.length + 2 ≤ s.length := by
  cases mode with
  | text => exact Delimiter.after?_length h
  | tag => exact Delimiter.after?_length h

namespace Scanner

def ofSource (source : Text) : Scanner := ⟨.start, 0, source⟩

/-- Goes on by `n` characters. -/
def advance (s : Scanner) (n : Nat) (phase : Phase) (rest : Text) : Move :=
  .on ⟨phase, s.offset + n, rest⟩

/-- Reads a delimiter; a run begins behind it. -/
def cross (s : Scanner) (mode : Mode) (rest : Text) : Move :=
  s.advance (s.rest.length - rest.length) (.within mode []) rest

/-- Hands out what the run says. -/
def flush (s : Scanner) (mode : Mode) (said : Text) : Move :=
  .answer (.ok (some (mode.token said.reverse))) { s with phase := .within mode [] }

def step (s : Scanner) : Move :=
  match s.phase with
  | .start =>
    if s.rest = [] then .answer (.ok none) s
    else
      match Mode.text.afterEnd? s.rest with
      | some rest => s.cross .tag rest
      | none => .on { s with phase := .within .text [] }
  | .within mode said =>
    match s.rest with
    | [] => if said = [] then .answer (.ok none) s else s.flush mode said
    | c :: more =>
      match mode.afterEnd? (c :: more) with
      | some rest => if said = [] then s.cross mode.other rest else s.flush mode said
      | none =>
        if mode = .text ∧ c = '\\' then
          match more with
          | [] => .answer (.error ⟨s.offset, none⟩) s
          | d :: more =>
            if d = '{' ∨ d = '\\' then s.advance 2 (.within mode (d :: said)) more
            else .answer (.error ⟨s.offset, some d⟩) s
        else s.advance 1 (.within mode (c :: said)) more

/-- A bound on the steps that are left; what was said still has to be handed out. -/
def stepsLeft (s : Scanner) : Nat :=
  2 * s.rest.length + match s.phase with
    | .start => 1
    | .within _ said => said.length

theorem stepsLeft_lt_of_on {s s' : Scanner} (h : s.step = .on s') :
    s'.stepsLeft < s.stepsLeft := by
  revert h
  fun_cases step s with
  | case2 hphase hrest rest hend =>
    intro h
    have hlength := Mode.length_of_afterEnd? hend
    cases h
    simp only [stepsLeft, hphase, List.length_nil]
    omega
  | case3 hphase hrest hend =>
    intro h
    cases h
    simp [stepsLeft, hphase]
  | case6 mode c more hrest rest hend hphase =>
    intro h
    have hlength := Mode.length_of_afterEnd? hend
    cases h
    simp only [stepsLeft, hphase, hrest, List.length_nil]
    omega
  | case9 mode said hphase c hc d more hd hrest hend =>
    intro h
    cases h
    simp only [stepsLeft, hphase, hrest, List.length_cons]
    omega
  | case11 mode said hphase c more hrest hend hc =>
    intro h
    cases h
    simp only [stepsLeft, hphase, hrest, List.length_cons]
    omega
  | _ => exact nofun

theorem stepsLeft_lt_of_token {s s' : Scanner} {t : Token}
    (h : s.step = .answer (.ok (some t)) s') : s'.stepsLeft < s.stepsLeft := by
  revert h
  fun_cases step s with
  | case5 mode said hphase hrest hsaid =>
    intro h
    have hlength := List.length_pos_iff.2 hsaid
    cases h
    simp only [stepsLeft, hphase, List.length_nil]
    omega
  | case7 mode said hphase c more hrest rest hend hsaid =>
    intro h
    have hlength := List.length_pos_iff.2 hsaid
    cases h
    simp only [stepsLeft, hphase, List.length_nil]
    omega
  | _ => exact nofun

/-- The next token, `none` at the end. -/
def next (s : Scanner) : Except ScanError (Option Token) × Scanner :=
  match _h : s.step with
  | .on s' => next s'
  | .answer a s' => (a, s')
termination_by s.stepsLeft
decreasing_by exact stepsLeft_lt_of_on ‹_›

theorem stepsLeft_lt_of_next {s s' : Scanner} {t : Token} (h : s.next = (.ok (some t), s')) :
    s'.stepsLeft < s.stepsLeft := by
  fun_induction next s with
  | case1 s s₁ hstep ih => exact Nat.lt_trans (ih h) (stepsLeft_lt_of_on hstep)
  | case2 s a s₁ hstep =>
    cases h
    exact stepsLeft_lt_of_token hstep

/-- All tokens to the end, or the first error. -/
def tokens (s : Scanner) : Except ScanError (List Token) :=
  match _h : s.next with
  | (.error e, _) => .error e
  | (.ok none, _) => .ok []
  | (.ok (some t), s') => (tokens s').map (t :: ·)
termination_by s.stepsLeft
decreasing_by exact stepsLeft_lt_of_next ‹_›

/-- The answers to the first `n` calls. -/
def answers : Nat → Scanner → List (Except ScanError (Option Token))
  | 0, _ => []
  | n + 1, s => s.next.1 :: answers n s.next.2

/-- An answer as an item of a sequence, which stops at the end of the template. -/
def item : Except ScanError (Option Token) → Option (Except ScanError Token)
  | .ok none => none
  | .ok (some t) => some (.ok t)
  | .error e => some (.error e)

def nextItem (s : Scanner) : Option (Except ScanError Token) × Scanner :=
  (item s.next.1, s.next.2)

/-- The first `n` items. -/
def items : Nat → Scanner → List (Option (Except ScanError Token))
  | 0, _ => []
  | n + 1, s => s.nextItem.1 :: items n s.nextItem.2

end Scanner
end PageTemplate
