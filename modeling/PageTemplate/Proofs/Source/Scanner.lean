import PageTemplate.Source.Scanner

/-! What a scanner hands out. However often it is asked, it gives the tokens of the whole
reading one after another, and from then on how that reading ended. -/
namespace PageTemplate

/-! ## Runs -/

namespace TokenRun

theorem text_backslash : text ['\\'] = ⟨[], ['\\'], .badEscape none⟩ := by
  rw [text, textFrom.eq_def]
  simp [Delimiter.afterOpening?, Delimiter.after?_eq_none_of_ne]

theorem text_badEscape {d : Char} (s : Text) (h : ¬(d = '{' ∨ d = '\\')) :
    text ('\\' :: d :: s) = ⟨[], '\\' :: d :: s, .badEscape (some d)⟩ := by
  rw [text, textFrom.eq_def]
  simp [Delimiter.afterOpening?, Delimiter.after?_eq_none_of_ne, h]

theorem prepend_prepend (said more : Text) (r : TokenRun) :
    prepend said (prepend more r) = prepend (more ++ said) r := by
  simp [prepend]

end TokenRun

namespace Mode

variable {mode : Mode} {s rest : Text} {c : Char}

theorem run_nil : mode.run [] = ⟨[], [], .finished⟩ := by
  cases mode with
  | text => exact TokenRun.text_nil
  | tag => exact TokenRun.tag_nil

theorem run_of_end (h : mode.afterEnd? s = some rest) :
    mode.run s = ⟨[], s, .delimiter rest⟩ := by
  cases mode with
  | text => exact TokenRun.text_of_opening h
  | tag => exact TokenRun.tag_of_closing h

theorem run_char (h : mode.afterEnd? (c :: s) = none) (hc : ¬(mode = .text ∧ c = '\\')) :
    mode.run (c :: s) = TokenRun.prepend [c] (mode.run s) := by
  cases mode with
  | text => exact TokenRun.text_cons h fun he => hc ⟨rfl, he⟩
  | tag => exact TokenRun.tag_cons h

end Mode

/-! ## Readings -/

namespace Scan

variable {size : Nat} {mode : Mode} {s : Text}

/-- Tokens before those of a scan. -/
def after (ts : List Token) (s : Scan) : Scan := { s with tokens := ts ++ s.tokens }

theorem after_append (ts us : List Token) (s : Scan) :
    after (ts ++ us) s = after ts (after us s) := by
  simp [after]

theorem emit_of_ne_nil {content : Text} (h : content ≠ []) (s : Scan) :
    emit mode content s = after [mode.token content] s := by
  rw [emit, if_neg h]
  rfl

/-- A reading goes by where its first run ends. -/
theorem ofRest_eq (size : Nat) (mode : Mode) (s : Text) :
    ofRest size mode s =
      match (mode.run s).stop with
      | .finished => emit mode (mode.run s).content ⟨[], none⟩
      | .badEscape c => ⟨[], some ⟨size - (mode.run s).rest.length, c⟩⟩
      | .delimiter rest => emit mode (mode.run s).content (ofRest size mode.other rest) := by
  rw [ofRest]
  split <;> simp_all

variable (mode) in
theorem ofRest_of_delimiter {content here rest : Text}
    (h : mode.run s = ⟨content, here, .delimiter rest⟩) :
    ofRest size mode s = emit mode content (ofRest size mode.other rest) := by
  rw [ofRest_eq, h]

variable (mode) in
theorem ofRest_of_finished {content here : Text}
    (h : mode.run s = ⟨content, here, .finished⟩) :
    ofRest size mode s = emit mode content ⟨[], none⟩ := by
  rw [ofRest_eq, h]

/-- What is handed out once there are no tokens left. -/
def last (s : Scan) : Except ScanError (Option Token) :=
  match s.fault with
  | some e => .error e
  | none => .ok none

/-- What is handed out first. -/
def first (s : Scan) : Except ScanError (Option Token) :=
  match s.tokens with
  | [] => s.last
  | t :: _ => .ok (some t)

/-- What is left after that. -/
def tail (s : Scan) : Scan := { s with tokens := s.tokens.tail }

/-- A reading without tokens is not used up. -/
theorem first_and_tail_of_last {s : Scan} {fault : Option ScanError} (h : s = ⟨[], fault⟩) :
    (⟨[], fault⟩ : Scan).last = s.first ∧ s = s.tail := by
  subst h
  exact ⟨rfl, rfl⟩

theorem eq_of_first_error {s : Scan} {e : ScanError} (h : s.first = .error e) :
    s = ⟨[], some e⟩ := by
  obtain ⟨_ | ⟨t, ts⟩, _ | fault⟩ := s <;> simp_all [first, last]

theorem eq_of_first_end {s : Scan} (h : s.first = .ok none) : s = ⟨[], none⟩ := by
  obtain ⟨_ | ⟨t, ts⟩, _ | fault⟩ := s <;> simp_all [first, last]

theorem eq_of_first_token {s : Scan} {t : Token} (h : s.first = .ok (some t)) :
    s = after [t] s.tail := by
  obtain ⟨_ | ⟨t, ts⟩, _ | fault⟩ := s <;> simp_all [first, last, tail, after]

end Scan

/-! ## Readings that were begun -/

namespace Scan

/-- The reading of the rest of a template when the run has said something, in reverse, before. -/
def resume (size : Nat) (mode : Mode) (said s : Text) : Scan :=
  let r := TokenRun.prepend said (mode.run s)
  match r.stop with
  | .finished => emit mode r.content ⟨[], none⟩
  | .badEscape c => ⟨[], some ⟨size - r.rest.length, c⟩⟩
  | .delimiter rest => emit mode r.content (ofRest size mode.other rest)

variable {size : Nat} {mode : Mode} {s rest : Text} {c : Char}

theorem resume_begin (size : Nat) (mode : Mode) (s : Text) :
    resume size mode [] s = ofRest size mode s := by
  rw [ofRest_eq]
  rfl

theorem resume_nil (size : Nat) (mode : Mode) (said : Text) :
    resume size mode said [] = emit mode said.reverse ⟨[], none⟩ := by
  simp [resume, Mode.run_nil, TokenRun.prepend]

theorem resume_of_end (said : Text) (h : mode.afterEnd? s = some rest) :
    resume size mode said s = emit mode said.reverse (resume size mode.other [] rest) := by
  rw [resume_begin]
  simp [resume, Mode.run_of_end h, TokenRun.prepend]

/-- Where the run ends, what it says is the next token. -/
theorem resume_of_stop (said : Text) (h : s = [] ∨ ∃ rest, mode.afterEnd? s = some rest) :
    resume size mode said s = emit mode said.reverse (resume size mode [] s) := by
  rcases h with rfl | ⟨rest, h⟩
  · rw [resume_nil, resume_nil]
    rfl
  · rw [resume_of_end said h, resume_of_end [] h]
    rfl

theorem resume_char (said : Text) (h : mode.afterEnd? (c :: s) = none)
    (hc : ¬(mode = .text ∧ c = '\\')) :
    resume size mode said (c :: s) = resume size mode (c :: said) s := by
  unfold resume
  rw [Mode.run_char h hc, TokenRun.prepend_prepend]
  rfl

theorem resume_escaped (said s : Text) {d : Char} (hd : d = '{' ∨ d = '\\') :
    resume size .text said ('\\' :: d :: s) = resume size .text (d :: said) s := by
  have hrun : Mode.text.run ('\\' :: d :: s) = TokenRun.prepend [d] (Mode.text.run s) :=
    TokenRun.text_escaped s hd
  unfold resume
  rw [hrun, TokenRun.prepend_prepend]
  rfl

/-- The text before a bad escape is dropped with it. -/
theorem resume_badEscape (said : Text) (h : ∀ d ∈ s.head?, ¬(d = '{' ∨ d = '\\')) :
    resume size .text said ('\\' :: s) = ⟨[], some ⟨size - (s.length + 1), s.head?⟩⟩ := by
  cases s with
  | nil => simp [resume, Mode.run, TokenRun.text_backslash, TokenRun.prepend]
  | cons d s => simp [resume, Mode.run, TokenRun.text_badEscape s (h d rfl), TokenRun.prepend]

end Scan

/-! ## Calls -/

namespace Scanner

/-- The reading of what is left. -/
def scan (s : Scanner) : Scan :=
  match s.phase with
  | .start => Scan.ofRest (s.rest.length + s.offset) .text s.rest
  | .within mode said => Scan.resume (s.rest.length + s.offset) mode said s.rest

theorem scan_ofSource (source : Text) : (ofSource source).scan = PageTemplate.scan source := rfl

theorem scan_within {s : Scanner} {mode : Mode} {said : Text} (h : s.phase = .within mode said) :
    s.scan = Scan.resume (s.rest.length + s.offset) mode said s.rest := by
  simp only [scan, h]

theorem scan_start {s : Scanner} (h : s.phase = .start) :
    s.scan = Scan.resume (s.rest.length + s.offset) .text [] s.rest := by
  simp only [scan, h, Scan.resume_begin]

theorem scan_of_cross {s s' : Scanner} {mode : Mode} {rest : Text}
    (hend : mode.afterEnd? s.rest = some rest) (h : s.cross mode.other rest = .on s') :
    s'.scan = Scan.resume (s.rest.length + s.offset) mode [] s.rest := by
  have hlength := Mode.length_of_afterEnd? hend
  have hsize : rest.length + (s.offset + (s.rest.length - rest.length)) =
      s.rest.length + s.offset := by omega
  cases h
  rw [Scan.resume_of_end [] hend, scan_within rfl, hsize]
  rfl

/-- Going on changes nothing about the reading of what is left. -/
theorem scan_of_on {s s' : Scanner} (h : s.step = .on s') : s'.scan = s.scan := by
  revert h
  fun_cases step s with
  | case2 hphase hrest rest hend =>
    intro h
    rw [scan_start hphase]
    exact scan_of_cross hend h
  | case3 hphase hrest hend =>
    intro h
    cases h
    rw [scan_start hphase, scan_within rfl]
  | case6 mode c more hrest rest hend hphase =>
    intro h
    rw [← hrest] at hend
    rw [scan_within hphase]
    exact scan_of_cross hend h
  | case9 mode said hphase c hc d more hd hrest hend =>
    intro h
    have hsize : more.length + (s.offset + 2) = s.rest.length + s.offset := by
      rw [hrest, List.length_cons, List.length_cons]
      omega
    cases h
    obtain ⟨rfl, rfl⟩ := hc
    rw [scan_within hphase, hrest, Scan.resume_escaped said more hd, scan_within rfl, hsize, hrest]
  | case11 mode said hphase c more hrest hend hc =>
    intro h
    have hsize : more.length + (s.offset + 1) = s.rest.length + s.offset := by
      rw [hrest, List.length_cons]
      omega
    cases h
    rw [scan_within hphase, hrest, Scan.resume_char said hend hc, scan_within rfl, hsize, hrest]
  | _ =>
    intro h
    cases h

theorem scan_of_flush {s s' : Scanner} {mode : Mode} {said : Text}
    {a : Except ScanError (Option Token)} (hphase : s.phase = .within mode said) (hsaid : said ≠ [])
    (hstop : s.rest = [] ∨ ∃ rest, mode.afterEnd? s.rest = some rest)
    (h : s.flush mode said = .answer a s') : a = s.scan.first ∧ s'.scan = s.scan.tail := by
  cases h
  rw [scan_within hphase, scan_within rfl, Scan.resume_of_stop said hstop,
    Scan.emit_of_ne_nil (List.reverse_ne_nil_iff.2 hsaid)]
  exact ⟨rfl, rfl⟩

/-- An answer is the first token of the reading that is left, or how it ends. -/
theorem scan_of_answer {s s' : Scanner} {a : Except ScanError (Option Token)}
    (h : s.step = .answer a s') : a = s.scan.first ∧ s'.scan = s.scan.tail := by
  revert h
  fun_cases step s with
  | case1 hphase hrest =>
    intro h
    have hscan : s.scan = ⟨[], none⟩ := by
      rw [scan_start hphase, hrest, Scan.resume_nil]
      rfl
    cases h
    exact Scan.first_and_tail_of_last hscan
  | case4 mode hrest hphase =>
    intro h
    have hscan : s.scan = ⟨[], none⟩ := by
      rw [scan_within hphase, hrest, Scan.resume_nil]
      rfl
    cases h
    exact Scan.first_and_tail_of_last hscan
  | case5 mode said hphase hrest hsaid => exact scan_of_flush hphase hsaid (.inl hrest)
  | case7 mode said hphase c more hrest rest hend hsaid =>
    exact scan_of_flush hphase hsaid (.inr ⟨rest, hrest ▸ hend⟩)
  | case8 mode said hphase c hc hrest hend =>
    intro h
    obtain ⟨rfl, rfl⟩ := hc
    have hscan : s.scan = ⟨[], some ⟨s.offset, none⟩⟩ := by
      rw [scan_within hphase, hrest, Scan.resume_badEscape said (by simp)]
      simp
    cases h
    exact Scan.first_and_tail_of_last hscan
  | case10 mode said hphase c hc d more hd hrest hend =>
    intro h
    obtain ⟨rfl, rfl⟩ := hc
    have hscan : s.scan = ⟨[], some ⟨s.offset, some d⟩⟩ := by
      rw [scan_within hphase, hrest, Scan.resume_badEscape said (by simpa using hd)]
      simp
    cases h
    exact Scan.first_and_tail_of_last hscan
  | case2 | case3 | case6 | case9 | case11 =>
    intro h
    cases h

/-- One call hands out the first token of the reading that is left and leaves the others. -/
theorem next_eq (s : Scanner) : s.next.1 = s.scan.first ∧ s.next.2.scan = s.scan.tail := by
  fun_induction next s with
  | case1 s s' hstep ih => rwa [scan_of_on hstep] at ih
  | case2 s a s' hstep => exact scan_of_answer hstep

/-- Every call is answered by the next token, and every call after the last one by how the
reading ended. -/
theorem answers_eq (n : Nat) (s : Scanner) :
    answers n s = (s.scan.tokens.map fun t => .ok (some t)).take n ++
      List.replicate (n - s.scan.tokens.length) s.scan.last := by
  induction n generalizing s with
  | zero => simp [answers]
  | succ n ih =>
    obtain ⟨hfirst, htail⟩ := next_eq s
    rw [answers, ih, hfirst, htail]
    obtain ⟨ts, fault⟩ := s.scan
    cases ts with
    | nil => simp [Scan.first, Scan.tail, Scan.last, List.replicate_succ]
    | cons t ts => simp [Scan.first, Scan.tail, Scan.last]

/-- All tokens up to the end are those of the reading, if it did not end at an escape. -/
theorem tokens_eq (s : Scanner) :
    s.tokens = match s.scan.fault with
      | some e => .error e
      | none => .ok s.scan.tokens := by
  fun_induction tokens s with
  | case1 s e s' hnext =>
    have h := next_eq s
    rw [hnext] at h
    rw [Scan.eq_of_first_error h.1.symm]
  | case2 s s' hnext =>
    have h := next_eq s
    rw [hnext] at h
    rw [Scan.eq_of_first_end h.1.symm]
  | case3 s t s' hnext ih =>
    have h := next_eq s
    rw [hnext] at h
    have hscan := Scan.eq_of_first_token h.1.symm
    rw [← h.2] at hscan
    rw [ih, hscan]
    obtain ⟨ts, _ | fault⟩ := s'.scan <;> rfl

/-- The items of the sequence are the answers, but for the end. -/
theorem items_eq (n : Nat) (s : Scanner) : items n s = (answers n s).map item := by
  induction n generalizing s with
  | zero => rfl
  | succ n ih => exact congrArg _ (ih _)

end Scanner
end PageTemplate
