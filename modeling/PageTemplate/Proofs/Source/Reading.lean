import PageTemplate.Proofs.Source.Spelling

/-! The plain reading of a template from left to right, character by character. Every template has
exactly one, and a scanner hands it out: its tokens, and then again and again how it ends. -/
namespace PageTemplate

/-- The delimiters that end a run. -/
def Mode.IsEnd : Mode → Text → Prop
  | .text => Delimiter.IsOpening
  | .tag => Delimiter.IsClosing

/-- `Reading mode n said s r`: behind `n` characters, in a run that says `said` so far, the rest `s`
of a template reads as `r`. A run ends at the first delimiter of its kind or at the end of the
template, and is a token if it says anything. In a text a backslash stands for the brace or the
backslash behind it, and the reading ends at any other; all else stands for itself. -/
inductive Reading : Mode → Nat → Text → Text → Scan → Prop
  | finished (mode : Mode) (n : Nat) (said : Text) :
      Reading mode n said [] (.emit mode said ⟨[], none⟩)
  | delimiter {mode : Mode} {n : Nat} {w s : Text} {r : Scan} (said : Text) (hw : mode.IsEnd w)
      (h : Reading mode.other (n + w.length) [] s r) :
      Reading mode n said (w ++ s) (.emit mode said r)
  | escaped {n : Nat} {said s : Text} {r : Scan} {d : Char} (hd : d = '{' ∨ d = '\\')
      (h : Reading .text (n + 2) (said ++ [d]) s r) : Reading .text n said ('\\' :: d :: s) r
  | badEscape {n : Nat} {s : Text} (said : Text) (hd : ∀ d ∈ s.head?, ¬(d = '{' ∨ d = '\\')) :
      Reading .text n said ('\\' :: s) ⟨[], some ⟨n, s.head?⟩⟩
  | char {mode : Mode} {n : Nat} {said s : Text} {r : Scan} {c : Char}
      (hc : ¬(mode = .text ∧ c = '\\')) (hw : ∀ w, mode.IsEnd w → ¬w <+: c :: s)
      (h : Reading mode (n + 1) (said ++ [c]) s r) : Reading mode n said (c :: s) r

/-! ## Where runs end -/

namespace Mode

variable {mode : Mode} {w s rest : Text}

theorem afterEnd?_append (hw : mode.IsEnd w) (rest : Text) :
    mode.afterEnd? (w ++ rest) = some rest := by
  cases mode with
  | text => exact Delimiter.afterOpening?_append hw rest
  | tag => exact Delimiter.afterClosing?_append hw rest

theorem exists_of_afterEnd? (h : mode.afterEnd? s = some rest) :
    ∃ w, mode.IsEnd w ∧ s = w ++ rest := by
  cases mode with
  | text => exact Delimiter.spells_of_after? h
  | tag => exact Delimiter.spells_of_after? h

theorem afterEnd?_eq_none_iff : mode.afterEnd? s = none ↔ ∀ w, mode.IsEnd w → ¬w <+: s := by
  constructor
  · rintro h w hw ⟨rest, rfl⟩
    rw [afterEnd?_append hw] at h
    cases h
  · intro h
    cases hend : mode.afterEnd? s with
    | none => rfl
    | some rest =>
      obtain ⟨w, hw, rfl⟩ := exists_of_afterEnd? hend
      exact absurd (List.prefix_append w rest) (h w hw)

end Mode

/-! ## There is one reading -/

namespace Reading

/-- No reading but the one that resumes the run. -/
theorem eq_resume {mode : Mode} {n : Nat} {said s : Text} {r : Scan}
    (h : Reading mode n said s r) : r = Scan.resume (s.length + n) mode said.reverse s := by
  induction h with
  | finished mode n said => rw [Scan.resume_nil, List.reverse_reverse]
  | @delimiter mode n w s r said hw h ih =>
    have hsize : s.length + (n + w.length) = (w ++ s).length + n := by
      rw [List.length_append]
      omega
    rw [Scan.resume_of_end _ (Mode.afterEnd?_append hw s), List.reverse_reverse, ih, hsize]
    rfl
  | @escaped n said s r d hd h ih =>
    have hsize : s.length + (n + 2) = ('\\' :: d :: s).length + n := by
      rw [List.length_cons, List.length_cons]
      omega
    rw [Scan.resume_escaped _ s hd, ih, hsize, List.reverse_append]
    rfl
  | @badEscape n s said hd =>
    rw [Scan.resume_badEscape _ hd]
    simp
  | @char mode n said s r c hc hw h ih =>
    have hsize : s.length + (n + 1) = (c :: s).length + n := by
      rw [List.length_cons]
      omega
    rw [Scan.resume_char _ (Mode.afterEnd?_eq_none_iff.2 hw) hc, ih, hsize, List.reverse_append]
    rfl

theorem exists_reading (mode : Mode) (n : Nat) (said s : Text) :
    ∃ r, Reading mode n said s r := by
  induction hlength : s.length using Nat.strong_induction_on generalizing mode n said s with
  | h k ih =>
    cases hend : mode.afterEnd? s with
    | some rest =>
      have hshort := Mode.length_of_afterEnd? hend
      obtain ⟨w, hw, rfl⟩ := Mode.exists_of_afterEnd? hend
      obtain ⟨r, hr⟩ := ih rest.length (by omega) mode.other (n + w.length) [] rest rfl
      exact ⟨_, .delimiter said hw hr⟩
    | none =>
      cases s with
      | nil => exact ⟨_, .finished mode n said⟩
      | cons c s =>
        rw [List.length_cons] at hlength
        by_cases hc : mode = .text ∧ c = '\\'
        · obtain ⟨rfl, rfl⟩ := hc
          by_cases hd : ∀ d ∈ s.head?, ¬(d = '{' ∨ d = '\\')
          · exact ⟨_, .badEscape said hd⟩
          · cases s with
            | nil => exact absurd (by simp) hd
            | cons d s =>
              rw [List.length_cons] at hlength
              obtain ⟨r, hr⟩ := ih s.length (by omega) .text (n + 2) (said ++ [d]) s rfl
              exact ⟨r, .escaped (by simpa [← or_iff_not_imp_left] using hd) hr⟩
        · obtain ⟨r, hr⟩ := ih s.length (by omega) mode (n + 1) (said ++ [c]) s rfl
          exact ⟨r, .char hc (Mode.afterEnd?_eq_none_iff.1 hend) hr⟩

end Reading

theorem reading_iff (source : Text) (r : Scan) :
    Reading .text 0 [] source r ↔ r = scan source := by
  have hscan (r : Scan) (h : Reading .text 0 [] source r) : r = scan source :=
    h.eq_resume.trans (Scan.resume_begin source.length .text source)
  constructor
  · exact hscan r
  · rintro rfl
    obtain ⟨r, h⟩ := Reading.exists_reading .text 0 [] source
    rwa [hscan r h] at h

/-! ## What a reading is like -/

theorem Scan.fault_emit (mode : Mode) (said : Text) (r : Scan) :
    (emit mode said r).fault = r.fault := by
  unfold emit
  split <;> rfl

theorem Scan.length_tokens_emit (mode : Mode) (said : Text) (r : Scan) :
    (emit mode said r).tokens.length ≤ said.length + r.tokens.length := by
  unfold emit
  split
  · omega
  · rename_i hsaid
    have hlength := List.length_pos_iff.2 hsaid
    rw [List.length_cons]
    omega

namespace Reading

variable {mode : Mode} {n : Nat} {said s : Text} {r : Scan}

/-- Every token takes a character at least. -/
theorem length_tokens_le (h : Reading mode n said s r) :
    r.tokens.length ≤ said.length + s.length := by
  induction h with
  | finished mode n said => exact Scan.length_tokens_emit mode said _
  | @delimiter mode n w s r said hw h ih =>
    have hemit := Scan.length_tokens_emit mode said r
    rw [List.length_nil] at ih
    rw [List.length_append]
    omega
  | escaped hd h ih =>
    rw [List.length_append, List.length_singleton] at ih
    rw [List.length_cons, List.length_cons]
    omega
  | badEscape said hd => exact Nat.zero_le _
  | char hc hw h ih =>
    rw [List.length_append, List.length_singleton] at ih
    rw [List.length_cons]
    omega

/-- A reading fails at a backslash, and names the character behind it. -/
theorem exists_of_fault (h : Reading mode n said s r) {e : ScanError} (he : r.fault = some e) :
    ∃ before behind, s = before ++ '\\' :: behind ∧ e = ⟨n + before.length, behind.head?⟩ := by
  induction h with
  | finished mode n said =>
    rw [Scan.fault_emit] at he
    cases he
  | @delimiter mode n w s r said hw h ih =>
    rw [Scan.fault_emit] at he
    obtain ⟨before, behind, rfl, rfl⟩ := ih he
    exact ⟨w ++ before, behind, by simp, by simp [Nat.add_assoc]⟩
  | @escaped n said s r d hd h ih =>
    obtain ⟨before, behind, rfl, rfl⟩ := ih he
    exact ⟨'\\' :: d :: before, behind, rfl, by simp; omega⟩
  | @badEscape n s said hd =>
    cases he
    exact ⟨[], s, rfl, rfl⟩
  | @char mode n said s r c hc hw h ih =>
    obtain ⟨before, behind, rfl, rfl⟩ := ih he
    exact ⟨c :: before, behind, rfl, by simp; omega⟩

end Reading

/-- Every template has exactly one plain reading. Asked again and again, the scanner hands out the
tokens of this reading and from then on how it ends, and so do the sequence of its items and the
list of all tokens. No text among them is empty, there are no more tokens than characters, and a
reading that fails does so at a backslash, of which it names the place and the character behind. -/
theorem scanner_reading (source : Text) :
    ∃ r, (∀ r', Reading .text 0 [] source r' ↔ r' = r) ∧ scan source = r ∧
      (∀ n, Scanner.answers n (.ofSource source) =
        (r.tokens.map fun t => .ok (some t)).take n ++
          List.replicate (n - r.tokens.length) (r.fault.elim (.ok none) .error)) ∧
      (∀ n, Scanner.items n (.ofSource source) =
        (r.tokens.map fun t => some (.ok t)).take n ++
          List.replicate (n - r.tokens.length) (r.fault.map .error)) ∧
      (Scanner.ofSource source).tokens = r.fault.elim (.ok r.tokens) .error ∧
      .text [] ∉ r.tokens ∧ r.tokens.length ≤ source.length ∧
      ∀ e ∈ r.fault, ∃ before behind, source = before ++ '\\' :: behind ∧
        e = ⟨before.length, behind.head?⟩ := by
  have hreading : Reading .text 0 [] source (scan source) := (reading_iff source _).2 rfl
  have hlast : (scan source).last = (scan source).fault.elim (.ok none) .error := by
    unfold Scan.last
    cases (scan source).fault <;> rfl
  have hanswers (n : Nat) : Scanner.answers n (.ofSource source) = _ :=
    Scanner.answers_eq n (.ofSource source)
  simp only [Scanner.scan_ofSource, hlast] at hanswers
  refine ⟨scan source, reading_iff source, rfl, hanswers, fun n => ?_, ?_, ?_, ?_, ?_⟩
  · rw [Scanner.items_eq, hanswers, List.map_append, List.map_take, List.map_map,
      List.map_replicate]
    cases (scan source).fault <;> rfl
  · rw [Scanner.tokens_eq, Scanner.scan_ofSource]
    cases (scan source).fault <;> rfl
  · exact fun h => sound_of_mem_scan _ h rfl
  · simpa using hreading.length_tokens_le
  · intro e he
    simpa using hreading.exists_of_fault he

end PageTemplate
