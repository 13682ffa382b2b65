import PageTemplate.Proofs.Settings.RoundTrip

/-! Bad lines of a settings text. A line that is refused leaves the settings as they were, and
whether it is refused does not depend on them. So bad lines are reported in order, each as if it
stood alone, and the text is loaded to the same settings with blank lines in their place. -/
namespace PageTemplate

/-- A line of nothing but white space. -/
structure IsBlank (s : Text) : Prop where
  oneLine : OneLine s
  spaces : ∀ c ∈ s, Text.isSpace c

namespace Settings

/-- The lines from number `n` on, with others in the place of those whose numbers are listed. -/
def replaceFrom (numbers : List Nat) (other : Nat → Text) (n : Nat) : List Text → List Text
  | [] => []
  | line :: lines =>
    (if numbers.contains n then other n else line) :: replaceFrom numbers other (n + 1) lines

/-- A text with other lines in the place of those whose numbers are listed, counted from one. -/
def replaceLines (numbers : List Nat) (other : Nat → Text) (text : Text) : Text :=
  ['\n'].intercalate (replaceFrom numbers other 1 (splitLines text))

/-! ## Lines of a text -/

theorem linesFrom_oneLine (said : Text) {line : Text} (h : OneLine line) :
    linesFrom said line = [said.reverse ++ line] := by
  simpa [linesFrom] using linesFrom_oneLine_append said h []

theorem linesFrom_ne_nil (said s : Text) : linesFrom said s ≠ [] := by
  induction s generalizing said with
  | nil => exact List.cons_ne_nil _ _
  | cons c s ih =>
    rw [linesFrom]
    split
    · exact List.cons_ne_nil _ _
    · exact ih _

theorem splitLines_intercalate {lines : List Text} (hne : lines ≠ [])
    (h : ∀ line ∈ lines, OneLine line) : splitLines (['\n'].intercalate lines) = lines := by
  induction lines with
  | nil => exact absurd rfl hne
  | cons line lines ih =>
    obtain ⟨hline, hlines⟩ := List.forall_mem_cons.1 h
    cases lines with
    | nil =>
      rw [List.intercalate_singleton]
      exact linesFrom_oneLine [] hline
    | cons next lines =>
      have hrest := ih (List.cons_ne_nil next lines) hlines
      rw [List.intercalate_cons_cons, List.append_assoc, List.singleton_append, splitLines,
        linesFrom_append [] hline, ← splitLines, hrest]
      rfl

section

variable {numbers : List Nat} {other : Nat → Text} {n : Nat} {lines : List Text}

theorem replaceFrom_ne_nil (h : lines ≠ []) : replaceFrom numbers other n lines ≠ [] := by
  cases lines with
  | nil => exact absurd rfl h
  | cons line lines => exact List.cons_ne_nil _ _

theorem oneLine_of_mem_replaceFrom (hother : ∀ k, OneLine (other k))
    (h : ∀ line ∈ lines, OneLine line) :
    ∀ line ∈ replaceFrom numbers other n lines, OneLine line := by
  induction lines generalizing n with
  | nil => exact h
  | cons line lines ih =>
    obtain ⟨hline, hlines⟩ := List.forall_mem_cons.1 h
    rw [replaceFrom, List.forall_mem_cons]
    refine ⟨?_, ih hlines⟩
    split
    · exact hother n
    · exact hline

theorem splitLines_replaceLines (hother : ∀ k, OneLine (other k)) (text : Text) :
    splitLines (replaceLines numbers other text) = replaceFrom numbers other 1 (splitLines text) :=
  splitLines_intercalate (replaceFrom_ne_nil (linesFrom_ne_nil [] text))
    (oneLine_of_mem_replaceFrom hother fun _ => oneLine_of_mem_splitLines)

/-! ## Bad lines -/

theorem mem_lineErrors {e : LineError} : e ∈ lineErrors n lines ↔
    ∃ i line, lines[i]? = some line ∧ e.line = n + i ∧ readLine line = .error e.cause := by
  induction lines generalizing n with
  | nil => simp [lineErrors]
  | cons raw lines ih =>
    have hcons : e ∈ lineErrors n (raw :: lines) ↔
        (e.line = n ∧ readLine raw = .error e.cause) ∨ e ∈ lineErrors (n + 1) lines := by
      rw [lineErrors]
      cases readLine raw with
      | ok entry => simp
      | error cause =>
        obtain ⟨k, c⟩ := e
        simp [eq_comm]
    rw [hcons, ih]
    constructor
    · rintro (⟨hn, hraw⟩ | ⟨i, line, hline, hn, hread⟩)
      · exact ⟨0, raw, rfl, hn, hraw⟩
      · exact ⟨i + 1, line, hline, by omega, hread⟩
    · rintro ⟨i, line, hline, hn, hread⟩
      cases i with
      | zero =>
        cases hline
        exact .inl ⟨hn, hread⟩
      | succ i => exact .inr ⟨i, line, hline, by omega, hread⟩

theorem pairwise_lineErrors (n : Nat) (lines : List Text) :
    ((lineErrors n lines).map LineError.line).Pairwise (· < ·) := by
  induction lines generalizing n with
  | nil => exact .nil
  | cons raw lines ih =>
    rw [lineErrors]
    cases readLine raw with
    | ok e => exact ih (n + 1)
    | error cause =>
      rw [List.map_cons, List.pairwise_cons]
      refine ⟨fun k hk => ?_, ih (n + 1)⟩
      obtain ⟨e, he, rfl⟩ := List.mem_map.1 hk
      obtain ⟨i, line, -, hline, -⟩ := mem_lineErrors.1 he
      change n < e.line
      omega

theorem readLine_of_isBlank {s : Text} (h : IsBlank s) : readLine s = .ok none := by
  have htrim : Text.trim s = [] := by
    have hstart : Text.trimStart s = [] := List.dropWhile_eq_nil_iff.2 h.spaces
    rw [Text.trim, hstart]
    rfl
  rw [readLine, htrim]
  rfl

theorem lineErrors_replaceFrom (hother : ∀ k, IsBlank (other k)) :
    lineErrors n (replaceFrom numbers other n lines) =
      (lineErrors n lines).filter fun e => !numbers.contains e.line := by
  induction lines generalizing n with
  | nil => rfl
  | cons raw lines ih =>
    rw [replaceFrom]
    by_cases hn : numbers.contains n
    · rw [if_pos hn, lineErrors, readLine_of_isBlank (hother n), lineErrors]
      cases readLine raw with
      | ok e => exact ih
      | error cause =>
        rw [List.filter_cons_of_neg (by simpa using hn)]
        exact ih
    · rw [if_neg hn, lineErrors, lineErrors]
      cases readLine raw with
      | ok e => exact ih
      | error cause =>
        rw [List.filter_cons_of_pos (by simpa using hn)]
        exact congrArg _ ih

/-- Lines that set nothing can make room for blank ones. -/
theorem filterMap_replaceFrom (hother : ∀ k, IsBlank (other k))
    (h : ∀ i line, lines[i]? = some line → numbers.contains (n + i) → entryOf? line = none) :
    (replaceFrom numbers other n lines).filterMap entryOf? = lines.filterMap entryOf? := by
  induction lines generalizing n with
  | nil => rfl
  | cons raw lines ih =>
    have hrest := ih (n := n + 1) fun i line hline hi => h (i + 1) line hline (by
      rwa [Nat.add_assoc, Nat.add_comm 1] at hi)
    rw [replaceFrom]
    by_cases hn : numbers.contains n
    · have hblank : entryOf? (other n) = none := by rw [entryOf?, readLine_of_isBlank (hother n)]
      rw [if_pos hn, List.filterMap_cons_none hblank, List.filterMap_cons_none (h 0 raw rfl hn),
        hrest]
    · rw [if_neg hn, List.filterMap_cons, List.filterMap_cons, hrest]

end

theorem load_eq (text : Text) :
    load text = (((splitLines text).filterMap entryOf?).foldl Entry.set empty,
      lineErrors 1 (splitLines text)) :=
  loadFrom_eq empty 1 (splitLines text)

/-- A line alone is a text without bad lines or with one. -/
theorem readLine_eq_error_iff {line : Text} (h : OneLine line) {cause : DirectiveError} :
    readLine line = .error cause ↔ load line = (empty, [⟨1, cause⟩]) := by
  have hsplit : splitLines line = [line] := linesFrom_oneLine [] h
  rw [load_eq, hsplit, lineErrors, lineErrors, List.filterMap_cons, List.filterMap_nil, entryOf?]
  cases readLine line <;> simp

theorem idle_of_nil_or_comment {line : Text} (h : line = [] ∨ line.head? = some ';') :
    isIdle line := by
  rcases h with rfl | h
  · rfl
  · simp [isIdle, h]

/-- A line that is refused is neither blank nor a comment. -/
theorem not_idle_of_error {raw : Text} {cause : DirectiveError} (h : readLine raw = .error cause) :
    Text.trim raw ≠ [] ∧ (Text.trim raw).head? ≠ some ';' := by
  rw [← not_or]
  intro hidle
  rw [readLine, if_pos (idle_of_nil_or_comment hidle)] at h
  cases h

theorem mem_errors_load {text : Text} {e : LineError} : e ∈ (load text).2 ↔
    0 < e.line ∧ ∃ line, (splitLines text)[e.line - 1]? = some line ∧
      readLine line = .error e.cause := by
  rw [load_eq, mem_lineErrors]
  constructor
  · rintro ⟨i, line, hline, hn, hread⟩
    have hi : e.line - 1 = i := by omega
    exact ⟨by omega, line, hi ▸ hline, hread⟩
  · rintro ⟨hpos, line, hline, hread⟩
    exact ⟨e.line - 1, line, hline, by omega, hread⟩

/-- Bad lines can make room for blank ones. -/
theorem load_replaceLines_of_bad {text : Text} {blank : Nat → Text}
    (hblank : ∀ n, IsBlank (blank n)) {numbers : List Nat}
    (hbad : ∀ n ∈ numbers, ∃ e ∈ (load text).2, e.line = n) :
    load (replaceLines numbers blank text) =
      ((load text).1, (load text).2.filter fun e => !numbers.contains e.line) := by
  have hentry : ∀ i line, (splitLines text)[i]? = some line → numbers.contains (1 + i) →
      entryOf? line = none := by
    intro i line hline hi
    obtain ⟨e, he, hn⟩ := hbad (1 + i) (List.contains_iff_mem.1 hi)
    obtain ⟨-, other, hother, hread⟩ := mem_errors_load.1 he
    obtain rfl : e.line - 1 = i := by omega
    rw [hline] at hother
    cases hother
    rw [entryOf?, hread]
  rw [load_eq, splitLines_replaceLines fun k => (hblank k).oneLine,
    filterMap_replaceFrom hblank hentry, lineErrors_replaceFrom hblank, load_eq]

/-- The bad lines of a text are those that are bad alone, in order, and none of them is idle. A line
that is refused leaves the settings as they were, whatever they are. With blank lines in the place
of the bad ones the text is loaded to the same settings without an error, and with blank lines in
the place of some of them the others are reported as before. -/
theorem load_replaceLines (text : Text) {blank : Nat → Text} (hblank : ∀ n, IsBlank (blank n)) :
    ((load text).2.map LineError.line).Pairwise (· < ·) ∧
    (∀ e, e ∈ (load text).2 ↔ 0 < e.line ∧ ∃ line, (splitLines text)[e.line - 1]? = some line ∧
      load line = (empty, [⟨1, e.cause⟩])) ∧
    (∀ e ∈ (load text).2, ∀ line ∈ (splitLines text)[e.line - 1]?,
      Text.trim line ≠ [] ∧ (Text.trim line).head? ≠ some ';' ∧
        ∀ s, applyLine line s = .error e.cause s) ∧
    load (replaceLines ((load text).2.map LineError.line) blank text) = ((load text).1, []) ∧
    ∀ numbers : List Nat, (∀ n ∈ numbers, ∃ e ∈ (load text).2, e.line = n) →
      load (replaceLines numbers blank text) =
        ((load text).1, (load text).2.filter fun e => !numbers.contains e.line) := by
  refine ⟨?_, fun e => ?_, fun e he line hline => ?_, ?_, fun numbers hbad => ?_⟩
  · rw [load_eq]
    exact pairwise_lineErrors 1 _
  · rw [mem_errors_load]
    refine and_congr_right fun _ => exists_congr fun line => and_congr_right fun hline => ?_
    exact readLine_eq_error_iff (oneLine_of_mem_splitLines (List.mem_of_getElem? hline))
  · obtain ⟨-, line', hline', hread⟩ := mem_errors_load.1 he
    rw [hline'] at hline
    cases hline
    obtain ⟨hne, hhead⟩ := not_idle_of_error hread
    exact ⟨hne, hhead, fun s => by rw [applyLine_eq, hread]⟩
  · have hall : ∀ n ∈ (load text).2.map LineError.line, ∃ e ∈ (load text).2, e.line = n :=
      fun n hn => List.mem_map.1 hn
    rw [load_replaceLines_of_bad hblank hall, Prod.mk.injEq]
    refine ⟨rfl, List.filter_eq_nil_iff.2 fun e he => ?_⟩
    simpa using ⟨e, he, rfl⟩
  · exact load_replaceLines_of_bad hblank hbad

/-- Every directive fails, the cookie at an attribute behind a good one. -/
theorem load_replaceLines_every_directive :
    let text := ("param x\npparam =1\nmime a b\n; x\nencoding x\nstatus 65536 Gone\nheader no\n" ++
      "cookie x=1 path=/ secure\n\nx\nstatus 404\nparam a=2").toList
    let blank : Nat → Text := fun n => List.replicate n ' '
    (∀ n, IsBlank (blank n)) ∧
      (load text).2.map LineError.line = [1, 2, 3, 5, 6, 7, 8, 10] ∧
      (load text).1 =
        { empty with request := .ofList [("a".toList, "2".toList)], statusCode := some 404 } ∧
      load (replaceLines [1, 2, 3, 5, 6, 7, 8, 10] blank text) = ((load text).1, []) := by
  intro text blank
  have hblank : ∀ n, IsBlank (blank n) := by
    intro n
    refine ⟨fun h => ?_, fun c hc => ?_⟩
    · exact absurd (List.eq_of_mem_replicate h) (by decide)
    · rw [List.eq_of_mem_replicate hc]
      decide
  have hlines : (load text).2.map LineError.line = [1, 2, 3, 5, 6, 7, 8, 10] := by decide +kernel
  obtain ⟨-, -, -, hload, -⟩ := load_replaceLines text hblank
  rw [hlines] at hload
  exact ⟨hblank, hlines, by decide +kernel, hload⟩

end Settings
end PageTemplate
