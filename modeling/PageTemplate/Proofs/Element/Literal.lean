import Mathlib.Tactic.SplitIfs
import PageTemplate.Element.Chunk
import PageTemplate.Element.Literal
import PageTemplate.Proofs.Source.Closing

/-! String literals and what they say. Reading undoes writing, a literal is one chunk, and it
spells a closing delimiter only where the text that it says has a dollar sign directly before
a closing brace. -/
namespace PageTemplate

/-! ## Escapes -/

namespace Literal

theorem escape_cons {c : Char} {s : Text} (h : ∀ t, c = '\r' → s ≠ '\n' :: t) :
    escape (c :: s) = escapeChar c ++ escape s := by
  rw [escape.eq_def]
  split
  · rename_i heq
    cases heq
  · rename_i t heq
    obtain ⟨rfl, rfl⟩ := List.cons.inj heq
    exact absurd rfl (h t rfl)
  · rename_i heq
    obtain ⟨rfl, rfl⟩ := List.cons.inj heq
    rfl

/-- A character is written as a backslash and a letter or a mark, or as itself; the only
blank written as itself is a space. -/
theorem escapeChar_cases (c : Char) :
    (∃ k, k ∈ ['\\', '"', 'n', 'r', 't'] ∧ escapeChar c = ['\\', k]) ∨
      (c ≠ '\\' ∧ c ≠ '"' ∧ (Delimiter.isBlank c → c = ' ') ∧ escapeChar c = [c]) := by
  unfold escapeChar Delimiter.isBlank
  split_ifs with h1 h2 h3 h4 h5
  · exact .inl ⟨'\\', by simp⟩
  · exact .inl ⟨'"', by simp⟩
  · exact .inl ⟨'n', by simp⟩
  · exact .inl ⟨'r', by simp⟩
  · exact .inl ⟨'t', by simp⟩
  · exact .inr ⟨h1, h2, by simp [h3, h4, h5], rfl⟩

theorem unescape_cons {c : Char} (h : c ≠ '\\') (s : Text) :
    unescape (c :: s) = c :: unescape s := by
  rw [unescape.eq_def]
  split <;> simp_all

/-- A carriage return, before anything that does not go on with an escaped line feed. -/
theorem unescape_return {s : Text} (h : ∀ t, s ≠ '\\' :: 'n' :: t) :
    unescape ('\\' :: 'r' :: s) = '\r' :: unescape s := by
  rw [unescape.eq_2]
  exact fun t ht => h t ht

/-- Only a line feed is written as the escape of a line feed. -/
theorem eq_of_escape_eq {s t : Text} (h : escape s = '\\' :: 'n' :: t) : ∃ r, s = '\n' :: r := by
  fun_cases escape s with
  | case1 => simp [escape] at h
  | case2 s => simp [escape] at h
  | case3 c s hcrlf =>
    rw [escape_cons fun t hc hs => hcrlf t hc hs] at h
    unfold escapeChar at h
    split_ifs at h with h1 h2 h3 h4 h5 <;> simp_all

/-- What a written text says is the text. -/
theorem unescape_escape (s : Text) : unescape (escape s) = s := by
  fun_induction escape s with
  | case1 => rfl
  | case2 s ih =>
    rw [unescape_return (by simp), unescape_cons (by decide), ih]
  | case3 c s hcrlf ih =>
    unfold escapeChar
    split_ifs with h1 h2 h3 h4 h5
    · simp [h1, unescape, ih]
    · simp [h2, unescape, ih]
    · simp [h3, unescape, ih]
    · subst h4
      have hn : ∀ t, escape s ≠ '\\' :: 'n' :: t := by
        intro t ht
        obtain ⟨r, rfl⟩ := eq_of_escape_eq ht
        exact hcrlf r rfl rfl
      exact (unescape_return hn).trans (congrArg _ ih)
    · simp [h5, unescape, ih]
    · exact (unescape_cons h1 _).trans (congrArg _ ih)

theorem toText?_ofText (s : Text) : toText? (ofText s) = some s := by
  rw [ofText, toText?_quoted, unescape_escape]

/-! ## Closing delimiters -/

/-- A closing brace stands for itself alone. -/
theorem eq_of_unescape_eq {s t : Text} (h : unescape s = '}' :: t) : ∃ r, s = '}' :: r := by
  revert h
  fun_cases unescape s with
  | case8 c s hcs =>
    intro h
    exact ⟨s, by rw [(List.cons.inj h).1]⟩
  | _ =>
    intro h
    cases h

theorem closes_cons_of_unescape {c : Char} {s : Text} (ih : Closes (unescape s) → Closes s)
    (h : Closes (c :: unescape s)) : Closes (c :: s) := by
  rcases closes_cons_iff.1 h with ⟨rfl, t, ht⟩ | h
  · exact closes_cons_iff.2 (.inl ⟨rfl, eq_of_unescape_eq ht⟩)
  · exact (ih h).cons c

/-- What a literal says closes a tag only if the literal does. -/
theorem closes_of_unescape {s : Text} (h : Closes (unescape s)) : Closes s := by
  revert h
  fun_induction unescape s
  case case1 ih =>
    intro h
    exact ((((ih (h.of_cons_of_ne (by decide))).cons _).cons _).cons _).cons _
  case case7 ih =>
    intro h
    exact (closes_cons_of_unescape ih (h.of_cons_of_ne (by decide))).cons _
  case case8 ih => exact closes_cons_of_unescape ih
  case case9 => exact id
  -- the other escapes stand for one character each, none of them a dollar sign
  all_goals
    rename_i ih
    intro h
    exact ((ih (h.of_cons_of_ne (by decide))).cons _).cons _

/-- The blanks that a written literal goes on with are spaces. -/
theorem eq_space_of_mem_takeWhile {s : Text} (rest : Text) :
    ∀ c ∈ (escape s ++ '"' :: rest).takeWhile Delimiter.isBlank, c = ' ' := by
  fun_induction escape s with
  | case1 =>
    intro c hc
    simp [Delimiter.isBlank] at hc
  | case2 s ih =>
    intro c hc
    simp [Delimiter.isBlank] at hc
  | case3 d s hcrlf ih =>
    intro c hc
    rcases escapeChar_cases d with ⟨k, -, he⟩ | ⟨-, -, hblank, he⟩
    · simp [he, Delimiter.isBlank] at hc
    · rw [he, List.append_assoc, List.singleton_append, List.takeWhile_cons] at hc
      split at hc
      · rename_i hd
        rcases List.mem_cons.1 hc with rfl | hc
        · exact hblank hd
        · exact ih c hc
      · cases hc

/-- A written literal goes on with a closing brace only where the text does. -/
theorem eq_of_escape_brace {s rest t : Text} (h : escape s ++ '"' :: rest = '}' :: t) :
    ∃ r, s = '}' :: r := by
  revert h
  fun_cases escape s with
  | case1 =>
    intro h
    cases h
  | case2 s =>
    intro h
    cases h
  | case3 c s hcrlf =>
    intro h
    rcases escapeChar_cases c with ⟨k, -, he⟩ | ⟨-, -, -, he⟩
    · rw [he] at h
      cases h
    · rw [he] at h
      exact ⟨s, by rw [(List.cons.inj h).1]⟩

/-- In a written literal no blanks stand between a dollar sign and a closing brace. -/
theorem afterClosing?_escape {s : Text} (h : ∀ t, s ≠ '}' :: t) (rest : Text) :
    Delimiter.afterClosing? ('$' :: (escape s ++ '"' :: rest)) = none := by
  have hspace := eq_space_of_mem_takeWhile (s := s) rest
  have hsplit := List.takeWhile_append_dropWhile
    (p := Delimiter.isBlank) (l := escape s ++ '"' :: rest)
  simp only [Delimiter.afterClosing?, Delimiter.after?, if_true]
  split
  · rfl
  · rename_i d r hd
    rw [if_neg]
    rintro ⟨rfl, hgap⟩
    rw [hd] at hsplit
    cases htake : (escape s ++ '"' :: rest).takeWhile Delimiter.isBlank with
    | nil =>
      rw [htake] at hsplit
      obtain ⟨t, ht⟩ := eq_of_escape_brace hsplit.symm
      exact h t ht
    | cons c g =>
      rw [htake] at hspace hgap
      have hbreak : (c :: g).any Delimiter.isBreak := by
        simp only [Delimiter.isGap, List.isEmpty_cons, Bool.false_or, Bool.and_eq_true] at hgap
        exact hgap.2
      obtain ⟨b, hb, hbb⟩ := List.any_eq_true.1 hbreak
      rw [hspace b hb] at hbb
      cases hbb

theorem inert_escape {s : Text} (h : ¬Closes s) : Inert (escape s ++ ['"']) := by
  fun_induction escape s with
  | case1 => exact inert_of_not_mem (by simp)
  | case2 s ih =>
    have hs : ¬Closes s := fun hc => h ((hc.cons _).cons _)
    exact (((ih hs).cons_of_ne (by decide)).cons_of_ne (by decide)).cons_of_ne (by decide)
  | case3 c s hcrlf ih =>
    have hs : ¬Closes s := fun hc => h (hc.cons _)
    rcases escapeChar_cases c with ⟨k, hk, he⟩ | ⟨-, -, -, he⟩
    · have hk : k ≠ '$' := by
        rintro rfl
        simp at hk
      rw [he]
      exact ((ih hs).cons_of_ne hk).cons_of_ne (by decide)
    · rw [he]
      by_cases hc : c = '$'
      · subst hc
        apply (ih hs).cons
        intro rest
        rw [List.append_assoc]
        exact afterClosing?_escape (fun t ht => h (closes_cons_iff.2 (.inl ⟨rfl, t, ht⟩))) rest
      · exact (ih hs).cons_of_ne hc

/-- A literal closes no tag unless what it says does. -/
theorem inert_ofText {s : Text} (h : ¬Closes s) : Inert (ofText s) :=
  (inert_escape h).cons_of_ne (by decide)

/-- A literal that closes no tag says a text that closes none. -/
theorem not_closes_of_toText? {s t : Text} (h : toText? s = some t) (hs : ¬Closes s) :
    ¬Closes t := by
  unfold toText? at h
  split at h
  · split at h
    · cases h
      intro hc
      have hin := (closes_of_unescape hc).mono (List.dropLast_prefix _).isInfix
      exact hs (hin.cons _)
    · cases h
  · cases h

end Literal

/-! ## Chunks -/

namespace Chunk

theorem splitFrom_string_other (said : Text) {c : Char} (hb : c ≠ '\\') (hq : c ≠ '"') (s : Text) :
    splitFrom (.string said) (c :: s) = splitFrom (.string (c :: said)) s := by
  rw [splitFrom.eq_def]
  split <;> simp_all

/-- A written literal ends at its last quote. -/
theorem splitFrom_escape (said s rest : Text) :
    splitFrom (.string said) (Literal.escape s ++ '"' :: rest) =
      (said.reverse ++ Literal.escape s ++ ['"']) :: split rest := by
  fun_induction Literal.escape s generalizing said with
  | case1 =>
    rw [List.nil_append, splitFrom_string_quote]
    simp [split]
  | case2 s ih =>
    simp only [List.cons_append]
    rw [splitFrom_string_escaped, splitFrom_string_other _ (by decide) (by decide), ih]
    simp
  | case3 c s hcrlf ih =>
    rcases Literal.escapeChar_cases c with ⟨k, -, he⟩ | ⟨hb, hq, -, he⟩
    · rw [he]
      simp only [List.cons_append, List.nil_append]
      rw [splitFrom_string_escaped, ih]
      simp
    · rw [he]
      simp only [List.cons_append, List.nil_append]
      rw [splitFrom_string_other _ hb hq, ih]
      simp

/-- A quote at the start of a chunk opens a string. -/
theorem split_quote (s : Text) : split ('"' :: s) = splitFrom (.string ['"']) s := by
  have hq : Text.isSpace '"' = false := by decide
  rw [split, splitFrom]
  simp only [hq, Bool.false_eq_true, if_false, if_true]

theorem split_ofText (s rest : Text) :
    split (Literal.ofText s ++ rest) = Literal.ofText s :: split rest := by
  unfold Literal.ofText
  rw [List.cons_append, List.cons_append, split_quote, List.append_assoc]
  exact splitFrom_escape ['"'] s rest

end Chunk
end PageTemplate
