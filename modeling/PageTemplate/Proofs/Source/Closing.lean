import Mathlib.Data.List.Infix
import PageTemplate.Source.Token

/-! Where a tag run ends. What a tag says never has a dollar sign directly before a closing
brace, and an inert text is one that a tag run reads to its end, whatever follows. -/
namespace PageTemplate

/-- A dollar sign directly before a closing brace. -/
def Closes (s : Text) : Prop := ['$', '}'] <:+: s

/-- No closing delimiter begins in the text, whatever follows it. -/
def Inert (s : Text) : Prop :=
  ∀ rest, TokenRun.tag (s ++ rest) = TokenRun.prepend s.reverse (TokenRun.tag rest)

/-! ## Closing delimiters -/

theorem not_closes_nil : ¬Closes [] := by
  intro h
  simp [Closes] at h

theorem closes_cons_iff {c : Char} {s : Text} :
    Closes (c :: s) ↔ (c = '$' ∧ ∃ t, s = '}' :: t) ∨ Closes s := by
  unfold Closes
  rw [List.infix_cons_iff, List.cons_prefix_cons, List.prefix_iff_eq_append]
  constructor
  · rintro (⟨rfl, h⟩ | h)
    · exact .inl ⟨rfl, _, h.symm⟩
    · exact .inr h
  · rintro (⟨rfl, t, rfl⟩ | h)
    · exact .inl ⟨rfl, rfl⟩
    · exact .inr h

theorem Closes.cons {s : Text} (h : Closes s) (c : Char) : Closes (c :: s) :=
  closes_cons_iff.2 (.inr h)

theorem Closes.of_cons_of_ne {c : Char} {s : Text} (h : Closes (c :: s)) (hc : c ≠ '$') :
    Closes s :=
  (closes_cons_iff.1 h).resolve_left fun hp => hc hp.1

theorem Closes.mono {s t : Text} (h : Closes s) (hst : s <:+: t) : Closes t :=
  List.IsInfix.trans h hst

theorem afterClosing?_pair (rest : Text) :
    Delimiter.afterClosing? ('$' :: '}' :: rest) = some rest := by
  simp [Delimiter.afterClosing?, Delimiter.after?, Delimiter.isBlank, Delimiter.isGap]

namespace TokenRun

theorem tag_content_isPrefix (s : Text) : (tag s).content <+: s := by
  induction s with
  | nil => simp [tag_nil]
  | cons c s ih =>
    cases h : Delimiter.afterClosing? (c :: s) with
    | some rest =>
      rw [tag_of_closing h]
      exact List.nil_prefix
    | none =>
      rw [tag_cons h]
      exact (List.cons_prefix_cons).2 ⟨rfl, ih⟩

/-- What a tag says before its closing delimiter, or before the end of the template. -/
theorem not_closes_tag_content (s : Text) : ¬Closes (tag s).content := by
  induction s with
  | nil => exact not_closes_nil
  | cons c s ih =>
    cases h : Delimiter.afterClosing? (c :: s) with
    | some rest =>
      rw [tag_of_closing h]
      exact not_closes_nil
    | none =>
      rw [tag_cons h]
      intro hc
      rcases closes_cons_iff.1 hc with ⟨rfl, t, ht⟩ | hc
      · have hp := tag_content_isPrefix s
        rw [show (tag s).content = '}' :: t from ht] at hp
        obtain ⟨r, rfl⟩ := hp
        rw [List.cons_append, afterClosing?_pair] at h
        cases h
      · exact ih hc

end TokenRun

/-! ## Inert texts -/

theorem inert_nil : Inert [] := by
  intro rest
  simp [TokenRun.prepend]

theorem Inert.append {s t : Text} (hs : Inert s) (ht : Inert t) : Inert (s ++ t) := by
  intro rest
  rw [List.append_assoc, hs, ht]
  simp [TokenRun.prepend]

theorem Inert.cons {c : Char} {s : Text} (hs : Inert s)
    (hc : ∀ rest, Delimiter.afterClosing? (c :: (s ++ rest)) = none) : Inert (c :: s) := by
  intro rest
  rw [List.cons_append, TokenRun.tag_cons (hc rest), hs]
  simp [TokenRun.prepend]

theorem Inert.cons_of_ne {c : Char} {s : Text} (hs : Inert s) (hc : c ≠ '$') : Inert (c :: s) :=
  hs.cons fun _ => Delimiter.after?_eq_none_of_ne _ hc

theorem inert_of_not_mem {s : Text} (h : '$' ∉ s) : Inert s := by
  induction s with
  | nil => exact inert_nil
  | cons c s ih =>
    rw [List.mem_cons, not_or] at h
    exact (ih h.2).cons_of_ne (Ne.symm h.1)

/-- A tag run over an inert text and a closing delimiter says the text. -/
theorem Inert.tag {s : Text} (h : Inert s) (rest : Text) :
    TokenRun.tag (s ++ '$' :: '}' :: rest) = ⟨s, '$' :: '}' :: rest, .delimiter rest⟩ := by
  rw [h, TokenRun.tag_of_closing (afterClosing?_pair rest)]
  simp [TokenRun.prepend]

end PageTemplate
