import Mathlib.Data.List.Infix
import PageTemplate.Element.Chunk

/-! Tag bodies out of chunks. Whole chunks with a space between each two are split into the
same chunks again, and every chunk of a body is a part of it. -/
namespace PageTemplate

namespace Text

theorem trimStart_eq_self {s : Text} (h : ∀ c ∈ s.head?, isSpace c = false) :
    trimStart s = s := by
  cases s with
  | nil => rfl
  | cons c s =>
    have hc := h c rfl
    simp [trimStart, hc]

theorem trimEnd_eq_self {s : Text} (h : ∀ c ∈ s.getLast?, isSpace c = false) :
    trimEnd s = s := by
  have hr : trimStart s.reverse = s.reverse := by
    apply trimStart_eq_self
    rwa [List.head?_reverse]
  rw [trimEnd, ← trimStart, hr, List.reverse_reverse]

theorem trim_eq_self {s : Text} (hh : ∀ c ∈ s.head?, isSpace c = false)
    (hl : ∀ c ∈ s.getLast?, isSpace c = false) : trim s = s := by
  rw [trim, trimStart_eq_self hh, trimEnd_eq_self hl]

theorem trim_space_cons {c : Char} (h : isSpace c) (s : Text) : trim (c :: s) = trim s := by
  simp [trim, trimStart, h]

theorem trim_append_space (s : Text) {c : Char} (h : isSpace c) : trim (s ++ [c]) = trim s := by
  unfold trim trimStart
  rw [List.dropWhile_append]
  split
  · rename_i hs
    rw [List.isEmpty_iff] at hs
    simp [hs, h]
  · exact trimEnd_append_space _ h

/-- A text that is not empty and has no white space at its two ends. -/
structure Tight (w : Text) : Prop where
  ne_nil : w ≠ []
  head : ∀ c ∈ w.head?, isSpace c = false
  last : ∀ c ∈ w.getLast?, isSpace c = false

theorem tight_of_forall {w : Text} (hne : w ≠ []) (h : ∀ c ∈ w, isSpace c = false) : Tight w :=
  ⟨hne, fun _ hc => h _ (List.mem_of_mem_head? hc), fun _ hc => h _ (List.mem_of_getLast? hc)⟩

theorem tight_quotes (s : Text) : Tight ('"' :: s ++ ['"']) where
  ne_nil := List.cons_ne_nil _ _
  head := by
    intro c hc
    obtain rfl : c = '"' := by simpa [eq_comm] using hc
    decide
  last := by
    intro c hc
    rw [List.getLast?_concat] at hc
    cases hc
    decide

theorem trim_isInfix (s : Text) : trim s <:+: s := by
  have hstart : trimStart s <:+ s := List.dropWhile_suffix _
  have hend : trimEnd (trimStart s) <+: trimStart s := by
    rw [trimEnd, ← List.reverse_suffix, List.reverse_reverse]
    exact List.dropWhile_suffix _
  exact hend.isInfix.trans hstart.isInfix

end Text

namespace Chunk

/-! ## Chunks are parts -/

/-- The chunk so far. -/
def Pending.text : Pending → Text
  | .nothing => []
  | .word said => said.reverse
  | .string said => said.reverse

/-- The chunk that ends, or one of those after it. -/
theorem infix_of_mem_cons {v w s t : Text} {ws : List Text} (h : w ∈ v :: ws)
    (hws : w ∈ ws → w <:+: s) : w <:+: v ++ t ++ s := by
  rcases List.mem_cons.1 h with rfl | h
  · exact (List.prefix_append w t).isInfix.trans (List.prefix_append _ s).isInfix
  · exact (hws h).trans (List.suffix_append _ s).isInfix

theorem infix_of_mem_splitFrom {p : Pending} {s w : Text} (h : w ∈ splitFrom p s) :
    w <:+: p.text ++ s := by
  revert h
  fun_induction splitFrom p s with
  | case1 =>
    intro h
    cases h
  | case2 said =>
    intro h
    simp [Pending.text, List.mem_singleton.1 h]
  | case3 said =>
    intro h
    simp [Pending.text, List.mem_singleton.1 h]
  | case4 c s hc ih =>
    intro h
    exact (ih h).trans (List.suffix_cons c s).isInfix
  | case5 s hc ih => simpa [Pending.text] using ih
  | case6 c s hc hq ih => simpa [Pending.text] using ih
  | case7 said c s hc ih =>
    intro h
    simpa [Pending.text] using infix_of_mem_cons (t := [c]) h ih
  | case8 said c s hc ih => simpa [Pending.text] using ih
  | case9 said d s ih => simpa [Pending.text] using ih
  | case10 said s hb ih =>
    intro h
    simpa [Pending.text] using infix_of_mem_cons (t := []) h ih
  | case11 said c s hb hq ih => simpa [Pending.text] using ih

theorem infix_of_mem_split {w body : Text} (h : w ∈ split body) : w <:+: body :=
  infix_of_mem_splitFrom h

/-! ## Whole chunks -/

/-- White space or the end of the body. -/
def Ends (s : Text) : Prop := ∀ c ∈ s.head?, Text.isSpace c

/-- A chunk that is split off whole, with no white space at its two ends. -/
structure IsWhole (w : Text) : Prop extends Text.Tight w where
  split : ∀ rest, Ends rest → split (w ++ rest) = w :: split rest

theorem splitFrom_word (said : Text) {w rest : Text} (hw : ∀ c ∈ w, Text.isSpace c = false)
    (h : Ends rest) : splitFrom (.word said) (w ++ rest) = (said.reverse ++ w) :: split rest := by
  induction w generalizing said with
  | nil =>
    cases rest with
    | nil => simp [splitFrom, split]
    | cons c rest =>
      have hc := h c rfl
      simp [splitFrom_word_space said hc, split, splitFrom_space hc]
  | cons c w ih =>
    have hc := hw c (by simp)
    rw [List.cons_append, splitFrom]
    simp only [hc, Bool.false_eq_true, if_false]
    rw [ih _ fun d hd => hw d (by simp [hd])]
    simp

/-- A run without white space and without a quote at its start. -/
theorem isWhole_word {c : Char} {w : Text} (hq : c ≠ '"')
    (hw : ∀ d ∈ c :: w, Text.isSpace d = false) : IsWhole (c :: w) where
  toTight := Text.tight_of_forall (List.cons_ne_nil c w) hw
  split := by
    intro rest hrest
    have hc := hw c (by simp)
    rw [List.cons_append, split, splitFrom]
    simp only [hc, hq, Bool.false_eq_true, if_false]
    exact splitFrom_word [c] (fun d hd => hw d (by simp [hd])) hrest

/-! ## Bodies -/

/-- The chunks with a space between each two. -/
def unsplit : List Text → Text
  | [] => []
  | w :: ws => w ++ ws.flatMap (' ' :: ·)

theorem unsplit_cons_cons (v w : Text) (ws : List Text) :
    unsplit (v :: w :: ws) = v ++ ' ' :: unsplit (w :: ws) := by
  simp [unsplit]

theorem split_unsplit_append {ws : List Text} {rest : Text} (hws : ∀ w ∈ ws, IsWhole w)
    (h : Ends rest) : split (unsplit ws ++ rest) = ws ++ split rest := by
  induction ws with
  | nil => rfl
  | cons v ws ih =>
    have hv := hws v (by simp)
    have hws := fun w hw => hws w (List.mem_cons_of_mem v hw)
    cases ws with
    | nil => simp [unsplit, hv.split rest h]
    | cons w ws =>
      have hspace : Ends (' ' :: (unsplit (w :: ws) ++ rest)) := by
        intro c hc
        cases hc
        decide
      rw [unsplit_cons_cons, List.append_assoc, List.cons_append, hv.split _ hspace, split,
        splitFrom_space (by decide), ← split, ih hws]
      rfl

theorem split_unsplit {ws : List Text} (h : ∀ w ∈ ws, IsWhole w) : split (unsplit ws) = ws := by
  have hend : Ends [] := by
    intro c hc
    cases hc
  have hs := split_unsplit_append h hend
  simpa [split, splitFrom] using hs

theorem unsplit_head {ws : List Text} (h : ∀ w ∈ ws, Text.Tight w) :
    ∀ c ∈ (unsplit ws).head?, Text.isSpace c = false := by
  cases ws with
  | nil => simp [unsplit]
  | cons w ws =>
    have hw := h w (by simp)
    intro c hc
    rw [unsplit, List.head?_append_of_ne_nil _ hw.ne_nil] at hc
    exact hw.head c hc

theorem unsplit_last {ws : List Text} (h : ∀ w ∈ ws, Text.Tight w) :
    ∀ c ∈ (unsplit ws).getLast?, Text.isSpace c = false := by
  induction ws with
  | nil => simp [unsplit]
  | cons v ws ih =>
    cases ws with
    | nil => simpa [unsplit] using (h v (by simp)).last
    | cons w ws =>
      have hne : unsplit (w :: ws) ≠ [] := by simp [unsplit, (h w (by simp)).ne_nil]
      intro c hc
      rw [unsplit_cons_cons, List.getLast?_append_of_ne_nil _ (by simp),
        List.getLast?_cons_of_ne_nil hne] at hc
      exact ih (fun u hu => h u (List.mem_cons_of_mem v hu)) c hc

theorem trim_unsplit {ws : List Text} (h : ∀ w ∈ ws, Text.Tight w) :
    Text.trim (unsplit ws) = unsplit ws :=
  Text.trim_eq_self (unsplit_head h) (unsplit_last h)

end Chunk
end PageTemplate
