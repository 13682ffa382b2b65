import PageTemplate.Proofs.Element.Grammar
import PageTemplate.Proofs.Element.Quoted

/-! Strings that no quote closes. Such a string goes on to the end of the tag body and is its last
chunk, and it is a string element only if the body ends with a quote that a backslash protects. -/
namespace PageTemplate.Chunk

/-! ## Where a string ends -/

/-- A text behind a quote in which no quote closes the string. -/
def Open (r : Text) : Prop := ¬∃ inner rest, Inside inner ∧ r = inner ++ '"' :: rest

/-- A text whose last two characters are a backslash and the quote that it protects. -/
def EndsProtected (r : Text) : Prop := ∃ inner, Inside inner ∧ r = inner ++ ['\\', '"']

namespace Inside

theorem append {s t : Text} (hs : Inside s) (ht : Inside t) : Inside (s ++ t) := by
  induction hs with
  | nil => exact ht
  | char hb hq h ih => exact .char hb hq ih
  | pair c h ih => exact .pair c ih

theorem isOpen {s : Text} (h : Inside s) : Open s := by
  rintro ⟨inner, rest, hinner, rfl⟩
  induction hinner with
  | nil =>
    cases h with
    | char hb hq h => exact hq rfl
  | char hb hq hinner ih =>
    rw [List.cons_append] at h
    generalize hs : _ ++ '"' :: rest = s at h ih
    cases h with
    | char hb hq h => exact ih h
    | pair c h => exact hb rfl
  | pair c hinner ih =>
    rw [List.cons_append, List.cons_append] at h
    cases h with
    | char hb hq h => exact hb rfl
    | pair c h => exact ih h

/-- A quote at the end of what stands between quotes is protected. -/
theorem endsProtected {s : Text} (h : Inside s) (hlast : s.getLast? = some '"') :
    EndsProtected s := by
  induction h with
  | nil => cases hlast
  | @char c s hb hq h ih =>
    have hne : s ≠ [] := by
      rintro rfl
      exact hq (by simpa using hlast)
    obtain ⟨inner, hinner, rfl⟩ := ih (by rwa [List.getLast?_cons_of_ne_nil hne] at hlast)
    exact ⟨c :: inner, .char hb hq hinner, rfl⟩
  | @pair c s h ih =>
    by_cases hne : s = []
    · subst hne
      obtain rfl : c = '"' := by simpa using hlast
      exact ⟨[], .nil, rfl⟩
    · rw [List.getLast?_cons_of_ne_nil (List.cons_ne_nil c s),
        List.getLast?_cons_of_ne_nil hne] at hlast
      obtain ⟨inner, hinner, rfl⟩ := ih hlast
      exact ⟨'\\' :: c :: inner, .pair c hinner, rfl⟩

end Inside

theorem EndsProtected.inside {r : Text} (h : EndsProtected r) : Inside r := by
  obtain ⟨inner, hinner, rfl⟩ := h
  exact hinner.append (.pair '"' .nil)

/-- An open string is what stands between quotes, but for a backslash at its end that protects
nothing. -/
theorem inside_or_backslash {r : Text} (h : Open r) :
    Inside r ∨ r.getLast? = some '\\' := by
  induction hn : r.length using Nat.strong_induction_on generalizing r with
  | h n ih =>
    rcases r with _ | ⟨c, s⟩
    · exact .inl .nil
    · by_cases hb : c = '\\'
      · subst hb
        rcases s with _ | ⟨d, s⟩
        · exact .inr rfl
        · have hs : Open s := by
            rintro ⟨inner, rest, hinner, rfl⟩
            exact h ⟨'\\' :: d :: inner, rest, .pair d hinner, rfl⟩
          rcases ih s.length (by simp [← hn]) hs rfl with hs | hlast
          · exact .inl (.pair d hs)
          · exact .inr (by simp [List.getLast?_cons, hlast])
      · have hq : c ≠ '"' := by
          rintro rfl
          exact h ⟨[], s, .nil, rfl⟩
        have hs : Open s := by
          rintro ⟨inner, rest, hinner, rfl⟩
          exact h ⟨c :: inner, rest, .char hb hq hinner, rfl⟩
        rcases ih s.length (by simp [← hn]) hs rfl with hs | hlast
        · exact .inl (.char hb hq hs)
        · exact .inr (by simp [List.getLast?_cons, hlast])

/-- The last character of an open string is a quote only if it is protected. -/
theorem endsProtected_iff {r : Text} (h : Open r) :
    r.getLast? = some '"' ↔ EndsProtected r := by
  constructor
  · intro hlast
    rcases inside_or_backslash h with hinside | hbackslash
    · exact hinside.endsProtected hlast
    · rw [hlast] at hbackslash
      cases hbackslash
  · rintro ⟨inner, -, rfl⟩
    simp

/-! ## Where a chunk begins -/

/-- A beginning of a tag body behind which a chunk may begin: white space, words with white space
behind them, and closed strings. -/
inductive Before : Text → Prop
  | nil : Before []
  | space {c : Char} {s : Text} (hc : Text.isSpace c) (h : Before s) : Before (c :: s)
  | word {c d : Char} {w s : Text} (hq : c ≠ '"') (hw : ∀ e ∈ c :: w, Text.isSpace e = false)
      (hd : Text.isSpace d) (h : Before s) : Before (c :: w ++ d :: s)
  | string {inner s : Text} (hinner : Inside inner) (h : Before s) :
      Before ('"' :: (inner ++ '"' :: s))

/-- A quote at the start of a chunk opens a string that nothing in the body closes; `r` is what
follows the quote. -/
def LeftOpen (body r : Text) : Prop := ∃ before, Before before ∧ body = before ++ '"' :: r ∧ Open r

/-- A string with both of its quotes. -/
def IsClosed (w : Text) : Prop := ∃ inner, Inside inner ∧ w = '"' :: inner ++ ['"']

theorem split_closed {inner : Text} (h : Inside inner) (rest : Text) :
    split ('"' :: (inner ++ '"' :: rest)) = ('"' :: inner ++ ['"']) :: split rest := by
  rw [split_quote, splitFrom_inside _ h]
  rfl

theorem split_open {r : Text} (h : Open r) : split ('"' :: r) = ['"' :: r] := by
  rw [split_quote]
  exact (closed_or_open ['"'] r).resolve_left h

theorem split_space {c : Char} (hc : Text.isSpace c) (s : Text) : split (c :: s) = split s :=
  splitFrom_space hc s

theorem Before.split_append {before : Text} (h : Before before) (t : Text) :
    split (before ++ t) = split before ++ split t := by
  induction h with
  | nil => rfl
  | space hc h ih => rw [List.cons_append, split_space hc, split_space hc, ih]
  | @word c d w s hq hw hd h ih =>
    have hends (u : Text) : Ends (d :: u) := by
      intro e he
      cases he
      exact hd
    rw [List.append_assoc, List.cons_append (a := d), (isWhole_word hq hw).split _ (hends _),
      (isWhole_word hq hw).split _ (hends _), split_space hd, split_space hd, ih]
    rfl
  | @string inner s hinner h ih =>
    have happend : '"' :: (inner ++ '"' :: s) ++ t = '"' :: (inner ++ '"' :: (s ++ t)) := by simp
    rw [happend, split_closed hinner, split_closed hinner, ih]
    rfl

/-- The string that is left open is the last chunk. -/
theorem LeftOpen.split {body r : Text} (h : LeftOpen body r) :
    ∃ chunks, Chunk.split body = chunks ++ ['"' :: r] := by
  obtain ⟨before, hbefore, rfl, hopen⟩ := h
  exact ⟨Chunk.split before, by rw [hbefore.split_append, split_open hopen]⟩

/-- A run without white space that no quote begins is one chunk, unless it is empty. -/
theorem split_word {w : Text} (hq : w.head? ≠ some '"') (hw : ∀ c ∈ w, Text.isSpace c = false) :
    split w = [] ∨ split w = [w] := by
  rcases w with _ | ⟨c, w⟩
  · exact .inl rfl
  · have hsplit := (isWhole_word (by simpa using hq) hw).split [] (by simp [Ends])
    rw [List.append_nil] at hsplit
    exact .inr hsplit

/-- A body is a beginning behind which a chunk begins, and its last chunk if that does not end with
a quote: a word, or a string that is left open. -/
theorem exists_before (body : Text) :
    ∃ before last, Before before ∧ body = before ++ last ∧
      (last.head? ≠ some '"' ∧ (∀ c ∈ last, Text.isSpace c = false) ∨
        ∃ r, Open r ∧ last = '"' :: r) := by
  induction hn : body.length using Nat.strong_induction_on generalizing body with
  | h n ih =>
    rcases body with _ | ⟨c, s⟩
    · exact ⟨[], [], .nil, rfl, .inl ⟨nofun, by simp⟩⟩
    by_cases hc : Text.isSpace c
    · obtain ⟨before, last, hbefore, rfl, hlast⟩ := ih s.length (by simp [← hn]) s rfl
      exact ⟨c :: before, last, .space hc hbefore, rfl, hlast⟩
    by_cases hq : c = '"'
    · subst hq
      by_cases hopen : Open s
      · exact ⟨[], '"' :: s, .nil, rfl, .inr ⟨s, hopen, rfl⟩⟩
      · obtain ⟨inner, rest, hinner, rfl⟩ := not_not.1 hopen
        obtain ⟨before, last, hbefore, rfl, hlast⟩ :=
          ih rest.length (by simp [← hn]; omega) rest rfl
        exact ⟨_, last, .string hinner hbefore, by simp, hlast⟩
    · have hword : ∀ d ∈ c :: s.takeWhile (!Text.isSpace ·), Text.isSpace d = false := by
        rw [List.forall_mem_cons]
        exact ⟨by simpa using hc, fun d hd => by simpa using List.mem_takeWhile_imp hd⟩
      have hcut := List.takeWhile_append_dropWhile (p := (!Text.isSpace ·)) (l := s)
      have hhead := List.head?_dropWhile_not (!Text.isSpace ·) s
      generalize s.takeWhile (!Text.isSpace ·) = w at hword hcut
      generalize s.dropWhile (!Text.isSpace ·) = rest at hcut hhead
      subst hcut
      rcases rest with _ | ⟨d, rest⟩
      · rw [List.append_nil]
        exact ⟨[], c :: w, .nil, rfl, .inl ⟨by simpa using hq, hword⟩⟩
      · have hd : Text.isSpace d := by simpa using hhead
        obtain ⟨before, last, hbefore, rfl, hlast⟩ :=
          ih rest.length (by simp [← hn]; omega) rest rfl
        exact ⟨_, last, .word hq hword hd hbefore, by simp, hlast⟩

theorem Before.mem_split {before w : Text} (h : Before before) (hw : w ∈ split before) :
    w.head? ≠ some '"' ∨ IsClosed w := by
  induction h with
  | nil => cases hw
  | space hc h ih => exact ih (split_space hc _ ▸ hw)
  | @word c d v s hq hv hd h ih =>
    have hends : Ends (d :: s) := by
      intro e he
      cases he
      exact hd
    rw [(isWhole_word hq hv).split _ hends, split_space hd] at hw
    rcases List.mem_cons.1 hw with rfl | hw
    · exact .inl (by simpa using hq)
    · exact ih hw
  | @string inner s hinner h ih =>
    rw [split_closed hinner] at hw
    rcases List.mem_cons.1 hw with rfl | hw
    · exact .inr ⟨inner, hinner, rfl⟩
    · exact ih hw

/-- A string that is left open with a protected quote at its end can still be closed. -/
theorem LeftOpen.split_closed {body r : Text} (h : LeftOpen body r) (hends : EndsProtected r) :
    ∃ chunks, Chunk.split body = chunks ++ ['"' :: r] ∧
      Chunk.split (body ++ ['"']) = chunks ++ ['"' :: r ++ ['"']] := by
  obtain ⟨before, hbefore, rfl, hopen⟩ := h
  refine ⟨Chunk.split before, by rw [hbefore.split_append, split_open hopen], ?_⟩
  rw [List.append_assoc, List.cons_append, hbefore.split_append, Chunk.split_closed hends.inside]
  rfl

/-- A chunk is a word, a closed string, or the string that is left open. -/
theorem mem_split_cases {body w : Text} (h : w ∈ split body) :
    w.head? ≠ some '"' ∨ IsClosed w ∨ ∃ r, LeftOpen body r ∧ w = '"' :: r := by
  obtain ⟨before, last, hbefore, rfl, hlast⟩ := exists_before body
  rw [hbefore.split_append, List.mem_append] at h
  rcases h with h | h
  · exact (hbefore.mem_split h).imp_right .inl
  · rcases hlast with ⟨hhead, hspace⟩ | ⟨r, hopen, rfl⟩
    · rcases split_word hhead hspace with hnil | hself
      · rw [hnil] at h
        cases h
      · rw [hself, List.mem_singleton] at h
        exact .inl (h ▸ hhead)
    · rw [split_open hopen, List.mem_singleton] at h
      exact .inr (.inr ⟨r, ⟨before, hbefore, rfl, hopen⟩, h⟩)

end PageTemplate.Chunk

namespace PageTemplate.Element

open Chunk

/-- A string element comes from what begins and ends with a quote. -/
theorem reads_quote_iff {r : Text} {e : Element} : Reads ('"' :: r) e ↔
    r.getLast? = some '"' ∧ e = .operand (.const (.str (Literal.unescape r.dropLast))) := by
  simp only [← ofChunk?_eq_some_iff, ofChunk?_quote, Literal.toText?]
  split <;> simp_all [eq_comm]

/-- An open string is an element only if a protected quote stands at its end. -/
theorem exists_reads_open_iff {r : Text} (h : Open r) :
    (∃ e, Reads ('"' :: r) e) ↔ EndsProtected r := by
  simp only [reads_quote_iff, endsProtected_iff h, exists_and_left, exists_eq, and_true]

theorem Reads.head_of_str {w s : Text} (h : Reads w (.operand (.const (.str s)))) :
    ∃ r, w = '"' :: r := by
  cases h with
  | str inner => exact ⟨_, rfl⟩

end PageTemplate.Element
