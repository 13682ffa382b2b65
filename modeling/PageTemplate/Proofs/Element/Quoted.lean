import PageTemplate.Proofs.Element.Chunk
import PageTemplate.Proofs.Element.Literal

/-! Where a string in a tag body ends. The quote that opens it stands at the start of a chunk,
and the first later quote that no backslash protects closes it and the chunk. -/
namespace PageTemplate.Chunk

/-- What may stand between the quotes of a string: no quote, unless a backslash stands before it
that protects it. -/
inductive Inside : Text → Prop
  | nil : Inside []
  | char {c : Char} {s : Text} (hb : c ≠ '\\') (hq : c ≠ '"') (h : Inside s) : Inside (c :: s)
  | pair (c : Char) {s : Text} (h : Inside s) : Inside ('\\' :: c :: s)

/-- A string that is closed before the end of the text. -/
def ClosesEarly (s : Text) : Prop :=
  ∃ inner rest, Inside inner ∧ rest ≠ [] ∧ s = '"' :: (inner ++ '"' :: rest)

theorem splitFrom_inside (said : Text) {inner : Text} (h : Inside inner) (rest : Text) :
    splitFrom (.string said) (inner ++ '"' :: rest) =
      (said.reverse ++ inner ++ ['"']) :: split rest := by
  induction h generalizing said with
  | nil => simp [splitFrom_string_quote, split]
  | char hb hq h ih =>
    rw [List.cons_append, splitFrom_string_other said hb hq, ih]
    simp
  | pair c h ih =>
    rw [List.cons_append, List.cons_append, splitFrom_string_escaped, ih]
    simp

/-- An open string is closed somewhere, or it goes on to the end of the body. -/
theorem closed_or_open (said s : Text) :
    (∃ inner rest, Inside inner ∧ s = inner ++ '"' :: rest) ∨
      splitFrom (.string said) s = [said.reverse ++ s] := by
  generalize hp : Pending.string said = p
  fun_induction splitFrom p s generalizing said with
  | case3 said' =>
    cases hp
    exact .inr (by simp)
  | case9 said' d s ih =>
    cases hp
    rcases ih _ rfl with ⟨inner, rest, hinner, rfl⟩ | hopen
    · exact .inl ⟨'\\' :: d :: inner, rest, .pair d hinner, rfl⟩
    · exact .inr (by simp [hopen])
  | case10 said' s hb ih => exact .inl ⟨[], s, .nil, rfl⟩
  | case11 said' c s hb hq ih =>
    cases hp
    rcases ih _ rfl with ⟨inner, rest, hinner, rfl⟩ | hopen
    · -- a backslash here would have something to protect
      have hc : c ≠ '\\' := by
        intro hc
        obtain ⟨d, t, ht⟩ := List.exists_cons_of_ne_nil (List.append_ne_nil_of_right_ne_nil inner
          (List.cons_ne_nil '"' rest))
        exact hb d t hc ht
      exact .inl ⟨c :: inner, rest, .char hc hq hinner, rfl⟩
    · exact .inr (by simp [hopen])
  | _ => cases hp

/-! ## Bodies without white space -/

/-- Without white space nothing of a body is left out of its chunks. -/
theorem flatten_splitFrom {p : Pending} {s : Text} (h : ∀ c ∈ s, Text.isSpace c = false) :
    (splitFrom p s).flatten = p.text ++ s := by
  fun_induction splitFrom p s with
  | case1 => rfl
  | case2 said => simp [Pending.text]
  | case3 said => simp [Pending.text]
  | case4 c s hc ih => simp [h c] at hc
  | case5 s hc ih => simpa [Pending.text] using ih fun d hd => h d (by simp [hd])
  | case6 c s hc hq ih => simpa [Pending.text] using ih fun d hd => h d (by simp [hd])
  | case7 said c s hc ih => simp [h c] at hc
  | case8 said c s hc ih => simpa [Pending.text] using ih fun d hd => h d (by simp [hd])
  | case9 said d s ih => simpa [Pending.text] using ih fun e he => h e (by simp [he])
  | case10 said s hb ih => simpa [Pending.text] using ih fun d hd => h d (by simp [hd])
  | case11 said c s hb hq ih => simpa [Pending.text] using ih fun d hd => h d (by simp [hd])

theorem flatten_split {s : Text} (h : ∀ c ∈ s, Text.isSpace c = false) : (split s).flatten = s :=
  flatten_splitFrom h

/-- A text without white space is one chunk, unless it is a string with something behind it. -/
theorem split_eq_singleton_iff {s : Text} (hne : s ≠ []) (h : ∀ c ∈ s, Text.isSpace c = false) :
    split s = [s] ↔ ¬ClosesEarly s := by
  constructor
  · rintro hs ⟨inner, rest, hinner, hrest, rfl⟩
    rw [split_quote, splitFrom_inside _ hinner] at hs
    have hflat := flatten_split (s := rest) fun c hc => h c (by simp [hc])
    rw [(List.cons.inj hs).2] at hflat
    exact hrest hflat.symm
  · intro hearly
    obtain ⟨c, r, rfl⟩ := List.exists_cons_of_ne_nil hne
    by_cases hq : c = '"'
    · subst hq
      rw [split_quote]
      rcases closed_or_open ['"'] r with ⟨inner, rest, hinner, rfl⟩ | hopen
      · have hrest : rest = [] := by
          by_contra hrest
          exact hearly ⟨inner, rest, hinner, hrest, rfl⟩
        rw [hrest, splitFrom_inside _ hinner]
        rfl
      · exact hopen
    · have hw := (isWhole_word hq h).split [] (by simp [Ends])
      rwa [List.append_nil] at hw

end PageTemplate.Chunk
