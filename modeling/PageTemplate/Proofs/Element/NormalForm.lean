import PageTemplate.Proofs.Element.OpenString

/-! The chunks of a tag body as its normal form. A body is its chunks in order with nothing but
white space around them, and the rules that tell where a chunk ends leave no choice. So the chunks
with one space between each two are split into the same chunks again. -/
namespace PageTemplate.Chunk

/-- A run without white space that no quote begins. -/
structure IsWord (w : Text) : Prop where
  ne_nil : w ≠ []
  head : w.head? ≠ some '"'
  spaceless : ∀ c ∈ w, Text.isSpace c = false

/-- The chunks that a body consists of. A word goes on to white space or to the end of the body, a
string goes on to its closing quote, and what is left open goes on to the end. -/
inductive Parts : Text → List Text → Prop
  | nil : Parts [] []
  | space {c : Char} {s : Text} {ws : List Text} (hc : Text.isSpace c) (h : Parts s ws) :
      Parts (c :: s) ws
  | word {w s : Text} {ws : List Text} (hw : IsWord w) (hends : Ends s) (h : Parts s ws) :
      Parts (w ++ s) (w :: ws)
  | closed {w s : Text} {ws : List Text} (hw : IsClosed w) (h : Parts s ws) :
      Parts (w ++ s) (w :: ws)
  | opened {r : Text} (hopen : Open r) : Parts ('"' :: r) ['"' :: r]

/-- Words in order with white space around them, and nothing else. -/
inductive Laid : List Text → Text → Prop
  | blank {s : Text} (hs : ∀ c ∈ s, Text.isSpace c) : Laid [] s
  | chunk {gap w s : Text} {ws : List Text} (hgap : ∀ c ∈ gap, Text.isSpace c) (h : Laid ws s) :
      Laid (w :: ws) (gap ++ (w ++ s))

/-! ## Splitting finds the parts -/

theorem IsWord.isWhole {w : Text} (h : IsWord w) : IsWhole w := by
  obtain ⟨c, w, rfl⟩ := List.exists_cons_of_ne_nil h.ne_nil
  exact isWhole_word (by simpa using h.head) h.spaceless

theorem Parts.split_eq {body : Text} {ws : List Text} (h : Parts body ws) :
    split body = ws := by
  induction h with
  | nil => rfl
  | space hc h ih => rw [split_space hc, ih]
  | word hw hends h ih => rw [hw.isWhole.split _ hends, ih]
  | closed hw h ih =>
    obtain ⟨inner, hinner, rfl⟩ := hw
    rw [List.append_assoc, List.cons_append, List.singleton_append, split_closed hinner, ih]
  | opened hopen => exact split_open hopen

theorem Before.parts_append {before s : Text} {ws : List Text} (hbefore : Before before)
    (h : Parts s ws) : ∃ vs, Parts (before ++ s) (vs ++ ws) := by
  induction hbefore with
  | nil => exact ⟨[], h⟩
  | space hc hbefore ih =>
    obtain ⟨vs, hvs⟩ := ih
    exact ⟨vs, .space hc hvs⟩
  | @word c d w t hq hw hd hbefore ih =>
    obtain ⟨vs, hvs⟩ := ih
    have hword : IsWord (c :: w) := ⟨List.cons_ne_nil c w, by simpa using hq, hw⟩
    have hends : Ends (d :: (t ++ s)) := by
      intro e he
      cases he
      exact hd
    refine ⟨(c :: w) :: vs, ?_⟩
    rw [List.append_assoc]
    exact .word hword hends (.space hd hvs)
  | @string inner t hinner hbefore ih =>
    obtain ⟨vs, hvs⟩ := ih
    refine ⟨('"' :: inner ++ ['"']) :: vs, ?_⟩
    simpa using Parts.closed ⟨inner, hinner, rfl⟩ hvs

theorem exists_parts (body : Text) : ∃ ws, Parts body ws := by
  obtain ⟨before, last, hbefore, rfl, hlast⟩ := exists_before body
  have hparts : ∃ ws, Parts last ws := by
    rcases hlast with ⟨hhead, hspace⟩ | ⟨r, hopen, rfl⟩
    · by_cases hnil : last = []
      · exact ⟨[], hnil ▸ .nil⟩
      · have hends : Ends [] := by simp [Ends]
        have hword := Parts.word ⟨hnil, hhead, hspace⟩ hends .nil
        exact ⟨[last], by rwa [List.append_nil] at hword⟩
    · exact ⟨_, .opened hopen⟩
  obtain ⟨ws, hws⟩ := hparts
  obtain ⟨vs, hvs⟩ := hbefore.parts_append hws
  exact ⟨_, hvs⟩

theorem parts_iff {body : Text} {ws : List Text} : Parts body ws ↔ ws = split body := by
  constructor
  · intro h
    exact h.split_eq.symm
  · rintro rfl
    obtain ⟨ws, h⟩ := exists_parts body
    rwa [h.split_eq]

/-! ## What the parts are like -/

theorem IsClosed.head {w : Text} (h : IsClosed w) : w.head? = some '"' := by
  obtain ⟨inner, -, rfl⟩ := h
  rfl

/-- No chunk is empty, and only a string has white space in it. -/
theorem Parts.shape {body w : Text} {ws : List Text} (h : Parts body ws) (hmem : w ∈ ws) :
    IsWord w ∨ w.head? = some '"' := by
  induction h with
  | nil => cases hmem
  | space hc h ih => exact ih hmem
  | word hw hends h ih =>
    rcases List.mem_cons.1 hmem with rfl | hmem
    · exact .inl hw
    · exact ih hmem
  | closed hw h ih =>
    rcases List.mem_cons.1 hmem with rfl | hmem
    · exact .inr hw.head
    · exact ih hmem
  | opened hopen =>
    rw [List.mem_singleton.1 hmem]
    exact .inr rfl

theorem Laid.space {c : Char} {s : Text} {ws : List Text} (hc : Text.isSpace c)
    (h : Laid ws s) : Laid ws (c :: s) := by
  cases h with
  | blank hs => exact .blank (List.forall_mem_cons.2 ⟨hc, hs⟩)
  | @chunk gap w s ws hgap h => exact .chunk (List.forall_mem_cons.2 ⟨hc, hgap⟩) h

theorem Laid.cons {s : Text} {ws : List Text} (w : Text) (h : Laid ws s) :
    Laid (w :: ws) (w ++ s) := by
  have hgap : ∀ c ∈ ([] : Text), Text.isSpace c := by simp
  exact .chunk hgap h

theorem Parts.laid {body : Text} {ws : List Text} (h : Parts body ws) : Laid ws body := by
  induction h with
  | nil => exact .blank (by simp)
  | space hc h ih => exact ih.space hc
  | word hw hends h ih => exact ih.cons _
  | closed hw h ih => exact ih.cons _
  | @opened r hopen =>
    have hlast : Laid [] [] := .blank (by simp)
    simpa using hlast.cons ('"' :: r)

/-! ## One space between each two -/

theorem ends_space (s : Text) : Ends (' ' :: s) := by
  intro c hc
  cases hc
  decide

/-- A chunk can be put in front with a space behind it if it is a word or a closed string. -/
theorem Parts.unsplit_cons {w : Text} {ws : List Text} (h : Parts (unsplit ws) ws)
    (hw : ∀ s, Ends s → ∀ vs, Parts s vs → Parts (w ++ s) (w :: vs)) :
    Parts (unsplit (w :: ws)) (w :: ws) := by
  cases ws with
  | nil => simpa [unsplit] using hw [] (by simp [Ends]) [] .nil
  | cons v ws =>
    rw [unsplit_cons_cons]
    exact hw _ (ends_space _) _ (.space (by decide) h)

/-- Only the last chunk can be left open, and nothing is put behind it. -/
theorem Parts.parts_unsplit {body : Text} {ws : List Text} (h : Parts body ws) :
    Parts (unsplit ws) ws := by
  induction h with
  | nil => exact .nil
  | space hc h ih => exact ih
  | word hw hends h ih => exact ih.unsplit_cons fun s hs vs hvs => .word hw hs hvs
  | closed hw h ih => exact ih.unsplit_cons fun s hs vs hvs => .closed hw hvs
  | opened hopen => simpa [unsplit] using Parts.opened hopen

/-- Splitting loses nothing but white space. The chunks of a body are the only parts that it has;
none of them is empty, those with white space in them begin with a quote, and they occur in the body
in order with white space around them. With one space between each two they are split into
themselves, whether or not the last one is a string that nothing closes. -/
theorem split_normal_form (body : Text) :
    (∀ ws, Parts body ws ↔ ws = split body) ∧
    (∀ w ∈ split body, w ≠ [] ∧ ((∃ c ∈ w, Text.isSpace c) → w.head? = some '"')) ∧
    Laid (split body) body ∧
    split (unsplit (split body)) = split body := by
  have h : Parts body (split body) := parts_iff.2 rfl
  refine ⟨fun ws => parts_iff, fun w hw => ?_, h.laid, h.parts_unsplit.split_eq⟩
  rcases h.shape hw with hword | hhead
  · refine ⟨hword.ne_nil, ?_⟩
    rintro ⟨c, hc, hspace⟩
    rw [hword.spaceless c hc] at hspace
    cases hspace
  · refine ⟨?_, fun _ => hhead⟩
    rintro rfl
    cases hhead

end PageTemplate.Chunk
