import PageTemplate.Document.Source
import PageTemplate.Proofs.Document.Writable
import PageTemplate.Proofs.Source.Scanner

/-! The tokens of a written document. Its source is scanned into one token for each text, one
for each echo and two for each loop; the empty tag between two texts gives none. -/
namespace PageTemplate

/-! ## Runs -/

theorem afterOpening?_pair (rest : Text) :
    Delimiter.afterOpening? ('{' :: '$' :: rest) = some rest := by
  simp [Delimiter.afterOpening?, Delimiter.after?, Delimiter.isBlank, Delimiter.isGap]

/-- An escaped text says the text, whatever follows it. -/
theorem TokenRun.text_escapeText (s rest : Text) :
    text (escapeText s ++ rest) = prepend s.reverse (text rest) := by
  induction s with
  | nil => simp [escapeText, prepend]
  | cons c s ih =>
    have hcons : escapeText (c :: s) = escapeTextChar c ++ escapeText s := rfl
    rw [hcons, escapeTextChar]
    split
    · rename_i hc
      have hrun := text_escaped (escapeText s ++ rest) (Or.symm hc)
      simp only [List.cons_append, List.nil_append] at hrun ⊢
      rw [hrun, ih]
      simp [prepend]
    · rename_i hc
      rw [not_or] at hc
      have hopen : Delimiter.afterOpening? (c :: (escapeText s ++ rest)) = none :=
        Delimiter.after?_eq_none_of_ne _ hc.2
      simp only [List.cons_append, List.nil_append]
      rw [text_cons hopen hc.1, ih]
      simp [prepend]

namespace Scan

variable {size : Nat}

theorem ofRest_nil : ofRest size .text [] = ⟨[], none⟩ :=
  ofRest_of_finished .text TokenRun.text_nil

theorem ofRest_opening (rest : Text) :
    ofRest size .text ('{' :: '$' :: rest) = ofRest size .tag rest :=
  ofRest_of_delimiter .text (TokenRun.text_of_opening (afterOpening?_pair rest))

/-- A tag that says nothing. -/
theorem ofRest_emptyTag (rest : Text) :
    ofRest size .text (emptyTagSource ++ rest) = ofRest size .text rest := by
  have hrun := TokenRun.tag_of_closing (afterClosing?_pair rest)
  change ofRest size .text ('{' :: '$' :: '$' :: '}' :: rest) = _
  rw [ofRest_opening, ofRest_of_delimiter .tag hrun]
  rfl

theorem ofRest_tag {body : Text} (h : Inert body) (hne : body ≠ []) (rest : Text) :
    ofRest size .text ('{' :: '$' :: (body ++ '$' :: '}' :: rest)) =
      after [.tag (Text.trim body)] (ofRest size .text rest) := by
  rw [ofRest_opening, ofRest_of_delimiter .tag (h.tag rest), emit_of_ne_nil hne]
  rfl

/-- The end of a template, or the start of a tag. -/
def EndsText (s : Text) : Prop := s = [] ∨ ∃ rest, s = '{' :: '$' :: rest

theorem ofRest_text {s rest : Text} (hs : s ≠ []) (h : EndsText rest) :
    ofRest size .text (escapeText s ++ rest) = after [.text s] (ofRest size .text rest) := by
  have hrun := TokenRun.text_escapeText s rest
  rcases h with rfl | ⟨rest, rfl⟩
  · rw [TokenRun.text_nil] at hrun
    rw [ofRest_of_finished .text hrun, ofRest_nil]
    simp [emit_of_ne_nil hs, Mode.token]
  · rw [TokenRun.text_of_opening (afterOpening?_pair rest)] at hrun
    rw [ofRest_of_delimiter .text hrun, ofRest_opening]
    simp [emit_of_ne_nil hs, Mode.token, Mode.other]

end Scan

/-! ## Tag bodies -/

theorem Chunk.inert_unsplit {ws : List Text} (h : ∀ w ∈ ws, Inert w) : Inert (unsplit ws) := by
  induction ws with
  | nil => exact inert_nil
  | cons v ws ih =>
    have hv := h v (by simp)
    have hws := fun w hw => h w (List.mem_cons_of_mem v hw)
    cases ws with
    | nil => simpa [unsplit] using hv
    | cons w ws =>
      rw [unsplit_cons_cons]
      exact hv.append ((ih hws).cons_of_ne (by decide))

/-- The chunks of a written echo. -/
def echoChunks (es : List Element) : List Text := ['='] :: es.map Element.source

/-- The chunks of a written loop head. -/
def LoopHead.chunks (h : LoopHead) : List Text :=
  forWord :: h.name :: h.start.source :: h.stop.source :: h.step.toList.map Operand.source

theorem echoSource_eq (es : List Element) (rest : Text) :
    echoSource es ++ rest =
      '{' :: '$' :: ((Chunk.unsplit (echoChunks es) ++ [' ']) ++ '$' :: '}' :: rest) := by
  simp [echoSource, echoChunks, Chunk.unsplit, List.flatMap_map]

theorem LoopHead.source_eq (h : LoopHead) (rest : Text) :
    h.source ++ rest =
      '{' :: '$' :: ((' ' :: Chunk.unsplit h.chunks ++ [' ']) ++ '$' :: '}' :: rest) := by
  cases hs : h.step <;> simp [source, chunks, Chunk.unsplit, forWord, hs]

/-- A chunk that a written tag may have. -/
def IsWritten (w : Text) : Prop := Chunk.IsWhole w ∧ Inert w

theorem isWritten_of_isPlain {w : Text} (hne : w ≠ []) (h : ∀ c ∈ w, isPlain c) : IsWritten w :=
  ⟨isWhole_of_isPlain hne h, inert_of_isPlain h⟩

theorem Element.isWritten {e : Element} (h : e.Writable) : IsWritten e.source :=
  ⟨isWhole_source h.legible, inert_source h⟩

theorem isWritten_of_mem_echoChunks {es : List Element} (h : ∀ e ∈ es, e.Writable) :
    ∀ w ∈ echoChunks es, IsWritten w := by
  intro w hw
  rcases List.mem_cons.1 hw with rfl | hw
  · exact isWritten_of_isPlain (by decide) (List.all_eq_true.1 (by decide))
  · obtain ⟨e, he, rfl⟩ := List.mem_map.1 hw
    exact Element.isWritten (h e he)

theorem LoopHead.isWritten_of_mem_chunks {head : LoopHead} (h : head.Writable) :
    ∀ w ∈ head.chunks, IsWritten w := by
  intro w hw
  simp only [chunks, List.mem_cons, List.mem_map, Option.mem_toList] at hw
  rcases hw with rfl | rfl | rfl | rfl | ⟨o, ho, rfl⟩
  · exact isWritten_of_isPlain (by decide) (List.all_eq_true.1 (by decide))
  · exact Element.isWritten (e := .operand (.var head.name)) h.name
  · exact Element.isWritten (e := .operand head.start) h.start
  · exact Element.isWritten (e := .operand head.stop) h.stop
  · exact Element.isWritten (e := .operand o) (h.step o ho)

theorem trim_of_isWritten {ws : List Text} (h : ∀ w ∈ ws, IsWritten w) :
    Text.trim (Chunk.unsplit ws) = Chunk.unsplit ws :=
  Chunk.trim_unsplit fun w hw => (h w hw).1.toTight

theorem inert_of_isWritten {ws : List Text} (h : ∀ w ∈ ws, IsWritten w) :
    Inert (Chunk.unsplit ws) :=
  Chunk.inert_unsplit fun w hw => (h w hw).2

theorem split_of_isWritten {ws : List Text} (h : ∀ w ∈ ws, IsWritten w) :
    Chunk.split (Chunk.unsplit ws) = ws :=
  Chunk.split_unsplit fun w hw => (h w hw).1

/-! ## Documents -/

def echoToken (es : List Element) : Token := .tag (Chunk.unsplit (echoChunks es))

def LoopHead.token (h : LoopHead) : Token := .tag (Chunk.unsplit h.chunks)

def endToken : Token := .tag endWord

/-- The tokens of a written document. -/
def Document.tokens : Document → List Token
  | .nil => []
  | .text s rest => .text s :: rest.tokens
  | .echo es rest => echoToken es :: rest.tokens
  | .loop h inner rest => h.token :: (inner.tokens ++ endToken :: rest.tokens)

namespace Scan

variable {size : Nat}

theorem ofRest_echoSource {es : List Element} (h : ∀ e ∈ es, e.Writable) (rest : Text) :
    ofRest size .text (echoSource es ++ rest) =
      after [echoToken es] (ofRest size .text rest) := by
  have hw := isWritten_of_mem_echoChunks h
  have hinert : Inert (Chunk.unsplit (echoChunks es) ++ [' ']) :=
    (inert_of_isWritten hw).append (inert_of_not_mem (by decide))
  rw [echoSource_eq, ofRest_tag hinert (by simp), Text.trim_append_space _ (by decide),
    trim_of_isWritten hw]
  rfl

theorem ofRest_headSource {head : LoopHead} (h : head.Writable) (rest : Text) :
    ofRest size .text (head.source ++ rest) = after [head.token] (ofRest size .text rest) := by
  have hw := LoopHead.isWritten_of_mem_chunks h
  have hinert : Inert (' ' :: Chunk.unsplit head.chunks ++ [' ']) :=
    ((inert_of_isWritten hw).cons_of_ne (by decide)).append (inert_of_not_mem (by decide))
  rw [LoopHead.source_eq, ofRest_tag hinert (by simp), Text.trim_append_space _ (by decide),
    Text.trim_space_cons (by decide), trim_of_isWritten hw]
  rfl

theorem ofRest_endSource (rest : Text) :
    ofRest size .text (endSource ++ rest) = after [endToken] (ofRest size .text rest) := by
  have hinert : Inert endWord := inert_of_not_mem (by decide)
  exact ofRest_tag hinert (by decide) rest

theorem endsText_sourceAfter (d : Document) {rest : Text} (h : EndsText rest) :
    EndsText (d.sourceAfter true ++ rest) := by
  cases d with
  | nil => exact h
  | text s d => exact .inr ⟨_, rfl⟩
  | echo es d => exact .inr ⟨_, rfl⟩
  | loop head inner d => exact .inr ⟨_, rfl⟩

/-- A written document is scanned into its tokens, whatever tag follows it. -/
theorem ofRest_sourceAfter {d : Document} (hd : d.Writable) (afterText : Bool) {rest : Text}
    (h : EndsText rest) :
    ofRest size .text (d.sourceAfter afterText ++ rest) =
      after d.tokens (ofRest size .text rest) := by
  induction d generalizing afterText rest with
  | nil => rfl
  | text s d ih =>
    have hempty : ofRest size .text ((if afterText then emptyTagSource else []) ++
        (escapeText s ++ (d.sourceAfter true ++ rest))) =
        ofRest size .text (escapeText s ++ (d.sourceAfter true ++ rest)) := by
      cases afterText with
      | true => exact ofRest_emptyTag _
      | false => rfl
    simp only [Document.sourceAfter, List.append_assoc]
    rw [hempty, ofRest_text hd.1 (endsText_sourceAfter d h), ih hd.2 true h]
    rfl
  | echo es d ih =>
    simp only [Document.sourceAfter, List.append_assoc]
    rw [ofRest_echoSource hd.1, ih hd.2 false h]
    rfl
  | loop head inner d ihi ihd =>
    have hend : EndsText (endSource ++ (d.sourceAfter false ++ rest)) := .inr ⟨_, rfl⟩
    simp only [Document.sourceAfter, List.append_assoc]
    rw [ofRest_headSource hd.1, ihi hd.2.1 false hend, ofRest_endSource, ihd hd.2.2 false h]
    simp only [← after_append]
    simp [Document.tokens]

end Scan

/-- A written document is scanned without fault. -/
theorem scan_source {d : Document} (hd : d.Writable) : scan d.source = ⟨d.tokens, none⟩ := by
  have h : Scan.ofRest d.source.length .text (d.sourceAfter false ++ []) = _ :=
    Scan.ofRest_sourceAfter hd false (.inl rfl)
  rw [List.append_nil, Scan.ofRest_nil] at h
  rw [scan, Document.source]
  exact h.trans (by simp [Scan.after])

end PageTemplate
