import PageTemplate.Proofs.Document.Written

/-! The spellings of a template. Texts and tag bodies may be written in many ways, since a
delimiter may be broken over lines, and every way is read as the same tokens. -/
namespace PageTemplate

/-! ## Delimiters -/

namespace Delimiter

/-- What may stand inside a delimiter: nothing, or blanks with a line break among them. -/
def Gap (s : Text) : Prop :=
  (∀ c ∈ s, c ∈ [' ', '\t', '\n', '\r']) ∧ (s = [] ∨ '\n' ∈ s ∨ '\r' ∈ s)

/-- The two characters of a delimiter, and a gap between them. -/
def Spells (first last : Char) (w : Text) : Prop := ∃ gap, Gap gap ∧ w = first :: (gap ++ [last])

def IsOpening (w : Text) : Prop := Spells '{' '$' w

def IsClosing (w : Text) : Prop := Spells '$' '}' w

variable {first last : Char} {s w rest : Text}

theorem isBlank_iff {c : Char} : isBlank c ↔ c ∈ [' ', '\t', '\n', '\r'] := by
  simp [isBlank, or_assoc]

theorem isGap_iff : isGap s ↔ Gap s := by
  have hblank : s.all isBlank ↔ ∀ c ∈ s, c ∈ [' ', '\t', '\n', '\r'] := by
    simp only [List.all_eq_true, isBlank_iff]
  have hbreak : s.any isBreak ↔ '\n' ∈ s ∨ '\r' ∈ s := by
    simp only [List.any_eq_true, isBreak, Bool.or_eq_true, beq_iff_eq]
    constructor
    · rintro ⟨c, hc, rfl | rfl⟩
      · exact .inl hc
      · exact .inr hc
    · rintro (h | h)
      · exact ⟨_, h, .inl rfl⟩
      · exact ⟨_, h, .inr rfl⟩
  rw [isGap, Bool.and_eq_true, Bool.or_eq_true, hblank, hbreak, List.isEmpty_iff]
  rfl

instance (s : Text) : Decidable (Gap s) := decidable_of_iff _ isGap_iff

theorem after?_append (hlast : ¬isBlank last) (h : Spells first last w) (rest : Text) :
    after? first last (w ++ rest) = some rest := by
  obtain ⟨gap, hgap, rfl⟩ := h
  have hblank := fun c hc => isBlank_iff.2 (hgap.1 c hc)
  have hdrop : (gap ++ last :: rest).dropWhile isBlank = last :: rest := by
    rw [List.dropWhile_append_of_pos hblank, List.dropWhile_cons_of_neg hlast]
  have htake : (gap ++ last :: rest).takeWhile isBlank = gap := by
    rw [List.takeWhile_append_of_pos hblank, List.takeWhile_cons_of_neg hlast, List.append_nil]
  simp [after?, hdrop, htake, isGap_iff.2 hgap]

theorem spells_of_after? (h : after? first last s = some rest) :
    ∃ w, Spells first last w ∧ s = w ++ rest := by
  cases s with
  | nil => cases h
  | cons c s =>
    simp only [after?] at h
    split at h
    · rename_i hc
      split at h
      · cases h
      · rename_i d r hd
        split at h
        · rename_i hlast
          cases h
          refine ⟨_, ⟨_, isGap_iff.1 hlast.2, rfl⟩, ?_⟩
          have hs := List.takeWhile_append_dropWhile (p := isBlank) (l := s)
          rw [hd, hlast.1] at hs
          simpa [hc] using hs.symm
        · cases h
    · cases h

theorem afterOpening?_append (h : IsOpening w) (rest : Text) :
    afterOpening? (w ++ rest) = some rest :=
  after?_append (by decide) h rest

theorem afterClosing?_append (h : IsClosing w) (rest : Text) :
    afterClosing? (w ++ rest) = some rest :=
  after?_append (by decide) h rest

end Delimiter

/-! ## Tag bodies -/

/-- No closing delimiter is part of the text, broken over lines or not. -/
def Unclosed (s : Text) : Prop := ∀ w, Delimiter.IsClosing w → ¬w <:+: s

theorem unclosed_iff {s : Text} :
    Unclosed s ↔ ∀ t ∈ s.tails, Delimiter.afterClosing? t = none := by
  simp only [List.mem_tails]
  constructor
  · intro h t ht
    cases ha : Delimiter.afterClosing? t with
    | none => rfl
    | some rest =>
      obtain ⟨w, hw, rfl⟩ := Delimiter.spells_of_after? ha
      exact absurd ((List.prefix_append w rest).isInfix.trans ht.isInfix) (h w hw)
  · rintro h w hw ⟨before, rest, rfl⟩
    have hnone := h (w ++ rest) ⟨before, by simp⟩
    rw [Delimiter.afterClosing?_append hw] at hnone
    cases hnone

instance (s : Text) : Decidable (Unclosed s) := decidable_of_iff _ unclosed_iff.symm

theorem Unclosed.of_cons {c : Char} {s : Text} (h : Unclosed (c :: s)) : Unclosed s :=
  fun w hw hs => h w hw (hs.trans (List.suffix_cons c s).isInfix)

/-- A closing delimiter does not begin in an unclosed text and end behind it, if a dollar sign
follows the text. -/
theorem Unclosed.afterClosing?_eq_none {c : Char} {s : Text} (h : Unclosed (c :: s))
    (rest : Text) : Delimiter.afterClosing? (c :: (s ++ '$' :: rest)) = none := by
  cases ha : Delimiter.afterClosing? (c :: (s ++ '$' :: rest)) with
  | none => rfl
  | some r =>
    obtain ⟨w, ⟨gap, hgap, rfl⟩, heq⟩ := Delimiter.spells_of_after? ha
    simp only [List.cons_append, List.append_assoc, List.cons.injEq, List.nil_append] at heq
    obtain ⟨rfl, heq⟩ := heq
    rcases List.append_eq_append_iff.1 heq with ⟨t, ht, hr⟩ | ⟨t, ht, hr⟩
    · -- the dollar sign would stand in the gap
      cases t with
      | nil => cases hr
      | cons d t =>
        cases hr
        exact absurd (hgap.1 '$' (by simp [ht])) (by decide)
    · -- the whole delimiter would stand in the text
      cases t with
      | nil => cases hr
      | cons d t =>
        cases hr
        exact absurd ⟨[], t, by simp [ht]⟩ (h _ ⟨gap, hgap, rfl⟩)

namespace TokenRun

/-- A tag run says an unclosed text before a closing delimiter. -/
theorem tag_of_unclosed {s w : Text} (hs : Unclosed s) (hw : Delimiter.IsClosing w)
    (rest : Text) : tag (s ++ (w ++ rest)) = ⟨s, w ++ rest, .delimiter rest⟩ := by
  induction s with
  | nil => exact tag_of_closing (Delimiter.afterClosing?_append hw rest)
  | cons c s ih =>
    have hnone : Delimiter.afterClosing? (c :: (s ++ (w ++ rest))) = none := by
      obtain ⟨gap, -, rfl⟩ := hw
      exact hs.afterClosing?_eq_none _
    rw [List.cons_append, tag_cons hnone, ih hs.of_cons]
    rfl

end TokenRun

/-! ## Segments -/

/-- A piece of a template before it is spelled. -/
inductive Segment
  | text (content : Text)
  | tag (body : Text)
deriving DecidableEq

namespace Segment

/-- Texts and tag bodies are not empty, and no tag body is closed before its end. -/
def Sound : Segment → Prop
  | .text s => s ≠ []
  | .tag body => body ≠ [] ∧ Unclosed body

instance : DecidablePred Sound
  | .text s => inferInstanceAs (Decidable (s ≠ []))
  | .tag body => inferInstanceAs (Decidable (body ≠ [] ∧ Unclosed body))

/-- A text before tokens; it is one token with a text at their beginning. -/
def textBefore (s : Text) : List Token → List Token
  | .text t :: ts => .text (s ++ t) :: ts
  | ts => .text s :: ts

/-- The tokens of segments. Texts side by side are one token, and tag bodies are trimmed. -/
def tokens : List Segment → List Token
  | [] => []
  | .text s :: gs => textBefore s (tokens gs)
  | .tag body :: gs => .tag (Text.trim body) :: tokens gs

/-- Segments one after another, and a template that spells them: texts are escaped, and each
tag stands between an opening and a closing delimiter. -/
inductive Spells : List Segment → Text → Prop
  | nil : Spells [] []
  | text {gs : List Segment} {source : Text} (s : Text) (h : Spells gs source) :
      Spells (.text s :: gs) (escapeText s ++ source)
  | tag {gs : List Segment} {source opening closing : Text} (body : Text)
      (hopening : Delimiter.IsOpening opening) (hclosing : Delimiter.IsClosing closing)
      (h : Spells gs source) :
      Spells (.tag body :: gs) (opening ++ (body ++ (closing ++ source)))

theorem textBefore_textBefore (s t : Text) (ts : List Token) :
    textBefore s (textBefore t ts) = textBefore (s ++ t) ts := by
  cases ts with
  | nil => rfl
  | cons u ts =>
    cases u with
    | text u => simp [textBefore]
    | tag body => rfl

end Segment

theorem escapeText_append (s t : Text) : escapeText (s ++ t) = escapeText s ++ escapeText t :=
  List.flatMap_append

namespace Scan

variable {size : Nat}

theorem ofRest_escapeText_opening {w rest : Text} (hw : Delimiter.IsOpening w) (s : Text) :
    ofRest size .text (escapeText s ++ (w ++ rest)) =
      emit .text s (ofRest size .tag rest) := by
  have hrun := TokenRun.text_escapeText s (w ++ rest)
  rw [TokenRun.text_of_opening (Delimiter.afterOpening?_append hw rest)] at hrun
  simpa [Mode.other] using ofRest_of_delimiter .text hrun

theorem ofRest_escapeText (s : Text) :
    ofRest size .text (escapeText s) = emit .text s ⟨[], none⟩ := by
  have hrun := TokenRun.text_escapeText s []
  rw [TokenRun.text_nil, List.append_nil] at hrun
  simpa using ofRest_of_finished .text hrun

theorem ofRest_unclosed {body w rest : Text} (hne : body ≠ []) (hbody : Unclosed body)
    (hw : Delimiter.IsClosing w) :
    ofRest size .tag (body ++ (w ++ rest)) =
      after [.tag (Text.trim body)] (ofRest size .text rest) := by
  rw [ofRest_of_delimiter .tag (TokenRun.tag_of_unclosed hbody hw rest), emit_of_ne_nil hne]
  rfl

/-- Segments are read as their tokens, and so they are behind a text, which is one token with
a text at their beginning. -/
theorem ofRest_of_spells {gs : List Segment} {source : Text} (h : Segment.Spells gs source)
    (hgs : ∀ g ∈ gs, g.Sound) :
    ofRest size .text source = ⟨Segment.tokens gs, none⟩ ∧
    ∀ s, s ≠ [] → ofRest size .text (escapeText s ++ source) =
      ⟨Segment.textBefore s (Segment.tokens gs), none⟩ := by
  induction h with
  | nil =>
    refine ⟨ofRest_nil, fun s hs => ?_⟩
    rw [List.append_nil, ofRest_escapeText, emit_of_ne_nil hs]
    rfl
  | @text gs source t h ih =>
    obtain ⟨ht, hgs⟩ := List.forall_mem_cons.1 hgs
    obtain ⟨-, hbehind⟩ := ih hgs
    refine ⟨hbehind t ht, fun s hs => ?_⟩
    rw [← List.append_assoc, ← escapeText_append, Segment.tokens, Segment.textBefore_textBefore]
    exact hbehind (s ++ t) (by simp [hs])
  | @tag gs source opening closing body hopening hclosing h ih =>
    obtain ⟨⟨hne, hbody⟩, hgs⟩ := List.forall_mem_cons.1 hgs
    have htag : ofRest size .tag (body ++ (closing ++ source)) =
        ⟨Segment.tokens (.tag body :: gs), none⟩ := by
      rw [ofRest_unclosed hne hbody hclosing, (ih hgs).1]
      rfl
    have hopen := Delimiter.afterOpening?_append hopening (body ++ (closing ++ source))
    refine ⟨?_, fun s hs => ?_⟩
    · exact (ofRest_of_delimiter .text (TokenRun.text_of_opening hopen)).trans htag
    · rw [ofRest_escapeText_opening hopening, htag, emit_of_ne_nil hs]
      rfl

end Scan

/-- Whatever spelling is chosen, the template is read as the tokens of its segments, and a scanner
that is asked for one token at a time hands out these tokens and then the end, again and again. -/
theorem scan_of_spells {gs : List Segment} {source : Text} (h : Segment.Spells gs source)
    (hgs : ∀ g ∈ gs, g.Sound) :
    scan source = ⟨Segment.tokens gs, none⟩ ∧
    (Scanner.ofSource source).tokens = .ok (Segment.tokens gs) ∧
    ∀ n, Scanner.answers ((Segment.tokens gs).length + n) (.ofSource source) =
      (Segment.tokens gs).map (fun t => .ok (some t)) ++ List.replicate n (.ok none) := by
  have hscan : (Scanner.ofSource source).scan = ⟨Segment.tokens gs, none⟩ :=
    (Scan.ofRest_of_spells h hgs).1
  refine ⟨hscan, ?_, fun n => ?_⟩
  · rw [Scanner.tokens_eq, hscan]
  · rw [Scanner.answers_eq, hscan]
    simp [Scan.last]

/-- Two texts side by side, a tag whose delimiters are broken over lines, and a tag of one blank. -/
theorem scan_of_spells_folded :
    let gs : List Segment := [.text ['{', '$'], .text ['$', '}', '\\'],
      .tag ['=', ' ', 'i', '$', ' ', '}', ' ', '$'], .tag [' ']]
    let source := "\\\x7b$$\x7d\\\\\x7b \n$= i$ \x7d $$\r\t\x7d\x7b$ $\x7d".toList
    let ts : List Token := [.text ['{', '$', '$', '}', '\\'],
      .tag ['=', ' ', 'i', '$', ' ', '}', ' ', '$'], .tag []]
    Segment.Spells gs source ∧ (∀ g ∈ gs, g.Sound) ∧ Segment.tokens gs = ts ∧
      scan source = ⟨ts, none⟩ ∧
      (Scanner.ofSource source).tokens = .ok ts ∧
      ∀ n, Scanner.answers (ts.length + n) (.ofSource source) =
        ts.map (fun t => .ok (some t)) ++ List.replicate n (.ok none) := by
  intro gs source ts
  have hsource : escapeText ['{', '$'] ++ (escapeText ['$', '}', '\\'] ++
      (['{', ' ', '\n', '$'] ++ (['=', ' ', 'i', '$', ' ', '}', ' ', '$'] ++
        (['$', '\r', '\t', '}'] ++ (['{', '$'] ++ ([' '] ++ (['$', '}'] ++ []))))))) =
      source := by decide +kernel
  have hspells : Segment.Spells gs source := by
    rw [← hsource]
    exact .text _ (.text _ (.tag _ ⟨[' ', '\n'], by decide, rfl⟩ ⟨['\r', '\t'], by decide, rfl⟩
      (.tag _ ⟨[], by decide, rfl⟩ ⟨[], by decide, rfl⟩ .nil)))
  have hsound : ∀ g ∈ gs, g.Sound := by decide +kernel
  exact ⟨hspells, hsound, by decide, scan_of_spells hspells hsound⟩

end PageTemplate
