import PageTemplate.Proofs.Document.Written

/-! Which templates are read, and what is reported of the others. A template is read if its
tags are well formed and its loops are balanced and not too deep; otherwise the first tag that
offends is reported, then a bad escape, and loops left open only at the end. -/
namespace PageTemplate

/-! ## Counting loops -/

/-- A tag that begins with the word FOR. -/
def isFor (body : Text) : Bool := (Chunk.split body).head?.any (spells forWord)

/-- A tag that is the word END alone. -/
def isEnd (body : Text) : Bool :=
  match Chunk.split body with
  | [word] => spells endWord word
  | _ => false

/-- How many tags begin a loop. -/
def forTags (bodies : List Text) : Nat := bodies.countP isFor

/-- How many tags end a loop. -/
def endTags (bodies : List Text) : Nat := bodies.countP isEnd

theorem isFor_iff {body : Text} :
    isFor body ↔ ∃ arguments, TagForm.Reads (Chunk.split body) (.opening arguments) := by
  unfold isFor
  constructor
  · intro h
    cases hs : Chunk.split body with
    | nil => simp [hs] at h
    | cons word arguments => exact ⟨arguments, .opening _ (by simpa [hs] using h)⟩
  · rintro ⟨arguments, h⟩
    generalize Chunk.split body = chunks at h
    cases h with
    | opening _ h => simpa using h

theorem isEnd_iff {body : Text} :
    isEnd body ↔ TagForm.Reads (Chunk.split body) .closing := by
  unfold isEnd
  constructor
  · intro h
    split at h
    · rename_i hs
      rw [hs]
      exact .closing h
    · cases h
  · intro h
    generalize Chunk.split body = chunks at h
    cases h with
    | closing h => exact h

theorem Tag.Reads.isFor_iff {body : Text} {t : Tag} (h : t.Reads body) :
    isFor body ↔ ∃ head, t = .opening head := by
  rw [PageTemplate.isFor_iff]
  constructor
  · rintro ⟨arguments, hform⟩
    rw [TagForm.reads_iff] at hform
    cases h with
    | opening => exact ⟨_, rfl⟩
    | echo h =>
      rw [TagForm.reads_iff, hform] at h
      cases h
    | closing h =>
      rw [TagForm.reads_iff, hform] at h
      cases h
  · rintro ⟨head, rfl⟩
    cases h with
    | opening hform => exact ⟨_, hform⟩

theorem Tag.Reads.isEnd_iff {body : Text} {t : Tag} (h : t.Reads body) :
    isEnd body ↔ t = .closing := by
  rw [PageTemplate.isEnd_iff]
  constructor
  · intro hform
    rw [TagForm.reads_iff] at hform
    cases h with
    | closing => rfl
    | echo h =>
      rw [TagForm.reads_iff, hform] at h
      cases h
    | opening h =>
      rw [TagForm.reads_iff, hform] at h
      cases h
  · rintro rfl
    cases h with
    | closing hform => exact hform

theorem Tag.Reads.fits_iff {body : Text} {t : Tag} (h : t.Reads body) {loops : Nat} :
    t.Fits loops ↔ (isEnd body → 0 < loops) ∧ (isFor body → loops < depthLimit) := by
  rw [h.isEnd_iff, h.isFor_iff]
  cases t <;> simp [Tag.Fits]

theorem forTags_concat (bodies : List Text) (body : Text) :
    forTags (bodies ++ [body]) = forTags bodies + (isFor body).toNat := by
  cases h : isFor body <;> simp [forTags, h]

theorem endTags_concat (bodies : List Text) (body : Text) :
    endTags (bodies ++ [body]) = endTags bodies + (isEnd body).toNat := by
  cases h : isEnd body <;> simp [endTags, h]

/-- A tag that is taken opens or closes a loop just as it counts. -/
theorem Builder.Takes.loops_length {b b' : Builder} {body : Text} {t : Tag}
    (h : b.Takes t b') (ht : t.Reads body) :
    b'.loops.length + (isEnd body).toNat = b.loops.length + (isFor body).toNat := by
  cases h with
  | echo es =>
    have hfor : isFor body = false := by simp [Bool.eq_false_iff, ht.isFor_iff]
    have hend : isEnd body = false := by simp [Bool.eq_false_iff, ht.isEnd_iff]
    simp [hfor, hend]
  | opening hloops =>
    have hfor : isFor body = true := ht.isFor_iff.2 ⟨_, rfl⟩
    have hend : isEnd body = false := by simp [Bool.eq_false_iff, ht.isEnd_iff]
    simp [hfor, hend, openLoop]
  | closing hloops =>
    have hfor : isFor body = false := by simp [Bool.eq_false_iff, ht.isFor_iff]
    have hend : isEnd body = true := ht.isEnd_iff.2 rfl
    simp [hfor, hend, hloops]

/-! ## The first offence -/

/-- What is wrong with a tag after the tags before it. -/
def Offends (before : List Text) (body : Text) (err : ParseError) : Prop :=
  Tag.Wrong (forTags before - endTags before) body err

/-- No tag offends. -/
def NoOffence (bodies : List Text) : Prop :=
  ∀ before body err, before ++ [body] <+: bodies → ¬Offends before body err

theorem noOffence_nil : NoOffence [] := by
  intro before body err h
  simp at h

theorem noOffence_concat_iff {bodies : List Text} {body : Text} :
    NoOffence (bodies ++ [body]) ↔ NoOffence bodies ∧ ∀ err, ¬Offends bodies body err := by
  constructor
  · intro h
    refine ⟨?_, ?_⟩
    · intro before body' err hb
      exact h before body' err (hb.trans (List.prefix_append _ _))
    · intro err
      exact h bodies body err (List.prefix_refl _)
  · rintro ⟨hs, hbody⟩ before body' err hb
    rcases List.prefix_concat_iff.1 hb with heq | hb
    · obtain ⟨rfl, hbody'⟩ := List.append_inj' heq rfl
      cases hbody'
      exact hbody err
    · exact hs before body' err hb

/-- Among tags none offends, or there is a first one that does. -/
theorem noOffence_or_first (bodies : List Text) :
    NoOffence bodies ∨ ∃ before body after err,
      bodies = before ++ body :: after ∧ NoOffence before ∧ Offends before body err := by
  induction bodies using List.reverseRecOn with
  | nil => exact .inl noOffence_nil
  | append_singleton bodies body ih =>
    rcases ih with hs | ⟨before, body', after, err, rfl, hs, ho⟩
    · by_cases hbody : ∃ err, Offends bodies body err
      · obtain ⟨err, ho⟩ := hbody
        exact .inr ⟨bodies, body, [], err, rfl, hs, ho⟩
      · exact .inl (noOffence_concat_iff.2 ⟨hs, fun err ho => hbody ⟨err, ho⟩⟩)
    · exact .inr ⟨before, body', after ++ [body], err, by simp, hs, ho⟩

/-! ## Regular tags -/

/-- Tags that say something each, that never end more loops than they begin, and that begin
none where the limit is reached. -/
structure Regular (bodies : List Text) : Prop where
  tags : ∀ body ∈ bodies, ∃ t, Tag.Reads body t
  ends_le : ∀ before, before <+: bodies → endTags before ≤ forTags before
  depth : ∀ before body, before ++ [body] <+: bodies → isFor body →
    forTags before < endTags before + depthLimit

theorem regular_nil : Regular [] where
  tags := by simp
  ends_le := by
    intro before h
    rw [List.prefix_nil.1 h]
    rfl
  depth := by
    intro before body h
    simp at h

theorem regular_concat_iff {bodies : List Text} {body : Text} :
    Regular (bodies ++ [body]) ↔ Regular bodies ∧ (∃ t, Tag.Reads body t) ∧
      endTags (bodies ++ [body]) ≤ forTags (bodies ++ [body]) ∧
      (isFor body → forTags bodies < endTags bodies + depthLimit) := by
  constructor
  · intro h
    refine ⟨⟨?_, ?_, ?_⟩, h.tags body (by simp), h.ends_le _ (List.prefix_refl _),
      h.depth bodies body (List.prefix_refl _)⟩
    · intro body' hb
      exact h.tags body' (List.mem_append_left _ hb)
    · intro before hb
      exact h.ends_le before (hb.trans (List.prefix_append _ _))
    · intro before body' hb
      exact h.depth before body' (hb.trans (List.prefix_append _ _))
  · rintro ⟨h, ht, hends, hdepth⟩
    refine ⟨?_, ?_, ?_⟩
    · intro body' hb
      rcases List.mem_append.1 hb with hb | hb
      · exact h.tags body' hb
      · rwa [List.mem_singleton.1 hb]
    · intro before hb
      rcases List.prefix_concat_iff.1 hb with rfl | hb
      · exact hends
      · exact h.ends_le before hb
    · intro before body' hb
      rcases List.prefix_concat_iff.1 hb with heq | hb
      · obtain ⟨rfl, hbody'⟩ := List.append_inj' heq rfl
        cases hbody'
        exact hdepth
      · exact h.depth before body' hb

/-- A tag after regular ones does not offend just if it leaves them regular. -/
theorem not_offends_iff {bodies : List Text} (h : Regular bodies) (body : Text) :
    (∀ err, ¬Offends bodies body err) ↔ (∃ t, Tag.Reads body t) ∧
      endTags (bodies ++ [body]) ≤ forTags (bodies ++ [body]) ∧
      (isFor body → forTags bodies < endTags bodies + depthLimit) := by
  have hle := h.ends_le bodies (List.prefix_refl _)
  have hends : endTags (bodies ++ [body]) ≤ forTags (bodies ++ [body]) ↔
      endTags bodies + (isEnd body).toNat ≤ forTags bodies + (isFor body).toNat := by
    rw [forTags_concat, endTags_concat]
  rw [hends]
  constructor
  · intro hbody
    rcases Tag.fits_or_wrong (forTags bodies - endTags bodies) body with ⟨t, ht, hfits⟩ | ⟨err, hw⟩
    · obtain ⟨hend, hfor⟩ := ht.fits_iff.1 hfits
      refine ⟨⟨t, ht⟩, ?_, fun h => ?_⟩
      · cases he : isEnd body with
        | true =>
          have hopen := hend he
          rw [Bool.toNat_true]
          omega
        | false =>
          rw [Bool.toNat_false]
          omega
      · have hlimit := hfor h
        omega
    · exact absurd hw (hbody err)
  · rintro ⟨⟨t, ht⟩, hend, hfor⟩ err
    refine Builder.not_wrong_of_fits ht (ht.fits_iff.2 ⟨fun he => ?_, fun hf => ?_⟩)
    · have hf : isFor body = false := by
        rw [ht.isEnd_iff] at he
        simp [Bool.eq_false_iff, ht.isFor_iff, he]
      rw [he, hf, Bool.toNat_true, Bool.toNat_false] at hend
      omega
    · have hlimit := hfor hf
      omega

theorem noOffence_iff_regular (bodies : List Text) : NoOffence bodies ↔ Regular bodies := by
  induction bodies using List.reverseRecOn with
  | nil => exact ⟨fun _ => regular_nil, fun _ => noOffence_nil⟩
  | append_singleton bodies body ih =>
    rw [noOffence_concat_iff, regular_concat_iff, ih]
    exact and_congr_right fun h => not_offends_iff h body

/-! ## Runs of the builder -/

/-- The body of a tag. -/
def Token.body? : Token → Option Text
  | .text _ => none
  | .tag body => some body

/-- The bodies of the tags among tokens. -/
def bodiesOf (ts : List Token) : List Text := ts.filterMap Token.body?

theorem Builder.addAll_concat (b : Builder) (ts : List Token) (t : Token) :
    b.addAll (ts ++ [t]) = (b.addAll ts).bind (·.add t) := by
  rw [addAll_append]
  congr 1
  funext c
  rw [addAll_cons]
  cases c.add t <;> rfl

/-- Tokens none of which offends are all taken, and as many loops are open as were begun and
not ended. -/
theorem Builder.addAll_of_noOffence {ts : List Token} (h : NoOffence (bodiesOf ts)) :
    ∃ b, empty.addAll ts = .ok b ∧
      b.loops.length + endTags (bodiesOf ts) = forTags (bodiesOf ts) := by
  induction ts using List.reverseRecOn with
  | nil => exact ⟨empty, rfl, rfl⟩
  | append_singleton ts t ih =>
    cases t with
    | text s =>
      have hbodies : bodiesOf (ts ++ [.text s]) = bodiesOf ts := by simp [bodiesOf, Token.body?]
      rw [hbodies] at h ⊢
      obtain ⟨b, hb, hloops⟩ := ih h
      refine ⟨{ b with current := .text s b.current }, ?_, hloops⟩
      rw [addAll_concat, hb]
      rfl
    | tag body =>
      have hbodies : bodiesOf (ts ++ [.tag body]) = bodiesOf ts ++ [body] := by
        simp [bodiesOf, Token.body?]
      rw [hbodies] at h ⊢
      obtain ⟨hs, hbody⟩ := noOffence_concat_iff.1 h
      obtain ⟨b, hb, hloops⟩ := ih hs
      have hopen : forTags (bodiesOf ts) - endTags (bodiesOf ts) = b.loops.length := by omega
      rcases Tag.fits_or_wrong b.loops.length body with ⟨t, ht, hfits⟩ | ⟨err, hw⟩
      · obtain ⟨b', hb'⟩ := exists_takes_of_fits hfits
        refine ⟨b', ?_, ?_⟩
        · rw [addAll_concat, hb]
          exact addTag_of_takes ht hb'
        · have hlength := hb'.loops_length ht
          rw [forTags_concat, endTags_concat]
          omega
      · rw [← hopen] at hw
        exact absurd hw (hbody err)

/-- The first tag that offends ends the reading. -/
theorem Builder.addAll_of_offends {ts : List Token} {before after : List Text} {body : Text}
    {err : ParseError} (hts : bodiesOf ts = before ++ body :: after) (h : NoOffence before)
    (ho : Offends before body err) : empty.addAll ts = .error err := by
  obtain ⟨ts₁, ts₂, rfl, hbefore, hts₂⟩ := List.filterMap_eq_append_iff.1 hts
  obtain ⟨us, t, vs, rfl, hus, ht, -⟩ := List.filterMap_eq_cons_iff.1 hts₂
  have ht : t = .tag body := by
    cases t with
    | text s => cases ht
    | tag body' =>
      cases ht
      rfl
  have hbodies : bodiesOf (ts₁ ++ us) = before := by
    rw [bodiesOf, List.filterMap_append, hbefore, List.filterMap_eq_nil_iff.2 hus,
      List.append_nil]
  rw [← hbodies] at h ho
  obtain ⟨b, hb, hloops⟩ := addAll_of_noOffence h
  have hopen : forTags (bodiesOf (ts₁ ++ us)) - endTags (bodiesOf (ts₁ ++ us)) =
      b.loops.length := by
    omega
  rw [Offends, hopen] at ho
  rw [← List.append_assoc, addAll_append, hb, ht]
  change b.addAll (.tag body :: vs) = _
  rw [addAll_cons, add, addTag_of_wrong ho]
  rfl

/-! ## Templates -/

/-- The bodies of the tags of a template, up to the first bad escape. -/
def tagBodies (s : Text) : List Text := bodiesOf (scan s).tokens

/-- A template that should be read: no bad escape, regular tags, and every loop is closed. -/
structure Accepted (s : Text) : Prop where
  scanned : (scan s).fault = none
  regular : Regular (tagBodies s)
  balanced : forTags (tagBodies s) = endTags (tagBodies s)

/-- What should be reported of a template: the first tag that offends, or else a bad escape,
or else the loops that are left open. -/
inductive Rejected (s : Text) : ParseError → Prop
  | tag {before after : List Text} {body : Text} {err : ParseError}
      (hbodies : tagBodies s = before ++ body :: after) (hbefore : NoOffence before)
      (h : Offends before body err) : Rejected s err
  | scan {fault : ScanError} (h : NoOffence (tagBodies s)) (hfault : (scan s).fault = some fault) :
      Rejected s (.scan fault)
  | openLoops (h : NoOffence (tagBodies s)) (hfault : (scan s).fault = none)
      (hopen : endTags (tagBodies s) < forTags (tagBodies s)) :
      Rejected s (.openLoops (forTags (tagBodies s) - endTags (tagBodies s)))

theorem parse_of_accepted {s : Text} (h : Accepted s) : ∃ d, parse s = .ok d := by
  obtain ⟨b, hb, hloops⟩ := Builder.addAll_of_noOffence ((noOffence_iff_regular _).2 h.regular)
  have hbalanced : forTags (bodiesOf (scan s).tokens) = endTags (bodiesOf (scan s).tokens) :=
    h.balanced
  have hclosed : b.loops = [] := List.eq_nil_of_length_eq_zero (by omega)
  refine ⟨b.current.reverse, ?_⟩
  rw [parse_eq, hb, h.scanned]
  exact if_pos hclosed

theorem parse_of_rejected {s : Text} {err : ParseError} (h : Rejected s err) :
    parse s = .error err := by
  rw [parse_eq]
  cases h with
  | tag hbodies hbefore ho =>
    rw [Builder.addAll_of_offends hbodies hbefore ho]
    rfl
  | scan h hfault =>
    obtain ⟨b, hb, -⟩ := Builder.addAll_of_noOffence h
    rw [hb, hfault]
    rfl
  | openLoops h hfault hopen =>
    obtain ⟨b, hb, hloops⟩ := Builder.addAll_of_noOffence h
    have hlength : forTags (tagBodies s) - endTags (tagBodies s) = b.loops.length := by
      rw [tagBodies] at hopen ⊢
      omega
    have hne : b.loops ≠ [] := by
      intro hnil
      rw [hnil, List.length_nil] at hlength
      omega
    rw [hb, hfault, hlength]
    exact if_neg hne

theorem accepted_or_rejected (s : Text) : Accepted s ∨ ∃ err, Rejected s err := by
  rcases noOffence_or_first (tagBodies s) with h | ⟨before, body, after, err, hb, hbefore, ho⟩
  · cases hfault : (scan s).fault with
    | some fault => exact .inr ⟨_, .scan h hfault⟩
    | none =>
      have hregular := (noOffence_iff_regular _).1 h
      have hle := hregular.ends_le _ (List.prefix_refl _)
      rcases Nat.lt_or_ge (endTags (tagBodies s)) (forTags (tagBodies s)) with hopen | hge
      · exact .inr ⟨_, .openLoops h hfault hopen⟩
      · exact .inl ⟨hfault, hregular, Nat.le_antisymm hge hle⟩
  · exact .inr ⟨err, .tag hb hbefore ho⟩

/-- A template is read just if it is accepted, and the error of any other is that of its first
offence. -/
theorem parse_iff_accepted (s : Text) :
    ((∃ d, parse s = .ok d) ↔ Accepted s) ∧ ∀ err, parse s = .error err ↔ Rejected s err := by
  refine ⟨⟨?_, parse_of_accepted⟩, fun err => ⟨?_, parse_of_rejected⟩⟩
  · rintro ⟨d, hd⟩
    rcases accepted_or_rejected s with h | ⟨err, h⟩
    · exact h
    · rw [parse_of_rejected h] at hd
      cases hd
  · intro herr
    rcases accepted_or_rejected s with h | ⟨err', h⟩
    · obtain ⟨d, hd⟩ := parse_of_accepted h
      rw [hd] at herr
      cases herr
    · rw [parse_of_rejected h] at herr
      cases herr
      exact h

end PageTemplate
