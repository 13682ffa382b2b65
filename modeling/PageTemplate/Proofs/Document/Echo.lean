import PageTemplate.Proofs.Document.Walk
import PageTemplate.Proofs.Element.Quoted
import PageTemplate.Proofs.Source.Spelling

/-! The two forms of an echo. What is echoed is joined to the equals sign or stands apart from
it. Without white space both forms say the same, unless a string in it is closed before its end:
joined it goes on to its last quote, and apart from the sign another chunk begins behind it. -/
namespace PageTemplate

/-! ## Templates of one tag -/

theorem Unclosed.cons_of_ne {c : Char} {s : Text} (h : Unclosed s) (hc : c ≠ '$') :
    Unclosed (c :: s) := by
  intro w hw hin
  rcases List.infix_cons_iff.1 hin with hp | hs
  · obtain ⟨gap, -, rfl⟩ := hw
    exact hc (List.cons_prefix_cons.1 hp).1.symm
  · exact h w hw hs

theorem Unclosed.concat_of_ne {c : Char} {s : Text} (h : Unclosed s) (hc : c ≠ '}') :
    Unclosed (s ++ [c]) := by
  intro w hw hin
  rcases List.infix_concat_iff.1 hin with hsuffix | hs
  · obtain ⟨gap, -, rfl⟩ := hw
    obtain ⟨before, heq⟩ := hsuffix
    have heq : (before ++ '$' :: gap) ++ ['}'] = s ++ [c] := by simpa using heq
    exact hc (List.singleton_inj.1 (List.append_inj_right' heq rfl)).symm
  · exact h w hw hs

theorem scan_tag {body : Text} (hne : body ≠ []) (h : Unclosed body) :
    scan (['{', '$'] ++ body ++ ['$', '}']) = ⟨[.tag (Text.trim body)], none⟩ := by
  have hclosing : Delimiter.IsClosing ['$', '}'] := ⟨[], by decide, rfl⟩
  have hscan (size : Nat) : Scan.ofRest size .tag (body ++ (['$', '}'] ++ [])) = _ :=
    Scan.ofRest_unclosed hne h hclosing
  simp only [List.append_nil, Scan.ofRest_nil] at hscan
  rw [scan]
  exact (Scan.ofRest_opening _).trans (hscan _)

/-- A template of one echo is read as the elements of its chunks. -/
theorem parse_of_echo {source body : Text} {chunks : List Text} {d : Document}
    (hscan : scan source = ⟨[.tag body], none⟩)
    (hform : TagForm.Reads (Chunk.split body) (.echo chunks)) :
    parse source = .ok d ↔
      ∃ es, chunks.map Element.ofChunk? = es.map some ∧ d = .echo es .nil := by
  rw [parse_eq_ok_iff_reads, hscan]
  constructor
  · rintro ⟨-, -, hreads⟩
    obtain ⟨p, ps, hp, hps, hwalk⟩ := List.forall₂_cons_left_iff.1 hreads
    cases hps
    cases hp with
    | tag ht =>
      cases ht with
      | echo hform' helements =>
        cases hform.unique hform'
        exact ⟨_, helements, Document.walk_injective hwalk⟩
      | opening hform' => cases hform.unique hform'
      | closing hform' => cases hform.unique hform'
  · rintro ⟨es, helements, rfl⟩
    exact ⟨rfl, Nat.zero_le _, .cons (.tag (.echo hform helements)) .nil⟩

/-! ## The two forms -/

/-- A template of one echo, joined to its equals sign. -/
def joinedEcho (s : Text) : Text := ['{', '$', '='] ++ s ++ ['$', '}']

/-- A template of one echo, apart from its equals sign. -/
def spacedEcho (s : Text) : Text := ['{', '$', '=', ' '] ++ s ++ [' ', '$', '}']

section

variable {s : Text} {d : Document}

theorem equals_cons_of_spaceless (hspace : ∀ c ∈ s, Text.isSpace c = false) :
    ∀ c ∈ '=' :: s, Text.isSpace c = false :=
  List.forall_mem_cons.2 ⟨by decide, hspace⟩

theorem split_equals_cons (hspace : ∀ c ∈ s, Text.isSpace c = false) :
    Chunk.split ('=' :: s) = ['=' :: s] := by
  have hw := Chunk.isWhole_word (by decide) (equals_cons_of_spaceless hspace)
  have hsplit := hw.split [] (by simp [Chunk.Ends])
  rwa [List.append_nil] at hsplit

theorem split_equals_space (s : Text) : Chunk.split ('=' :: ' ' :: s) = ['='] :: Chunk.split s := by
  have hw := Chunk.isWhole_word (by decide) (equals_cons_of_spaceless (s := []) (by simp))
  have hends : Chunk.Ends (' ' :: s) := by
    intro c hc
    cases hc
    decide
  have hsplit := hw.split (' ' :: s) hends
  rwa [Chunk.split.eq_def (' ' :: s), Chunk.splitFrom_space (by decide)] at hsplit

/-- What is joined to an equals sign is one chunk, or none if there is nothing. -/
def joinedChunks (s : Text) : List Text := if s = [] then [] else [s]

theorem parse_joinedEcho (hspace : ∀ c ∈ s, Text.isSpace c = false) (hclosed : Unclosed s) :
    parse (joinedEcho s) = .ok d ↔
      ∃ es, (joinedChunks s).map Element.ofChunk? = es.map some ∧ d = .echo es .nil := by
  have htight := Text.tight_of_forall (List.cons_ne_nil '=' s) (equals_cons_of_spaceless hspace)
  have hscan := scan_tag (List.cons_ne_nil '=' s) (hclosed.cons_of_ne (by decide))
  rw [Text.trim_eq_self htight.head htight.last] at hscan
  refine parse_of_echo hscan ?_
  rw [split_equals_cons hspace]
  cases s with
  | nil => exact .echo (.spaced [])
  | cons c s => exact .echo (.joined c s)

theorem split_trim_equals_space (hspace : ∀ c ∈ s, Text.isSpace c = false) :
    Chunk.split (Text.trim ('=' :: ' ' :: (s ++ [' ']))) = ['='] :: Chunk.split s := by
  rw [← List.cons_append, ← List.cons_append, Text.trim_append_space _ (by decide)]
  cases s with
  | nil => decide
  | cons c s =>
    have hlast := (Text.tight_of_forall (List.cons_ne_nil c s) hspace).last
    rw [Text.trim_eq_self, split_equals_space]
    · intro e he
      cases he
      decide
    · simpa using hlast

theorem parse_spacedEcho (hspace : ∀ c ∈ s, Text.isSpace c = false) (hclosed : Unclosed s) :
    parse (spacedEcho s) = .ok d ↔
      ∃ es, (Chunk.split s).map Element.ofChunk? = es.map some ∧ d = .echo es .nil := by
  have hbody : Unclosed ('=' :: ' ' :: (s ++ [' '])) :=
    ((hclosed.concat_of_ne (by decide)).cons_of_ne (by decide)).cons_of_ne (by decide)
  have hscan := scan_tag (List.cons_ne_nil _ _) hbody
  have hsource : ['{', '$'] ++ '=' :: ' ' :: (s ++ [' ']) ++ ['$', '}'] = spacedEcho s := by
    simp [spacedEcho]
  rw [hsource] at hscan
  refine parse_of_echo hscan ?_
  rw [split_trim_equals_space hspace]
  exact .echo (.spaced _)

theorem split_eq_joinedChunks_iff (hspace : ∀ c ∈ s, Text.isSpace c = false) :
    Chunk.split s = joinedChunks s ↔ ¬Chunk.ClosesEarly s := by
  by_cases hs : s = []
  · subst hs
    refine iff_of_true rfl ?_
    rintro ⟨inner, rest, -, -, hnil⟩
    cases hnil
  · rw [joinedChunks, if_neg hs]
    exact Chunk.split_eq_singleton_iff hs hspace

/-- As many chunks as are joined are those that are joined. -/
theorem split_eq_joinedChunks_of_length (hspace : ∀ c ∈ s, Text.isSpace c = false)
    (h : (Chunk.split s).length = (joinedChunks s).length) :
    Chunk.split s = joinedChunks s := by
  have hflat := Chunk.flatten_split hspace
  by_cases hs : s = []
  · rw [hs]
    rfl
  · rw [joinedChunks, if_neg hs] at h ⊢
    obtain ⟨w, hw⟩ := List.length_eq_one_iff.1 h
    rw [hw] at hflat ⊢
    simpa using hflat

/-- An echo that can be read joined is read the same apart from its equals sign, exactly if no
string in it is closed before its end. -/
theorem parse_spacedEcho_iff (hspace : ∀ c ∈ s, Text.isSpace c = false) (hclosed : Unclosed s)
    (hjoined : parse (joinedEcho s) = .ok d) :
    parse (spacedEcho s) = .ok d ↔ ¬Chunk.ClosesEarly s := by
  obtain ⟨es, helements, rfl⟩ := (parse_joinedEcho hspace hclosed).1 hjoined
  rw [parse_spacedEcho hspace hclosed, ← split_eq_joinedChunks_iff hspace]
  constructor
  · rintro ⟨es', helements', hd⟩
    cases hd
    have hlength := congrArg List.length (helements'.trans helements.symm)
    exact split_eq_joinedChunks_of_length hspace (by simpa using hlength)
  · intro hsplit
    exact ⟨es, hsplit ▸ helements, rfl⟩

end

/-- A quote that a backslash protects closes nothing. -/
theorem parse_spacedEcho_protected :
    (∀ c ∈ ['"', 'a', '\\', '"', 'b', '"'], Text.isSpace c = false) ∧
      Unclosed ['"', 'a', '\\', '"', 'b', '"'] ∧
      parse (joinedEcho ['"', 'a', '\\', '"', 'b', '"']) =
        .ok (.echo [.operand (.const (.str ['a', '"', 'b']))] .nil) ∧
      (parse (spacedEcho ['"', 'a', '\\', '"', 'b', '"']) =
          .ok (.echo [.operand (.const (.str ['a', '"', 'b']))] .nil) ↔
        ¬Chunk.ClosesEarly ['"', 'a', '\\', '"', 'b', '"']) :=
  have hspace : ∀ c ∈ ['"', 'a', '\\', '"', 'b', '"'], Text.isSpace c = false := by
    simp [Text.isSpace]
  have hclosed : Unclosed ['"', 'a', '\\', '"', 'b', '"'] := by decide +kernel
  have hjoined : parse (joinedEcho ['"', 'a', '\\', '"', 'b', '"']) =
      .ok (.echo [.operand (.const (.str ['a', '"', 'b']))] .nil) := by decide +kernel
  ⟨hspace, hclosed, hjoined, parse_spacedEcho_iff hspace hclosed hjoined⟩

/-- A string that is closed before its end is read joined to the equals sign, but not apart from
it. -/
theorem parse_spacedEcho_closed_early :
    (∀ c ∈ ['"', 'a', '"', 'b', '"'], Text.isSpace c = false) ∧
      Unclosed ['"', 'a', '"', 'b', '"'] ∧
      parse (joinedEcho ['"', 'a', '"', 'b', '"']) =
        .ok (.echo [.operand (.const (.str ['a', '"', 'b']))] .nil) ∧
      parse (spacedEcho ['"', 'a', '"', 'b', '"']) = .error (.noElement ['b', '"']) :=
  ⟨by simp [Text.isSpace], by decide +kernel, by decide +kernel, by decide +kernel⟩

end PageTemplate
