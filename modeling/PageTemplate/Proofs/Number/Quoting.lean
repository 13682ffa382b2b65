import PageTemplate.Proofs.Number.Layout

/-! Quoted text around a pattern. Between apostrophes every character stands for itself, those that
mean something in a pattern too, but for one: a semicolon ends the pattern even there. -/
namespace PageTemplate.Pattern

/-- A pattern with quoted text before its body and after it. -/
def quoted (before body after : Text) : Text :=
  apostrophe :: (before ++ apostrophe :: (body ++ apostrophe :: (after ++ [apostrophe])))

/-- Puts text around a formatted number, the first one behind the minus if there is one. -/
def surround (before after : Text) : Text → Text
  | '-' :: s => '-' :: (before ++ s ++ after)
  | s => before ++ s ++ after

/-! ## Inside apostrophes -/

section

variable {s rest : Text}

/-- No symbol between apostrophes begins the body. -/
theorem splitLead_inside (h : apostrophe ∉ s) : splitLead true (s ++ apostrophe :: rest) =
    (s ++ apostrophe :: (splitLead false rest).1, (splitLead false rest).2) := by
  induction s with
  | nil => simp [splitLead]
  | cons c s ih =>
    simp only [List.mem_cons, not_or] at h
    rw [List.cons_append, splitLead]
    simp [ih h.2, Ne.symm h.1]

/-- Text that stays inside apostrophes to its end has no body. -/
theorem splitLead_unclosed (h : apostrophe ∉ s) : splitLead true s = (s, []) := by
  induction s with
  | nil => rfl
  | cons c s ih =>
    simp only [List.mem_cons, not_or] at h
    rw [splitLead]
    simp [ih h.2, Ne.symm h.1]

theorem splitLead_symbol {c : Char} (hc : isSymbol c) (s : Text) :
    splitLead false (c :: s) = ([], c :: s) := by
  simp [splitLead, hc]

theorem unquote_append (h : apostrophe ∉ s) (rest : Text) :
    unquote (s ++ rest) = s ++ unquote rest := by
  induction s with
  | nil => rfl
  | cons c s ih =>
    simp only [List.mem_cons, not_or] at h
    have hrest := ih h.2
    rw [List.cons_append, List.cons_append, ← hrest]
    cases hs : s ++ rest with
    | nil => simp [unquote, Ne.symm h.1]
    | cons d t => simp [unquote, Ne.symm h.1]

theorem unquote_cons (hne : s.head? ≠ some apostrophe) : unquote (apostrophe :: s) = unquote s := by
  cases s with
  | nil => rfl
  | cons c s =>
    have hc : c ≠ apostrophe := fun h => hne (congrArg some h)
    rw [unquote, if_pos rfl, if_neg hc]

/-- A text in apostrophes says the text, also where the second one is missing. -/
theorem unquote_quoted {close : Text} (hs : apostrophe ∉ s) (hne : s ≠ [] ∨ close = [])
    (hclose : close = [] ∨ close = [apostrophe]) : unquote (apostrophe :: (s ++ close)) = s := by
  have hhead : (s ++ close).head? ≠ some apostrophe := by
    intro h
    cases s with
    | nil =>
      rw [hne.resolve_left (fun h => h rfl)] at h
      cases h
    | cons c s => exact hs (by simpa using Or.inl (Option.some.inj h).symm)
  rw [unquote_cons hhead, unquote_append hs]
  rcases hclose with rfl | rfl
  · exact List.append_nil s
  · exact List.append_nil s

theorem hasOutside_inside (wanted : Char) (h : apostrophe ∉ s) (rest : Text) :
    hasOutside wanted true (s ++ rest) = hasOutside wanted true rest := by
  induction s with
  | nil => rfl
  | cons c s ih =>
    simp only [List.mem_cons, not_or] at h
    rw [List.cons_append, hasOutside, if_neg (Ne.symm h.1), ih h.2]
    rfl

/-- Nothing in apostrophes stands outside of them. -/
theorem hasOutside_quoted (wanted : Char) {close : Text} (hs : apostrophe ∉ s)
    (hclose : close = [] ∨ close = [apostrophe]) :
    hasOutside wanted false (apostrophe :: (s ++ close)) = false := by
  rw [hasOutside, if_pos rfl, Bool.not_false, hasOutside_inside wanted hs]
  rcases hclose with rfl | rfl <;> rfl

end

/-! ## The pieces of a pattern -/

theorem parse_eq_ofPieces {pattern lead body trail : Text}
    (hsplit : splitLead false (pattern.takeWhile (· ≠ ';')) = (lead, body ++ trail))
    (hbody : ∀ c ∈ body, isSymbol c) (htrail : ∀ c ∈ trail.head?, isSymbol c = false) :
    parse pattern = ofPieces pattern lead body trail := by
  have htake : (body ++ trail).takeWhile isSymbol = body := by
    rw [List.takeWhile_append_of_pos hbody]
    cases trail with
    | nil => exact List.append_nil body
    | cons c trail => simp [htrail c rfl]
  have hdrop : (body ++ trail).dropWhile isSymbol = trail := by
    rw [List.dropWhile_append_of_pos hbody]
    cases trail with
    | nil => rfl
    | cons c trail => simp [htrail c rfl]
  unfold parse
  rw [hsplit]
  dsimp only
  rw [htake, hdrop]

section

variable {pattern lead body trail : Text} {q : Pattern}

/-- Other texts around a body leave what the body says. -/
theorem ofPieces_of_body (h : ofPieces pattern lead body trail = .ok q)
    (pattern' lead' trail' : Text) : ofPieces pattern' lead' body trail' = .ok { q with
      lead := unquote lead'
      trail := unquote trail'
      percent := hasOutside '%' false lead' || hasOutside '%' false trail' } := by
  unfold ofPieces at h ⊢
  dsimp only at h ⊢
  split at h
  · cases h
  · split at h
    · cases h
    · rename_i hdigit hpoints
      rw [if_neg hdigit, if_neg hpoints]
      cases h
      rfl

/-- A pattern that is all body puts nothing around the digits. -/
structure Bare (q : Pattern) : Prop where
  lead : q.lead = []
  trail : q.trail = []
  percent : q.percent = false

theorem bare_of_ofPieces (h : ofPieces pattern [] body [] = .ok q) : q.Bare := by
  unfold ofPieces at h
  dsimp only at h
  split at h
  · cases h
  · split at h
    · cases h
    · cases h
      constructor <;> rfl

end

/-! ## A body between quoted texts -/

/-- What is left of a quoted text where a semicolon ends the pattern. -/
def kept (s : Text) : Text := s.takeWhile (· ≠ ';')

theorem takeWhile_of_notMem {c : Char} {s : Text} (h : c ∉ s) (rest : Text) :
    (s ++ rest).takeWhile (· ≠ c) = s ++ rest.takeWhile (· ≠ c) :=
  List.takeWhile_append_of_pos fun d hd => by
    simpa using fun (hdc : d = c) => h (hdc ▸ hd)

theorem takeWhile_of_mem {c : Char} {s : Text} (h : c ∈ s) (rest : Text) :
    (s ++ rest).takeWhile (· ≠ c) = s.takeWhile (· ≠ c) := by
  induction s with
  | nil => cases h
  | cons d s ih =>
    by_cases hd : d = c
    · simp [hd]
    · have hmem : c ∈ s := (List.mem_cons.1 h).resolve_left (Ne.symm hd)
      simp only [List.cons_append, List.takeWhile_cons, ih hmem]

theorem kept_eq_self_iff {s : Text} : kept s = s ↔ ';' ∉ s := by
  unfold kept
  rw [List.takeWhile_eq_self_iff]
  constructor
  · intro h hmem
    simpa using h ';' hmem
  · intro h c hc
    simpa using fun (heq : c = ';') => h (heq ▸ hc)

theorem kept_subset (s : Text) : kept s ⊆ s := (List.takeWhile_prefix _).subset

/-- A quoted text at the end of a pattern, up to a semicolon. -/
theorem takeWhile_close (s : Text) :
    ∃ close, (close = [] ∨ close = [apostrophe]) ∧ (kept s ≠ [] ∨ s = [] ∨ close = []) ∧
      (s ++ [apostrophe]).takeWhile (· ≠ ';') = kept s ++ close := by
  by_cases h : ';' ∈ s
  · refine ⟨[], .inl rfl, .inr (.inr rfl), ?_⟩
    rw [takeWhile_of_mem h, List.append_nil, kept]
  · refine ⟨[apostrophe], .inr rfl, ?_, ?_⟩
    · rw [kept_eq_self_iff.2 h]
      exact (em (s = [])).elim (fun h => .inr (.inl h)) .inl
    · rw [takeWhile_of_notMem h, kept_eq_self_iff.2 h]
      rfl

section

variable {p b s : Text} {q : Pattern}

theorem body_ne_nil (hq : parse b = .ok q) : b ≠ [] := by
  rintro rfl
  cases hq

theorem semicolon_notMem_body (hb : ∀ c ∈ b, isSymbol c) : ';' ∉ b := fun h => by
  have := hb _ h
  simp [isSymbol, isDigitSymbol] at this

theorem parse_body (hb : ∀ c ∈ b, isSymbol c) (hne : b ≠ []) : parse b = ofPieces b [] b [] := by
  obtain ⟨c, b', rfl⟩ := List.exists_cons_of_ne_nil hne
  refine parse_eq_ofPieces ?_ hb (by simp)
  have htake := takeWhile_of_notMem (semicolon_notMem_body hb) []
  rw [List.append_nil, List.takeWhile_nil, List.append_nil] at htake
  rw [htake, List.append_nil, splitLead_symbol (hb c List.mem_cons_self)]

/-- Quoted texts around a body: the first as it stands, the second up to a semicolon. -/
theorem parse_quoted (hp : apostrophe ∉ p) (hne : p ≠ []) (hs : apostrophe ∉ s) (hsne : s ≠ [])
    (hb : ∀ c ∈ b, isSymbol c) (hq : parse b = .ok q) (hsemi : ';' ∉ p) :
    parse (quoted p b s) = .ok { q with lead := p, trail := kept s } := by
  have hbne := body_ne_nil hq
  rw [parse_body hb hbne] at hq
  obtain ⟨close, hclose, hkept, htake⟩ := takeWhile_close s
  have hsplit : splitLead false ((quoted p b s).takeWhile (· ≠ ';')) =
      (apostrophe :: (p ++ [apostrophe]), b ++ apostrophe :: (kept s ++ close)) := by
    obtain ⟨c, b', rfl⟩ := List.exists_cons_of_ne_nil hbne
    have hcut : (quoted p (c :: b') s).takeWhile (· ≠ ';') =
        apostrophe :: (p ++ apostrophe :: (c :: b' ++ apostrophe :: (kept s ++ close))) := by
      rw [quoted, List.takeWhile_cons_of_pos (by decide), takeWhile_of_notMem hsemi,
        List.takeWhile_cons_of_pos (by decide), takeWhile_of_notMem (semicolon_notMem_body hb),
        List.takeWhile_cons_of_pos (by decide), htake]
    rw [hcut, splitLead, if_neg (by decide), if_pos rfl, Bool.not_false, splitLead_inside hp,
      List.cons_append, splitLead_symbol (hb c List.mem_cons_self)]
  rw [parse_eq_ofPieces hsplit hb (by simp [isSymbol, isDigitSymbol, apostrophe]),
    ofPieces_of_body hq, unquote_quoted hp (.inl hne) (.inr rfl),
    hasOutside_quoted '%' hp (.inr rfl)]
  have hs' : apostrophe ∉ kept s := fun h => hs (kept_subset s h)
  rw [unquote_quoted hs' (hkept.imp_right fun h => h.resolve_left hsne) hclose,
    hasOutside_quoted '%' hs' hclose, Bool.or_false, (bare_of_ofPieces hq).percent]

/-- A semicolon in the first text ends the pattern before its body. -/
theorem parse_quoted_of_semicolon (hp : apostrophe ∉ p) (hsemi : ';' ∈ p) (b s : Text) :
    parse (quoted p b s) = .error (.noDigits (quoted p b s)) := by
  have hsplit : splitLead false ((quoted p b s).takeWhile (· ≠ ';')) =
      (apostrophe :: kept p, ([] : Text) ++ []) := by
    rw [quoted, List.takeWhile_cons_of_pos (by decide), takeWhile_of_mem hsemi, splitLead,
      if_neg (by decide), if_pos rfl, Bool.not_false]
    have hopen := splitLead_unclosed fun h => hp (kept_subset p h)
    rw [kept] at hopen ⊢
    rw [hopen]
    rfl
  rw [parse_eq_ofPieces hsplit (by simp) (by simp)]
  rfl

end

/-! ## What is formatted -/

theorem head?_digits_ne_minus (q : Pattern) (d : Decimal) : (q.digits d).head? ≠ some '-' := by
  have hdigit : ∀ c ∈ (q.digits d).head?, c.isDigit ∨ c = '.' := by
    intro c hc
    rw [digits_eq, decimalText, List.head?_append, head?_withCommas] at hc
    cases hwhole : q.whole d with
    | nil =>
      rw [hwhole] at hc
      split at hc
      · cases hc
      · right
        simpa using Eq.symm hc
    | cons e w =>
      rw [hwhole] at hc
      cases hc
      exact .inl (q.isDigit_of_mem_whole d (hwhole ▸ List.mem_cons_self))
  intro h
  rcases hdigit '-' h with h | h <;> cases h

theorem surround_signText {lead trail s : Text} (hs : s.head? ≠ some '-') (negative : Bool) :
    surround lead trail (signText negative ++ s) = signText negative ++ lead ++ s ++ trail := by
  cases negative with
  | true => simp [signText, surround]
  | false =>
    cases s with
    | nil => rfl
    | cons c s =>
      have hc : c ≠ '-' := fun h => hs (congrArg some h)
      simp [signText, surround, hc]

/-- Texts of a pattern stand around the digits that it would show without them. -/
theorem format_surround {q : Pattern} (hq : q.Bare) (lead trail : Text) {x : Float}
    (hx : Double.reading x ≠ .nan) :
    format { q with lead := lead, trail := trail } x = surround lead trail (q.format x) := by
  have hscale : q.scale x = x := by rw [scale, hq.percent]; rfl
  have hscale' : scale { q with lead := lead, trail := trail } x = x := hscale
  unfold format
  rw [hscale, hscale', hq.lead, hq.trail]
  cases h : Double.reading x with
  | nan => exact absurd h hx
  | infinite negative =>
    dsimp only
    rw [List.append_nil, surround_signText (by decide)]
    simp
  | finite negative m e =>
    dsimp only
    rw [List.append_nil, List.append_nil,
      surround_signText (head?_digits_ne_minus q _)]
    rfl

theorem length_surround (lead trail s : Text) :
    (surround lead trail s).length = lead.length + s.length + trail.length := by
  unfold surround
  split
  · simp only [List.length_cons, List.length_append]
    omega
  · simp only [List.length_append]

/-- Quoted text is literal, and the pattern is accepted, exactly if there is no semicolon in it. -/
theorem parse_quoted_literal_iff {p b s : Text} {q : Pattern} (hp : apostrophe ∉ p) (hne : p ≠ [])
    (hs : apostrophe ∉ s) (hsne : s ≠ []) (hb : ∀ c ∈ b, isSymbol c) (hq : parse b = .ok q) :
    (∃ r, parse (quoted p b s) = .ok r ∧
        ∀ x : Float, Double.reading x ≠ .nan → r.format x = surround p s (q.format x)) ↔
      ';' ∉ p ∧ ';' ∉ s := by
  have hbare : q.Bare := bare_of_ofPieces (parse_body hb (body_ne_nil hq) ▸ hq)
  constructor
  · rintro ⟨r, hr, hformat⟩
    have hsemi : ';' ∉ p := by
      intro h
      rw [parse_quoted_of_semicolon hp h] at hr
      cases hr
    refine ⟨hsemi, kept_eq_self_iff.1 ?_⟩
    rw [parse_quoted hp hne hs hsne hb hq hsemi] at hr
    cases hr
    have hone : Double.reading 1 ≠ .nan := by decide +kernel
    -- any number shows what is left of the second text
    have hlength := congrArg List.length (hformat 1 hone)
    rw [format_surround hbare p (kept s) hone, length_surround, length_surround] at hlength
    have hkept : (kept s).length = s.length := by omega
    exact (List.takeWhile_prefix _).eq_of_length hkept
  · rintro ⟨hp', hs'⟩
    refine ⟨_, parse_quoted hp hne hs hsne hb hq hp', fun x hx => ?_⟩
    rw [kept_eq_self_iff.2 hs']
    exact format_surround hbare p s hx

theorem parse_quoted_literal_symbols :
    let q : Pattern := ⟨[], [], 1, 2, 2, some 3, false⟩
    apostrophe ∉ "%,".toList ∧ "%,".toList ≠ [] ∧ apostrophe ∉ "0#".toList ∧ "0#".toList ≠ [] ∧
      (∀ c ∈ "#,##0.00".toList, isSymbol c) ∧ parse "#,##0.00".toList = .ok q ∧
      ((∃ r, parse (quoted "%,".toList "#,##0.00".toList "0#".toList) = .ok r ∧
          ∀ x : Float, Double.reading x ≠ .nan →
            r.format x = surround "%,".toList "0#".toList (q.format x)) ↔
        ';' ∉ "%,".toList ∧ ';' ∉ "0#".toList) := by
  intro q
  have hp : apostrophe ∉ "%,".toList := by decide
  have hs : apostrophe ∉ "0#".toList := by decide
  have hb : ∀ c ∈ "#,##0.00".toList, isSymbol c :=
    List.all_eq_true.1 (by decide +kernel)
  have hq : parse "#,##0.00".toList = .ok q := by decide +kernel
  exact ⟨hp, by decide, hs, by decide, hb, hq,
    parse_quoted_literal_iff hp (by decide) hs (by decide) hb hq⟩

/-- A semicolon cuts a quoted text off, and with it the body. -/
theorem parse_quoted_semicolon :
    apostrophe ∉ [';'] ∧ apostrophe ∉ ['x'] ∧ isSymbol '0' ∧
      parse ['0'] = .ok ⟨[], [], 1, 0, 0, none, false⟩ ∧
      quoted [';'] ['0'] ['x'] = "';'0'x'".toList ∧
      parse (quoted [';'] ['0'] ['x']) = .error (.noDigits "';'0'x'".toList) := by
  refine ⟨by decide, by decide, by decide, by decide +kernel, by decide +kernel, ?_⟩
  exact parse_quoted_of_semicolon (by decide) (by decide) ['0'] ['x']

end PageTemplate.Pattern
