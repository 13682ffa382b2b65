import Mathlib.Data.List.TakeWhile
import PageTemplate.Proofs.Element.Chunk
import PageTemplate.Proofs.Settings.Entry

/-! What settings can hold. No text in them has a line feed, names have no equals sign, and what an
argument says is not empty. Every line sets such an entry, so the settings of every text are so. -/
namespace PageTemplate

/-- A text that stays on one line. -/
def OneLine (s : Text) : Prop := '\n' ∉ s

instance (s : Text) : Decidable (OneLine s) := inferInstanceAs (Decidable ('\n' ∉ s))

/-- A text that an argument of a line can say. -/
structure IsValue (s : Text) : Prop where
  ne_nil : s ≠ []
  oneLine : OneLine s

instance (s : Text) : Decidable (IsValue s) :=
  decidable_of_iff (s ≠ [] ∧ OneLine s) ⟨fun h => ⟨h.1, h.2⟩, fun h => ⟨h.ne_nil, h.oneLine⟩⟩

/-- A name and a value that a token of a line can say. -/
structure IsPair (name value : Text) : Prop where
  isValue : IsValue name
  noEquals : '=' ∉ name
  oneLine : OneLine value

instance (name value : Text) : Decidable (IsPair name value) :=
  decidable_of_iff (IsValue name ∧ '=' ∉ name ∧ OneLine value)
    ⟨fun h => ⟨h.1, h.2.1, h.2.2⟩, fun h => ⟨h.isValue, h.noEquals, h.oneLine⟩⟩

structure Cookie.Writable (c : Cookie) : Prop where
  pair : IsPair c.name c.value
  domain : ∀ t ∈ c.domain, OneLine t
  path : ∀ t ∈ c.path, OneLine t

instance (c : Cookie) : Decidable c.Writable :=
  decidable_of_iff (IsPair c.name c.value ∧ (∀ t ∈ c.domain, OneLine t) ∧ ∀ t ∈ c.path, OneLine t)
    ⟨fun h => ⟨h.1, h.2.1, h.2.2⟩, fun h => ⟨h.pair, h.domain, h.path⟩⟩

structure Settings.Writable (s : Settings) : Prop where
  request : ∀ p ∈ s.request.entries, IsPair p.1 p.2
  persistent : ∀ p ∈ s.persistent.entries, IsPair p.1 p.2
  mimeType : ∀ t ∈ s.mimeType, IsValue t
  encoding : ∀ t ∈ s.encoding, (Encoding.ofName? t).isSome
  statusText : ∀ t ∈ s.statusText, IsValue t ∧ s.statusCode.isSome
  cookies : ∀ c ∈ s.cookies, c.Writable

def Settings.Entry.Writable : Entry → Prop
  | request name value => IsPair name value
  | persistent name value => IsPair name value
  | mimeType s => IsValue s
  | encoding name => (Encoding.ofName? name).isSome
  | status _ phrase => ∀ t ∈ phrase, IsValue t
  | header _ => True
  | cookie c => c.Writable

theorem oneLine_nil : OneLine [] := List.not_mem_nil

theorem OneLine.mono {s t : Text} (h : OneLine s) (hsub : ∀ c ∈ t, c ∈ s) : OneLine t :=
  fun hc => h (hsub _ hc)

theorem OneLine.append {s t : Text} (hs : OneLine s) (ht : OneLine t) : OneLine (s ++ t) := by
  intro hc
  rcases List.mem_append.1 hc with hc | hc
  · exact hs hc
  · exact ht hc

theorem OneLine.cons {c : Char} {s : Text} (hc : c ≠ '\n') (hs : OneLine s) : OneLine (c :: s) :=
  fun h => (List.mem_cons.1 h).elim (fun he => hc he.symm) hs

theorem IsValue.append {s t : Text} (hs : IsValue s) (ht : OneLine t) : IsValue (s ++ t) where
  ne_nil := fun h => hs.ne_nil (List.append_eq_nil_iff.1 h).1
  oneLine := hs.oneLine.append ht

theorem isValue_natText (n : Nat) : IsValue (Header.natText n) where
  ne_nil := Nat.toDigits_ne_nil
  oneLine := fun hc =>
    absurd (Nat.isDigit_of_mem_toDigits (by decide) (by decide) hc) (by decide)

/-! ## Entries that are set -/

theorem ParameterMap.mem_entries_insert {m : ParameterMap} {name value : Text} {p : Text × Text}
    (h : p ∈ (m.insert name value).entries) : p = (name, value) ∨ p ∈ m.entries := by
  unfold insert at h
  split at h
  · obtain ⟨e, he, rfl⟩ := List.mem_map.1 h
    unfold assign
    split
    · exact .inl rfl
    · exact .inr he
  · rcases List.mem_append.1 h with h | h
    · exact .inr h
    · exact .inl (List.mem_singleton.1 h)

namespace Settings

theorem writable_empty : empty.Writable where
  request _ h := nomatch h
  persistent _ h := nomatch h
  mimeType _ h := nomatch h
  encoding _ h := nomatch h
  statusText _ h := nomatch h
  cookies _ h := nomatch h

theorem Writable.set {s : Settings} {e : Entry} (hs : s.Writable) (he : e.Writable) :
    (e.set s).Writable := by
  obtain ⟨hrequest, hpersistent, hmime, hencoding, htext, hcookies⟩ := hs
  cases e with
  | request name value =>
    refine ⟨fun p hp => ?_, hpersistent, hmime, hencoding, htext, hcookies⟩
    rcases ParameterMap.mem_entries_insert hp with rfl | hp
    · exact he
    · exact hrequest p hp
  | persistent name value =>
    refine ⟨hrequest, fun p hp => ?_, hmime, hencoding, htext, hcookies⟩
    rcases ParameterMap.mem_entries_insert hp with rfl | hp
    · exact he
    · exact hpersistent p hp
  | mimeType mime =>
    refine ⟨hrequest, hpersistent, fun t ht => ?_, hencoding, htext, hcookies⟩
    cases ht
    exact he
  | encoding name =>
    refine ⟨hrequest, hpersistent, hmime, fun t ht => ?_, htext, hcookies⟩
    cases ht
    exact he
  | status code phrase =>
    refine ⟨hrequest, hpersistent, hmime, hencoding, fun t ht => ⟨?_, rfl⟩, hcookies⟩
    rcases Option.or_eq_some_iff.1 ht with ht | ⟨-, ht⟩
    · exact he t ht
    · exact (htext t ht).1
  | header on => exact ⟨hrequest, hpersistent, hmime, hencoding, htext, hcookies⟩
  | cookie c =>
    refine ⟨hrequest, hpersistent, hmime, hencoding, htext, fun d hd => ?_⟩
    rcases List.mem_append.1 hd with hd | hd
    · exact hcookies d hd
    · rw [List.mem_singleton.1 hd]
      exact he

theorem Writable.setAll {s : Settings} {es : List Entry} (hs : s.Writable)
    (hes : ∀ e ∈ es, e.Writable) : (es.foldl Entry.set s).Writable := by
  induction es generalizing s with
  | nil => exact hs
  | cons e es ih =>
    exact ih (hs.set (hes e List.mem_cons_self)) fun d hd => hes d (List.mem_cons_of_mem e hd)

/-! ## Entries that are read -/

theorem splitPair?_eq_some {s name value : Text} (h : splitPair? s = some (name, value)) :
    s = name ++ '=' :: value ∧ name ≠ [] ∧ '=' ∉ name := by
  have hsplit := List.takeWhile_append_dropWhile (p := fun c : Char => decide (c ≠ '=')) (l := s)
  have hequals : '=' ∉ s.takeWhile fun c => decide (c ≠ '=') := by
    intro hmem
    simpa using List.mem_takeWhile_imp hmem
  have hhead := List.head?_dropWhile_not (fun c : Char => decide (c ≠ '=')) s
  unfold splitPair? at h
  cases htake : s.takeWhile fun c => decide (c ≠ '=') with
  | nil =>
    rw [htake] at h
    cases h
  | cons c cs =>
    cases hdrop : s.dropWhile fun c => decide (c ≠ '=') with
    | nil =>
      rw [htake, hdrop] at h
      cases h
    | cons d rest =>
      rw [htake, hdrop] at h
      cases h
      rw [htake] at hequals
      rw [hdrop] at hhead
      obtain rfl : d = '=' := by simpa using hhead
      rw [htake, hdrop] at hsplit
      exact ⟨hsplit.symm, List.cons_ne_nil c cs, hequals⟩

theorem isPair_of_splitPair? {token name value : Text} (h : OneLine token)
    (hpair : splitPair? token = some (name, value)) : IsPair name value := by
  obtain ⟨rfl, hne, hequals⟩ := splitPair?_eq_some hpair
  exact ⟨⟨hne, h.mono fun c hc => List.mem_append_left _ hc⟩, hequals,
    h.mono fun c hc => List.mem_append_right _ (List.mem_cons_of_mem _ hc)⟩

section Results

variable {ε α β : Type} {x : Except ε α} {b : β}

theorem map_eq_ok_iff {f : α → β} : x.map f = .ok b ↔ ∃ a, x = .ok a ∧ f a = b := by
  cases x <;> simp [Except.map]

theorem bind_eq_ok_iff {f : α → Except ε β} : x.bind f = .ok b ↔ ∃ a, x = .ok a ∧ f a = .ok b := by
  cases x <;> simp [Except.bind]

end Results

theorem single_eq_ok_iff {directive a : Text} {arguments : List Text} :
    single directive arguments = .ok a ↔ arguments = [a] := by
  unfold single
  split <;> simp_all

theorem singlePair_eq_ok_iff {directive : Text} {arguments : List Text} {p : Text × Text} :
    singlePair directive arguments = .ok p ↔
      ∃ token, arguments = [token] ∧ splitPair? token = some p := by
  refine bind_eq_ok_iff.trans (exists_congr fun token => ?_)
  rw [single_eq_ok_iff]
  refine and_congr_right fun _ => ?_
  cases splitPair? token <;> simp

theorem mem_joinWords {ws : List Text} {c : Char} (h : c ∈ joinWords ws) :
    c = ' ' ∨ ∃ w ∈ ws, c ∈ w := by
  induction ws with
  | nil => cases h
  | cons v ws ih =>
    cases ws with
    | nil => exact .inr ⟨v, List.mem_singleton_self v, h⟩
    | cons w ws =>
      rcases List.mem_append.1 h with h | h
      · exact .inr ⟨v, List.mem_cons_self, h⟩
      rcases List.mem_cons.1 h with h | h
      · exact .inl h
      · exact (ih h).imp_right fun ⟨u, hu, hc⟩ => ⟨u, List.mem_cons_of_mem v hu, hc⟩

theorem isValue_joinWords {ws : List Text} (hne : ws ≠ []) (h : ∀ w ∈ ws, IsValue w) :
    IsValue (joinWords ws) where
  ne_nil := by
    cases ws with
    | nil => exact absurd rfl hne
    | cons v ws =>
      have hv := (h v List.mem_cons_self).ne_nil
      cases ws <;> simp [joinWords, hv]
  oneLine := by
    intro hc
    rcases mem_joinWords hc with hc | ⟨w, hw, hc⟩
    · exact absurd hc (by decide)
    · exact (h w hw).oneLine hc

theorem writable_of_addAttribute {c d : Cookie} {token : Text} (hc : c.Writable)
    (ht : OneLine token) (h : addAttribute c token = .ok d) : d.Writable := by
  unfold addAttribute at h
  cases hp : splitPair? token with
  | none =>
    rw [hp] at h
    cases h
  | some p =>
    obtain ⟨key, value⟩ := p
    have hvalue : OneLine value := (isPair_of_splitPair? ht hp).oneLine
    rw [hp] at h
    dsimp only at h
    split at h
    · cases h
      exact ⟨hc.pair, fun t ht => by cases ht; exact hvalue, hc.path⟩
    split at h
    · cases h
      exact ⟨hc.pair, hc.domain, fun t ht => by cases ht; exact hvalue⟩
    split at h
    · cases hage : maxAge? value <;> rw [hage] at h <;> cases h
      exact ⟨hc.pair, hc.domain, hc.path⟩
    · cases h

theorem writable_of_addAttributes {c d : Cookie} {tokens : List Text} (hc : c.Writable)
    (ht : ∀ t ∈ tokens, OneLine t) (h : addAttributes c tokens = .ok d) : d.Writable := by
  induction tokens generalizing c with
  | nil =>
    cases h
    exact hc
  | cons t ts ih =>
    obtain ⟨b, hone, hrest⟩ := bind_eq_ok_iff.1 h
    have hb := writable_of_addAttribute hc (ht t List.mem_cons_self) hone
    exact ih hb (fun u hu => ht u (List.mem_cons_of_mem t hu)) hrest

theorem writable_of_readCookie {arguments : List Text} {c : Cookie}
    (harguments : ∀ a ∈ arguments, IsValue a) (h : readCookie arguments = .ok c) : c.Writable := by
  cases arguments with
  | nil => cases h
  | cons token attributes =>
    unfold readCookie at h
    dsimp only at h
    cases hp : splitPair? token with
    | none =>
      rw [hp] at h
      cases h
    | some p =>
      obtain ⟨name, value⟩ := p
      have hpair := isPair_of_splitPair? (harguments token List.mem_cons_self).oneLine hp
      have hbegin : Cookie.Writable ⟨name, value, none, none, none⟩ :=
        ⟨hpair, fun t ht => (nomatch ht), fun t ht => (nomatch ht)⟩
      rw [hp] at h
      exact writable_of_addAttributes hbegin
        (fun t ht => (harguments t (List.mem_cons_of_mem token ht)).oneLine) h

theorem writable_of_readStatus {arguments : List Text} {e : Entry}
    (harguments : ∀ a ∈ arguments, IsValue a) (h : readStatus arguments = .ok e) :
    e.Writable := by
  cases arguments with
  | nil => cases h
  | cons code words =>
    unfold readStatus at h
    dsimp only at h
    cases hcode : statusCode? code with
    | none =>
      rw [hcode] at h
      cases h
    | some n =>
      rw [hcode] at h
      cases h
      intro t ht
      split at ht
      · cases ht
      · rename_i hne
        cases ht
        exact isValue_joinWords hne fun w hw => harguments w (List.mem_cons_of_mem code hw)

theorem writable_of_readEntry {directive : Text} {arguments : List Text} {e : Entry}
    (harguments : ∀ a ∈ arguments, IsValue a) (h : readEntry directive arguments = .ok e) :
    e.Writable := by
  have hpair : ∀ {p : Text × Text}, singlePair directive arguments = .ok p → IsPair p.1 p.2 := by
    intro p hp
    obtain ⟨token, rfl, htoken⟩ := singlePair_eq_ok_iff.1 hp
    exact isPair_of_splitPair? (harguments token List.mem_cons_self).oneLine htoken
  unfold readEntry at h
  split at h
  · obtain ⟨p, hp, rfl⟩ := map_eq_ok_iff.1 h
    exact hpair hp
  split at h
  · obtain ⟨p, hp, rfl⟩ := map_eq_ok_iff.1 h
    exact hpair hp
  split at h
  · obtain ⟨mime, hmime, rfl⟩ := map_eq_ok_iff.1 h
    rw [single_eq_ok_iff] at hmime
    subst hmime
    exact harguments mime List.mem_cons_self
  split at h
  · obtain ⟨name, -, hname⟩ := bind_eq_ok_iff.1 h
    unfold readEncoding at hname
    split at hname
    · rename_i hknown
      cases hname
      exact hknown
    · cases hname
  split at h
  · exact writable_of_readStatus harguments h
  split at h
  · obtain ⟨on, -, rfl⟩ := map_eq_ok_iff.1 h
    trivial
  split at h
  · obtain ⟨c, hc, rfl⟩ := map_eq_ok_iff.1 h
    exact writable_of_readCookie harguments hc
  · cases h

/-! ## Lines -/

theorem mem_flushArgument {said a : Text} {rest : List Text} (h : a ∈ flushArgument said rest) :
    (a ≠ [] ∧ ∀ c ∈ a, c ∈ said) ∨ a ∈ rest := by
  unfold flushArgument at h
  split at h
  · exact .inr h
  · rename_i hne
    refine (List.mem_cons.1 h).imp_left fun ha => ?_
    rw [ha]
    exact ⟨List.reverse_ne_nil_iff.2 hne, fun c hc => List.mem_reverse.1 hc⟩

/-- An argument is not empty, and all that it says stands in the line. -/
theorem mem_argumentsFrom {inside : Bool} {said s a : Text} (h : a ∈ argumentsFrom inside said s) :
    a ≠ [] ∧ ∀ c ∈ a, c ∈ said ∨ c ∈ s := by
  revert h
  fun_induction argumentsFrom inside said s with
  | case1 inside said =>
    intro h
    rcases mem_flushArgument h with h | h
    · exact ⟨h.1, fun c hc => .inl (h.2 c hc)⟩
    · cases h
  | case2 inside said s ih =>
    intro h
    exact (ih h).imp_right fun hsub c hc => (hsub c hc).imp_right (List.mem_cons_of_mem _)
  | case3 inside said c hq hb =>
    intro h
    rcases mem_flushArgument h with h | h
    · exact ⟨h.1, fun c hc => .inl (h.2 c hc)⟩
    · cases h
  | case4 inside said c hq hb d s ih =>
    intro h
    refine (ih h).imp_right fun hsub b hb => ?_
    rcases hsub b hb with hb | hb
    · rcases List.mem_cons.1 hb with rfl | hb
      · exact .inr (List.mem_cons_of_mem _ List.mem_cons_self)
      · exact .inl hb
    · exact .inr (List.mem_cons_of_mem _ (List.mem_cons_of_mem _ hb))
  | case5 inside said c s hq hb hblank ih =>
    intro h
    rcases mem_flushArgument h with h | h
    · exact ⟨h.1, fun c hc => .inl (h.2 c hc)⟩
    · refine (ih h).imp_right fun hsub b hb => .inr (List.mem_cons_of_mem _ ?_)
      exact (hsub b hb).resolve_left fun hnil => nomatch hnil
  | case6 inside said c s hq hb hblank ih =>
    intro h
    refine (ih h).imp_right fun hsub b hb => ?_
    rcases hsub b hb with hb | hb
    · rcases List.mem_cons.1 hb with rfl | hb
      · exact .inr List.mem_cons_self
      · exact .inl hb
    · exact .inr (List.mem_cons_of_mem _ hb)

theorem isValue_of_mem_splitDirective {raw a : Text} (hraw : OneLine raw)
    (h : a ∈ (splitDirective (Text.trim raw)).2) : IsValue a := by
  obtain ⟨hne, hsub⟩ := mem_argumentsFrom h
  refine ⟨hne, hraw.mono fun c hc => ?_⟩
  have hrest := (hsub c hc).resolve_left fun hnil => nomatch hnil
  have hdrop := List.mem_of_mem_drop ((Text.trim_isInfix _).subset hrest)
  exact (Text.trim_isInfix raw).subset ((List.dropWhile_suffix _).subset hdrop)

theorem writable_of_entryOf? {raw : Text} {e : Entry} (hraw : OneLine raw)
    (h : entryOf? raw = some e) : e.Writable := by
  have hread : readLine raw = .ok (some e) := by
    unfold entryOf? at h
    cases hline : readLine raw with
    | ok e' => rw [hline] at h; exact congrArg _ h
    | error cause => rw [hline] at h; cases h
  unfold readLine at hread
  split at hread
  · cases hread
  · obtain ⟨e', he, hsome⟩ := map_eq_ok_iff.1 hread
    cases hsome
    exact writable_of_readEntry (fun a ha => isValue_of_mem_splitDirective hraw ha) he

theorem oneLine_of_mem_linesFrom {said s line : Text} (hsaid : OneLine said)
    (h : line ∈ linesFrom said s) : OneLine line := by
  induction s generalizing said with
  | nil =>
    rw [List.mem_singleton.1 h]
    exact hsaid.mono fun c hc => List.mem_reverse.1 hc
  | cons c s ih =>
    unfold linesFrom at h
    split at h
    · rcases List.mem_cons.1 h with rfl | h
      · exact hsaid.mono fun c hc => List.mem_reverse.1 hc
      · exact ih oneLine_nil h
    · rename_i hc
      refine ih (fun hmem => ?_) h
      rcases List.mem_cons.1 hmem with hmem | hmem
      · exact hc hmem.symm
      · exact hsaid hmem

theorem oneLine_of_mem_splitLines {s line : Text} (h : line ∈ splitLines s) : OneLine line :=
  oneLine_of_mem_linesFrom oneLine_nil h

/-- The settings of a text hold only what a text can say. -/
theorem writable_load (text : Text) : (load text).1.Writable := by
  rw [settings_load]
  refine writable_empty.setAll fun e he => ?_
  obtain ⟨raw, hraw, he⟩ := List.mem_filterMap.1 he
  exact writable_of_entryOf? (oneLine_of_mem_splitLines hraw) he

end Settings
end PageTemplate
