import Mathlib.Data.List.Forall2
import PageTemplate.Proofs.Settings.Argument
import PageTemplate.Proofs.Settings.Writable

/-! Settings written as text and read back. There is a line for every entry, with its arguments
between quotes. Just the settings that some text says are read back from their own text. -/
namespace PageTemplate

/-! ## Texts of settings -/

namespace Settings

def pairText (name value : Text) : Text := name ++ '=' :: value

/-- A cookie and its attributes. -/
def cookieArguments (c : Cookie) : List Text :=
  pairText c.name c.value :: (c.domain.toList.map (pairText "domain".toList) ++
    c.path.toList.map (pairText "path".toList) ++
    c.maxAge.toList.map fun n => pairText "max-age".toList (Header.natText n.toNat))

def headerWord (on : Bool) : Text := if on then "on".toList else "off".toList

/-- A word of its own, with quotes or without. -/
def spellWord (bare : Bool) (w : Text) : Text := if bare then w else quoteArgument w

namespace Entry

def keyword : Entry → String
  | request .. => "param"
  | persistent .. => "pparam"
  | mimeType _ => "mime"
  | encoding _ => "encoding"
  | status .. => "status"
  | header _ => "header"
  | cookie _ => "cookie"

def directive (e : Entry) : Text := e.keyword.toList

/-- What the arguments say. -/
def arguments : Entry → List Text
  | request name value => [pairText name value]
  | persistent name value => [pairText name value]
  | mimeType s => [s]
  | encoding name => [name]
  | status code phrase => Header.natText code.toNat :: phrase.toList
  | header on => [headerWord on]
  | cookie c => cookieArguments c

/-- How the arguments are written: a status code and the words of a header may go without
quotes. -/
def spelled (bare : Bool) : Entry → List Text
  | status code phrase =>
    spellWord bare (Header.natText code.toNat) :: phrase.toList.map quoteArgument
  | header on => [spellWord bare (headerWord on)]
  | e => e.arguments.map quoteArgument

def line (bare : Bool) (e : Entry) : Text := joinWords (e.directive :: e.spelled bare)

end Entry

/-- The entries that make the settings, in the order of their lines. -/
def toEntries (s : Settings) : List Entry :=
  s.request.entries.map (fun p => Entry.request p.1 p.2) ++
    s.persistent.entries.map (fun p => Entry.persistent p.1 p.2) ++
    s.mimeType.toList.map Entry.mimeType ++ s.encoding.toList.map Entry.encoding ++
    s.statusCode.toList.map (Entry.status · s.statusText) ++ [Entry.header s.wantsHeader] ++
    s.cookies.map Entry.cookie

/-- Lines as one text, each with its line feed. -/
def unlines (lines : List Text) : Text := lines.flatMap (· ++ ['\n'])

/-- The settings as a text, which has a line for each entry. -/
def source (bare : Bool) (s : Settings) : Text := unlines (s.toEntries.map (Entry.line bare))

/-! ## Numbers -/

theorem natBelow?_natText {bound n : Nat} (h : n < bound) :
    natBelow? bound (Header.natText n) = some n := by
  have hdigits : ∀ c ∈ Nat.toDigits 10 n, c.isDigit := fun c hc =>
    Nat.isDigit_of_mem_toDigits (by decide) (by decide) hc
  have hvalue := digitsValue?_toDigits n
  unfold natBelow? Header.natText
  split
  · rename_i r hr
    rw [hr] at hdigits
    exact absurd (hdigits '+' List.mem_cons_self) (by decide)
  · dsimp only
    rw [hvalue]
    simp [h]

theorem statusCode?_natText (n : UInt16) : statusCode? (Header.natText n.toNat) = some n := by
  rw [statusCode?, natBelow?_natText n.toNat_lt, Option.map_some, UInt16.ofNat_toNat]

theorem maxAge?_natText (n : UInt32) : maxAge? (Header.natText n.toNat) = some n := by
  rw [maxAge?, natBelow?_natText n.toNat_lt, Option.map_some, UInt32.ofNat_toNat]

/-! ## Arguments that are read -/

theorem splitPair?_pairText {name value : Text} (h : IsPair name value) :
    splitPair? (pairText name value) = some (name, value) :=
  splitPair?_append value h.isValue.ne_nil h.noEquals

theorem addAttribute_domain (c : Cookie) (t : Text) :
    addAttribute c (pairText "domain".toList t) = .ok { c with domain := some t } := by
  rw [addAttribute, pairText, splitPair?_append t (by decide) (by decide)]
  rfl

theorem addAttribute_path (c : Cookie) (t : Text) :
    addAttribute c (pairText "path".toList t) = .ok { c with path := some t } := by
  rw [addAttribute, pairText, splitPair?_append t (by decide) (by decide)]
  rfl

theorem addAttribute_maxAge (c : Cookie) (n : UInt32) :
    addAttribute c (pairText "max-age".toList (Header.natText n.toNat)) =
      .ok { c with maxAge := some n } := by
  rw [addAttribute, pairText, splitPair?_append _ (by decide) (by decide)]
  have hage := maxAge?_natText n
  simp [hage]

theorem addAttributes_append (c : Cookie) (us vs : List Text) :
    addAttributes c (us ++ vs) = (addAttributes c us).bind (addAttributes · vs) := by
  induction us generalizing c with
  | nil => rfl
  | cons u us ih =>
    change (addAttribute c u).bind _ = ((addAttribute c u).bind _).bind _
    cases addAttribute c u with
    | error e => rfl
    | ok d => exact ih d

/-- An attribute that may be left out. -/
theorem addAttributes_toList {α : Type} {c : Cookie} {token : α → Text} (set : Option α → Cookie)
    (hnone : set none = c) (hsome : ∀ a, addAttribute c (token a) = .ok (set (some a)))
    (o : Option α) : addAttributes c (o.toList.map token) = .ok (set o) := by
  cases o with
  | none =>
    rw [hnone]
    rfl
  | some a =>
    change (addAttribute c (token a)).bind _ = _
    rw [hsome a]
    rfl

theorem readCookie_cookieArguments {c : Cookie} (h : c.Writable) :
    readCookie (cookieArguments c) = .ok c := by
  obtain ⟨name, value, domain, path, maxAge⟩ := c
  have hpair := splitPair?_pairText h.pair
  have hdomain := addAttributes_toList (⟨name, value, ·, none, none⟩) rfl
    (addAttribute_domain _) domain
  have hpath := addAttributes_toList (⟨name, value, domain, ·, none⟩) rfl
    (addAttribute_path _) path
  have hage := addAttributes_toList (⟨name, value, domain, path, ·⟩) rfl
    (addAttribute_maxAge _) maxAge
  simp only [readCookie, cookieArguments, hpair]
  rw [addAttributes_append, addAttributes_append, hdomain, Except.bind, hpath, Except.bind, hage]

theorem singlePair_pairText {name value : Text} (h : IsPair name value) (directive : Text) :
    singlePair directive [pairText name value] = .ok (name, value) :=
  singlePair_eq_ok_iff.2 ⟨_, rfl, splitPair?_pairText h⟩

theorem readHeaderWord_headerWord (on : Bool) : readHeaderWord (headerWord on) = .ok on := by
  cases on <;> decide

theorem readStatus_natText (code : UInt16) (phrase : Option Text) :
    readStatus (Header.natText code.toNat :: phrase.toList) = .ok (.status code phrase) := by
  rw [readStatus, statusCode?_natText]
  cases phrase <;> rfl

/-- The arguments of an entry say it. -/
theorem readEntry_arguments {e : Entry} (h : e.Writable) :
    readEntry e.directive e.arguments = .ok e := by
  rw [Entry.directive]
  cases e with
  | request name value =>
    simp [readEntry, Entry.keyword, Entry.arguments, singlePair_pairText h, Except.map]
  | persistent name value =>
    simp [readEntry, Entry.keyword, Entry.arguments, singlePair_pairText h, Except.map]
  | mimeType s => simp [readEntry, Entry.keyword, Entry.arguments, single, Except.map]
  | encoding name =>
    have hknown : readEncoding name = .ok (.encoding name) := if_pos h
    simp [readEntry, Entry.keyword, Entry.arguments, single, hknown, Except.bind]
  | status code phrase =>
    simp [readEntry, Entry.keyword, Entry.arguments, readStatus_natText]
  | header on =>
    simp [readEntry, Entry.keyword, Entry.arguments, single, readHeaderWord_headerWord,
      Except.bind, Except.map]
  | cookie c =>
    simp [readEntry, Entry.keyword, Entry.arguments, readCookie_cookieArguments h, Except.map]

/-! ## Words of a line -/

/-- What an argument may look like on a line. -/
def Spells (w s : Text) : Prop := w = quoteArgument s ∨ w = s ∧ ∀ c ∈ s, isPlain c

theorem isPlain_of_mem_natText {n : Nat} : ∀ c ∈ Header.natText n, isPlain c := fun _ hc =>
  isPlain_of_isDigit (Nat.isDigit_of_mem_toDigits (by decide) (by decide) hc)

theorem isPlain_of_mem_headerWord {on : Bool} : ∀ c ∈ headerWord on, isPlain c := by
  cases on <;> simp [headerWord, isPlain]

theorem spells_spellWord (bare : Bool) {s : Text} (h : ∀ c ∈ s, isPlain c) :
    Spells (spellWord bare s) s := by
  cases bare with
  | false => exact .inl rfl
  | true => exact .inr ⟨rfl, h⟩

theorem spells_map_quoteArgument (ss : List Text) :
    List.Forall₂ Spells (ss.map quoteArgument) ss :=
  List.forall₂_map_left_iff.2 (List.forall₂_same.2 fun _ _ => .inl rfl)

theorem Entry.spells_spelled (bare : Bool) (e : Entry) :
    List.Forall₂ Spells (e.spelled bare) e.arguments := by
  cases e with
  | status code phrase =>
    exact .cons (spells_spellWord bare isPlain_of_mem_natText) (spells_map_quoteArgument _)
  | header on => exact .cons (spells_spellWord bare isPlain_of_mem_headerWord) .nil
  | _ => exact spells_map_quoteArgument _

theorem isArgument_of_spells {w s : Text} (hs : s ≠ []) (h : Spells w s) : IsArgument w s := by
  rcases h with rfl | ⟨rfl, hplain⟩
  · exact isArgument_quoteArgument hs
  · exact isArgument_of_isPlain hs hplain

theorem oneLine_quoteArgument {s : Text} (h : OneLine s) : OneLine (quoteArgument s) := by
  intro hc
  have hmem : '\n' ∈ s.flatMap argumentChar := by simpa [quoteArgument] using hc
  obtain ⟨c, hcs, hc⟩ := List.mem_flatMap.1 hmem
  have heq : '\n' = c := by
    unfold argumentChar at hc
    split at hc <;> simpa using hc
  exact h (heq ▸ hcs)

theorem oneLine_of_spells {w s : Text} (hs : OneLine s) (h : Spells w s) : OneLine w := by
  rcases h with rfl | ⟨rfl, -⟩
  · exact oneLine_quoteArgument hs
  · exact hs

/-! ## Arguments are values -/

theorem isValue_pairText {name value : Text} (hname : OneLine name) (hvalue : OneLine value) :
    IsValue (pairText name value) where
  ne_nil := by simp [pairText]
  oneLine := hname.append (hvalue.cons (by decide))

theorem isValue_headerWord (on : Bool) : IsValue (headerWord on) := by
  cases on <;> exact ⟨by decide, by decide⟩

theorem isValue_of_ofName? {name : Text} (h : (Encoding.ofName? name).isSome) : IsValue name := by
  obtain ⟨e, he⟩ := Option.isSome_iff_exists.1 h
  have hname : name.map Char.toUpper ∈ e.names := by
    have hfound := List.find?_some he
    simpa using hfound
  have hgood : ∀ s ∈ e.names, s ≠ [] ∧ '\n' ∉ s := by cases e <;> decide
  obtain ⟨hne, hline⟩ := hgood _ hname
  refine ⟨fun hnil => hne (by rw [hnil, List.map_nil]), fun hc => hline ?_⟩
  exact List.mem_map.2 ⟨'\n', hc, by decide⟩

theorem isValue_of_mem_cookieArguments {c : Cookie} (h : c.Writable) :
    ∀ a ∈ cookieArguments c, IsValue a := by
  intro a ha
  simp only [cookieArguments, List.mem_cons, List.mem_append, List.mem_map,
    Option.mem_toList] at ha
  rcases ha with rfl | (⟨t, ht, rfl⟩ | ⟨t, ht, rfl⟩) | ⟨n, hn, rfl⟩
  · exact isValue_pairText h.pair.isValue.oneLine h.pair.oneLine
  · exact isValue_pairText (by decide) (h.domain t ht)
  · exact isValue_pairText (by decide) (h.path t ht)
  · exact isValue_pairText (by decide) (isValue_natText n.toNat).oneLine

theorem Entry.isValue_of_mem_arguments {e : Entry} (h : e.Writable) :
    ∀ a ∈ e.arguments, IsValue a := by
  cases e with
  | request name value =>
    have hpair : IsPair name value := h
    exact List.forall_mem_singleton.2 (isValue_pairText hpair.isValue.oneLine hpair.oneLine)
  | persistent name value =>
    have hpair : IsPair name value := h
    exact List.forall_mem_singleton.2 (isValue_pairText hpair.isValue.oneLine hpair.oneLine)
  | mimeType s => exact List.forall_mem_singleton.2 h
  | encoding name => exact List.forall_mem_singleton.2 (isValue_of_ofName? h)
  | status code phrase =>
    intro a ha
    rcases List.mem_cons.1 ha with rfl | ha
    · exact isValue_natText _
    · exact h a (Option.mem_toList.1 ha)
  | header on => exact List.forall_mem_singleton.2 (isValue_headerWord on)
  | cookie c => exact isValue_of_mem_cookieArguments h

/-! ## Lines -/

section Lines

variable {bare : Bool} {e : Entry}

theorem Entry.isPlain_of_mem_directive : ∀ c ∈ e.directive, isPlain c := by
  cases e <;> simp [Entry.directive, Entry.keyword, isPlain]

theorem Entry.directive_ne_nil : e.directive ≠ [] := by
  cases e <;> simp [Entry.directive, Entry.keyword]

theorem Entry.head?_directive_ne : e.directive.head? ≠ some ';' := by
  cases e <;> simp [Entry.directive, Entry.keyword]

theorem Entry.exists_spelled_eq (bare : Bool) (e : Entry) : ∃ w ws, e.spelled bare = w :: ws := by
  cases e <;> exact ⟨_, _, rfl⟩

theorem Entry.isArgument_spelled (h : e.Writable) :
    List.Forall₂ IsArgument (e.spelled bare) e.arguments := by
  refine List.forall₂_iff_zip.2 ⟨(spells_spelled bare e).length_eq, fun hp => ?_⟩
  have hvalue := isValue_of_mem_arguments h _ (List.of_mem_zip hp).2
  exact isArgument_of_spells hvalue.ne_nil (List.forall₂_zip (spells_spelled bare e) hp)

/-- A word of a line says one of its arguments. -/
theorem Entry.exists_argument {w : Text} (hw : w ∈ e.spelled bare) :
    ∃ s ∈ e.arguments, Spells w s := by
  have hspells := spells_spelled bare e
  generalize e.spelled bare = ws at hw hspells
  generalize e.arguments = ss at hspells
  induction hspells with
  | nil => cases hw
  | cons h _ ih =>
    rcases List.mem_cons.1 hw with rfl | hw
    · exact ⟨_, List.mem_cons_self, h⟩
    · obtain ⟨s, hs, hspells⟩ := ih hw
      exact ⟨s, List.mem_cons_of_mem _ hs, hspells⟩

theorem Entry.tight_of_mem (h : e.Writable) :
    ∀ w ∈ e.directive :: e.spelled bare, Text.Tight w := by
  intro w hw
  rcases List.mem_cons.1 hw with rfl | hw
  · exact Text.tight_of_forall directive_ne_nil fun c hc =>
      isSpace_of_isPlain (isPlain_of_mem_directive c hc)
  · obtain ⟨s, hs, hspells⟩ := exists_argument hw
    exact (isArgument_of_spells (isValue_of_mem_arguments h s hs).ne_nil hspells).toTight

theorem Entry.oneLine_line (h : e.Writable) : OneLine (e.line bare) := by
  intro hc
  rcases mem_joinWords hc with hc | ⟨w, hw, hc⟩
  · exact absurd hc (by decide)
  rcases List.mem_cons.1 hw with rfl | hw
  · exact absurd (isPlain_of_mem_directive _ hc) (by decide)
  · obtain ⟨s, hs, hspells⟩ := exists_argument hw
    exact oneLine_of_spells (isValue_of_mem_arguments h s hs).oneLine hspells hc

theorem splitDirective_append {directive : Text}
    (h : ∀ c ∈ directive, Text.isAsciiSpace c = false) (rest : Text) :
    splitDirective (directive ++ ' ' :: rest) = (directive, splitArguments (Text.trim rest)) := by
  have hword : ∀ c ∈ directive, (!Text.isAsciiSpace c) = true := fun c hc => by rw [h c hc]; rfl
  have hblank : (!Text.isAsciiSpace ' ') = false := by decide
  rw [splitDirective, List.takeWhile_append_of_pos hword, List.dropWhile_append_of_pos hword]
  simp [hblank]

/-- The line of an entry is read as the entry. -/
theorem readLine_line (bare : Bool) (h : e.Writable) : readLine (e.line bare) = .ok (some e) := by
  obtain ⟨w, ws, hws⟩ := e.exists_spelled_eq bare
  have htight : ∀ v ∈ e.directive :: e.spelled bare, Text.Tight v := Entry.tight_of_mem h
  have htrim : Text.trim (e.line bare) = e.line bare := by
    rw [Entry.line, joinWords_eq_unsplit, Chunk.trim_unsplit htight]
  have hrest : Text.trim (joinWords (e.spelled bare)) = joinWords (e.spelled bare) := by
    rw [joinWords_eq_unsplit]
    exact Chunk.trim_unsplit fun v hv => htight v (List.mem_cons_of_mem _ hv)
  have hline : e.line bare = e.directive ++ ' ' :: joinWords (e.spelled bare) := by
    rw [Entry.line, hws, joinWords_cons_cons]
  have hidle : isIdle (e.line bare) = false := by
    have hne : e.line bare ≠ [] := by simp [hline]
    have hhead : (e.line bare).head? ≠ some ';' := by
      rw [hline, List.head?_append_of_ne_nil _ Entry.directive_ne_nil]
      exact Entry.head?_directive_ne
    simp [isIdle, hne, hhead]
  have hsplit : splitDirective (e.line bare) = (e.directive, e.arguments) := by
    rw [hline, splitDirective_append
      (fun c hc => isAsciiSpace_of_isPlain (Entry.isPlain_of_mem_directive c hc)), hrest,
      splitArguments_joinWords (Entry.isArgument_spelled h)]
  rw [readLine, htrim, hidle, hsplit]
  exact congrArg (Except.map some) (readEntry_arguments h)

end Lines

theorem linesFrom_oneLine_append (said : Text) {line : Text} (h : OneLine line) (s : Text) :
    linesFrom said (line ++ s) = linesFrom (line.reverse ++ said) s := by
  induction line generalizing said with
  | nil => rfl
  | cons c line ih =>
    have hc : c ≠ '\n' := fun he => h (he ▸ List.mem_cons_self)
    rw [List.cons_append, linesFrom, if_neg hc, ih _ (h.mono fun d => List.mem_cons_of_mem c)]
    simp

theorem linesFrom_append (said : Text) {line : Text} (h : OneLine line) (rest : Text) :
    linesFrom said (line ++ '\n' :: rest) = (said.reverse ++ line) :: linesFrom [] rest := by
  rw [linesFrom_oneLine_append said h, linesFrom, if_pos rfl]
  simp

/-- Lines are cut apart again; after the last line feed there is an empty one. -/
theorem splitLines_unlines {lines : List Text} (h : ∀ line ∈ lines, OneLine line) :
    splitLines (unlines lines) = lines ++ [[]] := by
  induction lines with
  | nil => rfl
  | cons line lines ih =>
    have hrest := ih fun l hl => h l (List.mem_cons_of_mem line hl)
    rw [unlines, List.flatMap_cons, List.append_assoc, List.singleton_append, splitLines,
      linesFrom_append [] (h line List.mem_cons_self), ← unlines, ← splitLines, hrest]
    rfl

theorem load_unlines {bare : Bool} {es : List Entry} (h : ∀ e ∈ es, e.Writable) :
    load (unlines (es.map (Entry.line bare))) = (es.foldl Entry.set empty, []) := by
  have hlines : ∀ line ∈ es.map (Entry.line bare), OneLine line := by
    intro line hline
    obtain ⟨e, he, rfl⟩ := List.mem_map.1 hline
    exact Entry.oneLine_line (h e he)
  have hentry : ∀ e ∈ es, entryOf? (e.line bare) = some e := fun e he => by
    rw [entryOf?, readLine_line bare (h e he)]
  have hentries : (es.map (Entry.line bare) ++ [[]]).filterMap entryOf? = es := by
    have hmap : es.filterMap (entryOf? ∘ Entry.line bare) = es :=
      (List.filterMap_congr hentry).trans List.filterMap_some
    rw [List.filterMap_append, List.filterMap_map, hmap]
    exact List.append_nil es
  have herrors : lineErrors 1 (es.map (Entry.line bare) ++ [[]]) = [] := by
    refine lineErrors_eq_nil fun raw hraw => ?_
    rcases List.mem_append.1 hraw with hraw | hraw
    · obtain ⟨e, he, rfl⟩ := List.mem_map.1 hraw
      exact ⟨_, readLine_line bare (h e he)⟩
    · rw [List.mem_singleton.1 hraw]
      exact ⟨none, rfl⟩
  rw [load, splitLines_unlines hlines, loadFrom_eq, hentries, herrors]

/-! ## Settings out of their entries -/

theorem entries_insertAll {m : ParameterMap} {ps : List (Text × Text)}
    (h : (m.entries ++ ps).map (·.1) |>.Nodup) : (m.insertAll ps).entries = m.entries ++ ps := by
  induction ps generalizing m with
  | nil => exact (List.append_nil m.entries).symm
  | cons p ps ih =>
    have hnew : p.1 ∉ m.names := by
      rw [List.map_append, List.map_cons] at h
      exact fun hmem => (List.nodup_append.1 h).2.2 p.1 hmem p.1 List.mem_cons_self rfl
    have hentries : (m.insert p.1 p.2).entries = m.entries ++ [p] := by
      rw [ParameterMap.insert, dif_neg hnew]
    rw [List.append_cons, ← hentries] at h
    rw [List.append_cons, ← hentries]
    exact ih h

theorem insertAll_entries (m : ParameterMap) : ParameterMap.empty.insertAll m.entries = m :=
  ParameterMap.ext (entries_insertAll m.nodup)

theorem foldl_set_request (s : Settings) (ps : List (Text × Text)) :
    (ps.map fun p => Entry.request p.1 p.2).foldl Entry.set s =
      { s with request := s.request.insertAll ps } := by
  induction ps generalizing s with
  | nil => rfl
  | cons p ps ih => exact ih _

theorem foldl_set_persistent (s : Settings) (ps : List (Text × Text)) :
    (ps.map fun p => Entry.persistent p.1 p.2).foldl Entry.set s =
      { s with persistent := s.persistent.insertAll ps } := by
  induction ps generalizing s with
  | nil => rfl
  | cons p ps ih => exact ih _

theorem foldl_set_mimeType (s : Settings) (o : Option Text) :
    (o.toList.map Entry.mimeType).foldl Entry.set s = { s with mimeType := o.or s.mimeType } := by
  cases o <;> rfl

theorem foldl_set_encoding (s : Settings) (o : Option Text) :
    (o.toList.map Entry.encoding).foldl Entry.set s = { s with encoding := o.or s.encoding } := by
  cases o <;> rfl

theorem foldl_set_status (s : Settings) (o : Option UInt16) {phrase : Option Text}
    (h : ∀ t ∈ phrase, o.isSome) : (o.toList.map (Entry.status · phrase)).foldl Entry.set s =
      { s with statusCode := o.or s.statusCode, statusText := phrase.or s.statusText } := by
  cases o with
  | none =>
    cases phrase with
    | none => rfl
    | some t => exact absurd (h t rfl) (by decide)
  | some code => rfl

theorem foldl_set_cookie (s : Settings) (cs : List Cookie) :
    (cs.map Entry.cookie).foldl Entry.set s = { s with cookies := s.cookies ++ cs } := by
  induction cs generalizing s with
  | nil => simp
  | cons c cs ih =>
    rw [List.map_cons, List.foldl_cons, ih]
    simp [Entry.set]

/-- Settings are set entry by entry. A text of a status needs its code. -/
theorem foldl_set_toEntries {s : Settings} (h : ∀ t ∈ s.statusText, s.statusCode.isSome) :
    s.toEntries.foldl Entry.set empty = s := by
  unfold toEntries
  rw [List.foldl_append, List.foldl_append, List.foldl_append, List.foldl_append,
    List.foldl_append, List.foldl_append, foldl_set_request, foldl_set_persistent,
    foldl_set_mimeType, foldl_set_encoding, foldl_set_status _ _ h, foldl_set_cookie]
  simp [Entry.set, empty, insertAll_entries]

theorem Writable.of_mem_toEntries {s : Settings} (hs : s.Writable) :
    ∀ e ∈ s.toEntries, e.Writable := by
  intro e he
  simp only [toEntries, List.mem_append, List.mem_map, List.mem_singleton,
    Option.mem_toList] at he
  rcases he with (((((⟨p, hp, rfl⟩ | ⟨p, hp, rfl⟩) | ⟨t, ht, rfl⟩) | ⟨t, ht, rfl⟩) |
    ⟨code, -, rfl⟩) | rfl) | ⟨c, hc, rfl⟩
  · exact hs.request p hp
  · exact hs.persistent p hp
  · exact hs.mimeType t ht
  · exact hs.encoding t ht
  · exact fun t ht => (hs.statusText t ht).1
  · trivial
  · exact hs.cookies c hc

/-- Just the settings that a text can say come back from their own text, with no bad line. -/
theorem load_source_iff (bare : Bool) (s : Settings) :
    load (s.source bare) = (s, []) ↔ s.Writable := by
  constructor
  · intro h
    have hload := writable_load (s.source bare)
    rwa [h] at hload
  · intro h
    have htext : ∀ t ∈ s.statusText, s.statusCode.isSome := fun t ht => (h.statusText t ht).2
    rw [source, load_unlines h.of_mem_toEntries, foldl_set_toEntries htext]

/-- Blanks, quotes, backslashes, semicolons and carriage returns come back as they are. -/
theorem load_source_blanks :
    let s : Settings :=
      { empty with
        request := .ofList [("a b\t".toList, " \"x\\=;\r ".toList)]
        statusCode := some 404
        statusText := some "\t \r".toList
        cookies := [⟨" n;".toList, "v\"\\".toList, some [], some "= /".toList, some 60⟩] }
    s.Writable ∧ load (s.source false) = (s, []) := by
  intro s
  have h : s.Writable :=
    { request := by decide
      persistent := by decide
      mimeType := by decide
      encoding := by decide
      statusText := by decide
      cookies := by decide }
  exact ⟨h, (load_source_iff false s).2 h⟩

end Settings
end PageTemplate
