import PageTemplate.Proofs.Render.Isolation
import PageTemplate.Proofs.Response.Truncation
import PageTemplate.Proofs.Settings.Response

/-! Where the header of a page ends. No settings text can put an empty line into the header, so
what stands before the first empty line is the header and what follows is the body. -/
namespace PageTemplate

/-! ## Heads -/

/-- The ends of a line and of an empty line after it. -/
def headEnd : List UInt8 := [13, 10, 13, 10]

/-- Cuts bytes after the first empty line. -/
def splitHead? : List UInt8 → Option (List UInt8 × List UInt8)
  | [] => none
  | b :: bs =>
    if headEnd.isPrefixOf (b :: bs) then some (headEnd, bs.drop 3)
    else (splitHead? bs).map fun p => (b :: p.1, p.2)

/-- Bytes that can stand on a line that is not empty. -/
structure IsHeadLine (l : List UInt8) : Prop where
  ne_nil : l ≠ []
  oneLine : 10 ∉ l

/-- Lines of bytes, each with its end. -/
def headLines (lines : List (List UInt8)) : List UInt8 := lines.flatMap (· ++ [13, 10])

section Bytes

variable {l : List UInt8}

theorem splitHead?_cons {b : UInt8} {rest : List UInt8}
    (h : headEnd.isPrefixOf (b :: rest) = false) :
    splitHead? (b :: rest) = (splitHead? rest).map fun p => (b :: p.1, p.2) := by
  rw [splitHead?, h]
  rfl

/-- There is no cut in a line, as its own end is the first one in it. -/
theorem splitHead?_append (h : 10 ∉ l) (rest : List UInt8) :
    splitHead? (l ++ 13 :: rest) =
      (splitHead? (13 :: rest)).map fun p => (l ++ p.1, p.2) := by
  induction l with
  | nil => simp
  | cons b l ih =>
    rw [List.mem_cons, not_or] at h
    have hnext : headEnd.isPrefixOf (b :: (l ++ 13 :: rest)) = false := by
      cases l with
      | nil => simp [headEnd, List.isPrefixOf]
      | cons c l =>
        have hc : (10 : UInt8) ≠ c := fun he => h.2 (he ▸ List.mem_cons_self)
        simp [headEnd, List.isPrefixOf, hc]
    rw [List.cons_append, splitHead?_cons hnext, ih h.2, Option.map_map]
    rfl

/-- There is no cut at the end of a line before another line. -/
theorem splitHead?_lineEnd (hl : IsHeadLine l) (rest : List UInt8) :
    splitHead? (13 :: 10 :: (l ++ 13 :: rest)) =
      (splitHead? (l ++ 13 :: rest)).map fun p => (13 :: 10 :: p.1, p.2) := by
  obtain ⟨hne, hline⟩ := hl
  have hreturn : headEnd.isPrefixOf (13 :: 10 :: (l ++ 13 :: rest)) = false := by
    match l with
    | [] => exact absurd rfl hne
    | [c] => simp [headEnd, List.isPrefixOf]
    | c :: d :: l =>
      have hd : (10 : UInt8) ≠ d :=
        fun he => hline (List.mem_cons_of_mem c (he ▸ List.mem_cons_self))
      simp [headEnd, List.isPrefixOf, hd]
  have hfeed : headEnd.isPrefixOf (10 :: (l ++ 13 :: rest)) = false := by
    simp [headEnd, List.isPrefixOf]
  rw [splitHead?_cons hreturn, splitHead?_cons hfeed, Option.map_map]
  rfl

/-- The cut is where the lines end, whatever comes after them. -/
theorem splitHead?_headLines {lines : List (List UInt8)} (hne : lines ≠ [])
    (h : ∀ l ∈ lines, IsHeadLine l) (body : List UInt8) :
    splitHead? (headLines lines ++ [13, 10] ++ body) =
      some (headLines lines ++ [13, 10], body) := by
  induction lines with
  | nil => exact absurd rfl hne
  | cons l lines ih =>
    have hl := h l List.mem_cons_self
    have hlines := fun m hm => h m (List.mem_cons_of_mem l hm)
    cases lines with
    | nil =>
      have hcut : splitHead? (13 :: 10 :: 13 :: 10 :: body) = some (headEnd, body) := rfl
      simp [headLines, splitHead?_append hl.oneLine, hcut, headEnd]
    | cons m lines =>
      have hrest : headLines (m :: lines) ++ [13, 10] ++ body =
          m ++ 13 :: (10 :: (headLines lines ++ [13, 10] ++ body)) := by simp [headLines]
      have hwhole : headLines (l :: m :: lines) ++ [13, 10] ++ body =
          l ++ 13 :: 10 :: (headLines (m :: lines) ++ [13, 10] ++ body) := by simp [headLines]
      have hm := hlines m List.mem_cons_self
      rw [hwhole, splitHead?_append hl.oneLine, hrest, splitHead?_lineEnd hm, ← hrest,
        ih (List.cons_ne_nil m lines) hlines]
      simp [headLines]

end Bytes

/-! ## Headers -/

theorem Encoding.encodeChar_latin1_ne_nil (c : Char) : latin1.encodeChar c ≠ [] := by
  unfold encodeChar
  dsimp only
  split <;> exact List.cons_ne_nil _ _

/-- Only a line feed is sent as one. -/
theorem Encoding.mem_encode_latin1 {s : Text} (h : 10 ∈ latin1.encode s) : '\n' ∈ s := by
  obtain ⟨c, hc, hbyte⟩ := List.mem_flatMap.1 h
  unfold encodeChar at hbyte
  dsimp only at hbyte
  split at hbyte
  · rename_i hsmall
    have hten : UInt8.ofNat c.toNat = 10 := (List.mem_singleton.1 hbyte).symm
    have hnat : c.toNat = 10 := by
      have hnat := congrArg UInt8.toNat hten
      rwa [UInt8.toNat_ofNat_of_lt' hsmall] at hnat
    rwa [← Char.toNat_inj.1 (show c.toNat = '\n'.toNat from hnat)]
  · exact absurd (List.mem_singleton.1 hbyte) (by decide)

theorem isHeadLine_encode {s : Text} (h : IsValue s) :
    IsHeadLine (Encoding.latin1.encode s) where
  ne_nil := by
    obtain ⟨c, s, rfl⟩ := List.exists_cons_of_ne_nil h.ne_nil
    simp [Encoding.encode, Encoding.encodeChar_latin1_ne_nil]
  oneLine := fun hmem => h.oneLine (Encoding.mem_encode_latin1 hmem)

namespace Header

theorem encode_lines (lines : List Text) :
    Encoding.latin1.encode (lines.flatMap (· ++ lineEnd)) =
      headLines (lines.map Encoding.latin1.encode) := by
  have hend : Encoding.latin1.encode lineEnd = [13, 10] := by decide
  induction lines with
  | nil => rfl
  | cons l ls ih =>
    rw [List.flatMap_cons, Encoding.encode_append, Encoding.encode_append, ih, hend]
    rfl

theorem bytes_eq (h : Header) :
    h.bytes = headLines (h.lines.map Encoding.latin1.encode) ++ [13, 10] := by
  rw [bytes, text, Encoding.encode_append, encode_lines]
  rfl

theorem oneLine_cookieField {key : String} (hkey : OneLine key.toList) {o : Option Text}
    (ho : ∀ t ∈ o, OneLine t) : OneLine (cookieField key o) := by
  cases o with
  | none => exact oneLine_nil
  | some t =>
    exact ((hkey.append ((ho t rfl).cons (by decide))).cons (by decide)).cons (by decide)

theorem isValue_cookieLine {c : Cookie} (h : c.Writable) : IsValue (cookieLine c) := by
  have hword : IsValue "Set-Cookie: ".toList := by decide
  have hvalue : OneLine ('=' :: c.value) := h.pair.oneLine.cons (by decide)
  have hdomain : OneLine (cookieField "Domain" c.domain) := oneLine_cookieField (by decide) h.domain
  have hpath : OneLine (cookieField "Path" c.path) := oneLine_cookieField (by decide) h.path
  have hage : OneLine (cookieField "Max-Age" (c.maxAge.map fun n => natText n.toNat)) := by
    refine oneLine_cookieField (by decide) fun t ht => ?_
    obtain ⟨n, -, rfl⟩ := Option.map_eq_some_iff.1 ht
    exact (isValue_natText n.toNat).oneLine
  unfold cookieLine
  exact ((((hword.append h.pair.isValue.oneLine).append hvalue).append hdomain).append
    hpath).append hage

theorem isValue_statusLine {h : Header} (hstatus : OneLine h.statusText) :
    IsValue h.statusLine := by
  have hword : IsValue "HTTP/1.1 ".toList := by decide
  have hcode := (isValue_natText h.statusCode.toNat).oneLine
  unfold statusLine
  exact (hword.append hcode).append (hstatus.cons (by decide))

theorem isValue_typeLine {h : Header} (hmime : OneLine h.mimeType) : IsValue h.typeLine := by
  have hword : IsValue "Content-Type: ".toList := by decide
  have hname : OneLine ("; charset=".toList ++ h.encoding.name) := by
    cases h.encoding <;> decide
  unfold typeLine
  refine (hword.append hmime).append ?_
  split
  · exact hname
  · exact oneLine_nil

/-- The lines of a header whose texts are on one line each and whose length is not known. -/
theorem isValue_of_mem_lines {h : Header} (hstatus : OneLine h.statusText)
    (hmime : OneLine h.mimeType) (hlength : h.contentLength = none)
    (hcookies : ∀ c ∈ h.cookies, c.Writable) : ∀ l ∈ h.lines, IsValue l := by
  intro l hl
  rw [lines, hlength] at hl
  rcases List.mem_cons.1 hl with rfl | hl
  · exact isValue_statusLine hstatus
  rcases List.mem_cons.1 hl with rfl | hl
  · exact isValue_typeLine hmime
  · obtain ⟨c, hc, rfl⟩ := List.mem_map.1 hl
    exact isValue_cookieLine (hcookies c hc)

end Header

theorem Settings.Writable.isValue_of_mem_lines {s : Settings} (h : s.Writable) :
    ∀ l ∈ s.header.lines, IsValue l := by
  refine Header.isValue_of_mem_lines ?_ ?_ rfl h.cookies
  · change OneLine (s.statusText.getD "OK".toList)
    cases hs : s.statusText with
    | none => decide
    | some t => exact (h.statusText t hs).1.oneLine
  · change OneLine (s.mimeType.getD "text/html".toList)
    cases hs : s.mimeType with
    | none => decide
    | some t => exact (h.mimeType t hs).oneLine

/-! ## Pages with a header -/

/-- A response with a header after writes. -/
def Response.framed (h : Header) (started : Bool) (output : Text) : Response where
  header := h
  wantsHeader := true
  started := started
  sink := ⟨(if started then h.bytes ++ h.encoding.encode output else []).toArray, none⟩

theorem Response.writeBytes_framed (h : Header) {started : Bool} {output : Text}
    (hwaiting : started = false → output = []) (s : Text) :
    writeBytes (h.encoding.encode s) (framed h started output) =
      .ok () (framed h true (output ++ s)) := by
  rw [writeBytes_of_room rfl]
  cases started with
  | true => simp [framed, Encoding.encode_append]
  | false => simp [framed, hwaiting rfl]

/-- A page in memory and a response with a header after the same writes. -/
def framing (h : Header) : Lockstep ContextError Capture Response where
  related m r := ∃ started, r = .framed h started m.output.toList ∧
    (started = false → m.output.toList = [])
  stopped _ _ _ := False

theorem follows_write_framing (h : Header) (s : Text) :
    (framing h).Follows (Page.write s) (Page.write s) where
  along := by
    rintro ⟨output, mime⟩ _ ⟨started, rfl, hwaiting⟩
    have hwrite : Response.write s (.framed h started output.toList) =
        .ok () (.framed h true (output.toList ++ s)) := Response.writeBytes_framed h hwaiting s
    change (framing h).Along (.ok () ⟨output ++ String.ofList s, mime⟩) (Response.write s _)
    rw [hwrite]
    exact .ok ⟨true, by simp, fun hstarted => nomatch hstarted⟩
  stays _ _ _ h := h

/-- A page is its header and its body in the encoding of the header, once it has started. A
successful one has. -/
theorem page_of_serve (turns : Nat) {d : Document} (hd : "setMimeType".toList ∉ d.functions)
    (p : Parameters) (h : Header) :
    let served := serve turns d ⟨p, ⟨h, true, false, .unlimited⟩⟩
    let body := (endState (d.render turns ⟨p, Capture.empty⟩)).page.output.toList
    ∃ started, (endState served).page = .framed h started body ∧
      (failure? served = none → started = true) := by
  intro served body
  have hserves : (framing h).ofPages.Serves d.builtins :=
    Lockstep.serves_ofPages_of_not_mem (follows_write_framing h)
      fun hmem => hd (Document.name_mem_of_builtin hmem)
  have halong := (Lockstep.follows_render d hserves turns).along ⟨p, Capture.empty⟩
    ⟨p, ⟨h, true, false, .unlimited⟩⟩ ⟨rfl, false, rfl, fun _ => rfl⟩
  have hserved : served = close (d.render turns ⟨p, ⟨h, true, false, .unlimited⟩⟩) :=
    serve_eq turns d _
  rw [hserved]
  change ∃ started, (endState (close _)).page = .framed h started
    (endState (d.render turns ⟨p, Capture.empty⟩)).page.output.toList ∧ _
  generalize d.render turns ⟨p, Capture.empty⟩ = x at halong ⊢
  generalize d.render turns (⟨p, ⟨h, true, false, .unlimited⟩⟩ : Context Response) = y
    at halong ⊢
  cases halong with
  | @ok a c₁ c₂ hrelated =>
    obtain ⟨hparams, started, hpage, hwaiting⟩ := hrelated
    have hclose : Response.writeBytes [] c₂.page =
        .ok () (.framed h true (c₁.page.output.toList ++ [])) := by
      rw [hpage]
      exact Response.writeBytes_framed h hwaiting []
    rw [List.append_nil] at hclose
    refine ⟨true, ?_, fun _ => rfl⟩
    rw [close, hclose]
    rfl
  | error hrelated =>
    obtain ⟨hparams, started, hpage, hwaiting⟩ := hrelated
    exact ⟨started, hpage, fun hok => absurd hok (Option.some_ne_none _)⟩
  | stopped hstopped =>
    obtain ⟨_, _, hstopped⟩ := hstopped
    exact hstopped.elim

/-- No settings text forges a line of the header. The settings of a text always make a response.
Its header has a line for the status, one for the content type and one for each cookie that the
text sets, and an empty line at their end. A document that does not set the media type is sent, if
anything is, as that header and then its body, so the first empty line is the one of the header. -/
theorem serve_settings (text : Text) :
    let s := (Settings.load text).1
    (∀ sink, ∃ c, s.response sink = .ok c) ∧
    ∀ c, ({ s with wantsHeader := true } : Settings).response .unlimited = .ok c →
      let h := c.page.header
      h.lines = h.statusLine :: h.typeLine :: (Settings.cookiesOf text).map Header.cookieLine ∧
      h.bytes = headLines (h.lines.map Encoding.latin1.encode) ++ [13, 10] ∧
      (∀ l ∈ h.lines, IsHeadLine (Encoding.latin1.encode l)) ∧
      ∀ (turns : Nat) (d : Document) (p : Parameters), "setMimeType".toList ∉ d.functions →
        let served := serve turns d ⟨p, c.page⟩
        let sent := (endState served).page.output
        let body := (endState (d.render turns ⟨p, Capture.empty⟩)).page.output.toList
        (sent ≠ [] → splitHead? sent = some (h.bytes, h.encoding.encode body)) ∧
        (failure? served = none → sent ≠ []) := by
  intro s
  have hs : s.Writable := Settings.writable_load text
  refine ⟨fun sink => ⟨_, Settings.response_eq hs.encoding sink⟩, ?_⟩
  intro c hc h
  let shown : Settings := { s with wantsHeader := true }
  have hencoding : ∀ name ∈ shown.encoding, (Encoding.ofName? name).isSome := hs.encoding
  have hcontext : shown.context .unlimited = c :=
    Except.ok.inj ((Settings.response_eq hencoding .unlimited).symm.trans hc)
  have hpage : c.page = ⟨s.header, true, false, .unlimited⟩ := by
    rw [← hcontext]
    rfl
  have hheader : h = s.header := congrArg Response.header hpage
  have hlines : ∀ l ∈ h.lines, IsHeadLine (Encoding.latin1.encode l) := by
    rw [hheader]
    exact fun l hl => isHeadLine_encode (hs.isValue_of_mem_lines l hl)
  refine ⟨?_, h.bytes_eq, hlines, ?_⟩
  · rw [hheader, ← Settings.cookies_load]
    rfl
  · intro turns d p hd served sent body
    obtain ⟨started, hframed, hstarted⟩ := page_of_serve turns hd p s.header
    rw [← hpage] at hframed hstarted
    have hsent : sent = if started then h.bytes ++ h.encoding.encode body else [] := by
      have houtput : sent = (Response.framed s.header started body).output :=
        congrArg Response.output hframed
      rw [houtput, hheader]
      rfl
    have hcut : splitHead? (h.bytes ++ h.encoding.encode body) =
        some (h.bytes, h.encoding.encode body) := by
      rw [h.bytes_eq]
      refine splitHead?_headLines (List.map_eq_nil_iff.not.2 (List.cons_ne_nil _ _)) ?_ _
      intro l hl
      obtain ⟨t, ht, rfl⟩ := List.mem_map.1 hl
      exact hlines t ht
    constructor
    · intro hne
      cases started with
      | false => exact absurd hsent hne
      | true =>
        rw [hsent]
        exact hcut
    · intro hok
      rw [hsent, hstarted hok, h.bytes_eq]
      simp

/-- Carriage returns in the status and in a cookie do not end a line, and an empty line of the
document does not belong to the header. -/
theorem serve_settings_returns :
    let text := "status 200 \"A\rB\"\ncookie \"a\r=b\"\ncookie c\nencoding latin1".toList
    let s : Settings := { (Settings.load text).1 with wantsHeader := true }
    let c := s.context .unlimited
    let d : Document := .text "\r\n\r\n".toList .nil
    let sent := (endState (serve 1 d c)).page.output
    "setMimeType".toList ∉ d.functions ∧
      (Settings.cookiesOf text).map Header.cookieLine = ["Set-Cookie: a\r=b".toList] ∧
      sent ≠ [] ∧ splitHead? sent = some (c.page.header.bytes, [13, 10, 13, 10]) := by
  intro text s c d sent
  have hd : "setMimeType".toList ∉ d.functions := by
    show "setMimeType".toList ∉ []
    exact List.not_mem_nil
  have hc : s.response .unlimited = .ok c := Settings.response_eq (by decide +kernel) .unlimited
  obtain ⟨-, -, -, hserve⟩ := (serve_settings text).2 c hc
  obtain ⟨hhead, hok⟩ := hserve 1 d c.parameters hd
  have hsent : sent ≠ [] := hok (by decide +kernel)
  have hbody : c.page.header.encoding.encode
      (endState (d.render 1 ⟨c.parameters, Capture.empty⟩)).page.output.toList =
        [13, 10, 13, 10] := by decide +kernel
  exact ⟨hd, by decide +kernel, hsent, hbody ▸ hhead hsent⟩

end PageTemplate
