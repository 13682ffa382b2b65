import PageTemplate.Proofs.Render.Result
import PageTemplate.Proofs.Settings.Writable

/-! Responses with settings. The settings of a text always make a response, and what its header
says can be told from them. Its cookies are those of the good lines, in order. -/
namespace PageTemplate.Settings

/-- What the header says with the settings; a part that they leave out is as nobody has
changed it. -/
def header (s : Settings) : Header :=
  { encoding := (s.encoding.bind Encoding.ofName?).getD Header.default.encoding
    statusCode := s.statusCode.getD Header.default.statusCode
    statusText := s.statusText.getD Header.default.statusText
    mimeType := s.mimeType.getD Header.default.mimeType
    contentLength := Header.default.contentLength
    cookies := s.cookies }

/-- The context that a page with the settings is rendered in. -/
def context (s : Settings) (sink : Sink) : Context Response :=
  ⟨⟨s.request, s.persistent, .empty⟩, ⟨s.header, s.wantsHeader, false, sink⟩⟩

/-! ## Preparation -/

section Preparation

variable {h : Header} {w : Bool} {sink : Sink}

theorem prepare_mimeType (o : Option Text) : whenSet Response.setMimeType o ⟨h, w, false, sink⟩ =
    .ok () ⟨{ h with mimeType := o.getD h.mimeType }, w, false, sink⟩ := by
  cases o <;> rfl

theorem prepare_encoding {o : Option Text} (ho : ∀ name ∈ o, (Encoding.ofName? name).isSome) :
    whenSet Response.setEncoding o ⟨h, w, false, sink⟩ =
      .ok () ⟨{ h with encoding := (o.bind Encoding.ofName?).getD h.encoding }, w, false, sink⟩ := by
  cases o with
  | none => rfl
  | some name =>
    obtain ⟨e, he⟩ := Option.isSome_iff_exists.1 (ho name rfl)
    simp [whenSet, Response.setEncoding, Response.change, he]

theorem prepare_statusCode (o : Option UInt16) :
    whenSet Response.setStatusCode o ⟨h, w, false, sink⟩ =
      .ok () ⟨{ h with statusCode := o.getD h.statusCode }, w, false, sink⟩ := by
  cases o <;> rfl

theorem prepare_statusText (o : Option Text) :
    whenSet Response.setStatusText o ⟨h, w, false, sink⟩ =
      .ok () ⟨{ h with statusText := o.getD h.statusText }, w, false, sink⟩ := by
  cases o <;> rfl

theorem prepare_cookies (cs : List Cookie) : addCookies cs ⟨h, w, false, sink⟩ =
    .ok () ⟨{ h with cookies := h.cookies ++ cs }, w, false, sink⟩ := by
  induction cs generalizing h with
  | nil =>
    rw [List.append_nil]
    rfl
  | cons c cs ih =>
    have hone : Response.addCookie c ⟨h, w, false, sink⟩ =
        .ok () ⟨{ h with cookies := h.cookies ++ [c] }, w, false, sink⟩ := rfl
    rw [addCookies, bind_of_ok hone, ih, List.append_assoc]
    rfl

end Preparation

/-- Settings with an encoding that there is make a response. -/
theorem response_eq {s : Settings} (h : ∀ name ∈ s.encoding, (Encoding.ofName? name).isSome)
    (sink : Sink) : s.response sink = .ok (s.context sink) := by
  have hprepare : s.prepare (Response.new s.wantsHeader sink) =
      .ok () ⟨s.header, s.wantsHeader, false, sink⟩ := by
    rw [prepare, Response.new, bind_of_ok (prepare_mimeType _), bind_of_ok (prepare_encoding h),
      bind_of_ok (prepare_statusCode _), bind_of_ok (prepare_statusText _), prepare_cookies]
    rfl
  rw [response, hprepare]
  rfl

/-! ## Cookies -/

/-- The cookie that a line sets, if it sets one. -/
def cookieOf? (raw : Text) : Option Cookie :=
  let (directive, arguments) := splitDirective (Text.trim raw)
  if directive = "cookie".toList then (readCookie arguments).toOption else none

/-- The cookies that the lines of a text set, in order. -/
def cookiesOf (text : Text) : List Cookie := (splitLines text).filterMap cookieOf?

def Entry.cookie? : Entry → Option Cookie
  | .cookie c => some c
  | _ => none

theorem cookies_foldl_set (s : Settings) (es : List Entry) :
    (es.foldl Entry.set s).cookies = s.cookies ++ es.filterMap Entry.cookie? := by
  induction es generalizing s with
  | nil => simp
  | cons e es ih =>
    rw [List.foldl_cons, ih, List.filterMap_cons]
    cases e <;> simp [Entry.set, Entry.cookie?]

theorem readEntry_cookie (arguments : List Text) :
    readEntry "cookie".toList arguments = (readCookie arguments).map .cookie := by
  simp [readEntry]

/-- Only a directive for a cookie sets one. -/
theorem cookie?_of_readEntry {directive : Text} {arguments : List Text} {e : Entry}
    (h : readEntry directive arguments = .ok e) (hne : directive ≠ "cookie".toList) :
    e.cookie? = none := by
  unfold readEntry at h
  split at h
  · obtain ⟨p, -, rfl⟩ := map_eq_ok_iff.1 h
    rfl
  split at h
  · obtain ⟨p, -, rfl⟩ := map_eq_ok_iff.1 h
    rfl
  split at h
  · obtain ⟨mime, -, rfl⟩ := map_eq_ok_iff.1 h
    rfl
  split at h
  · obtain ⟨name, -, hname⟩ := bind_eq_ok_iff.1 h
    unfold readEncoding at hname
    split at hname <;> cases hname
    rfl
  split at h
  · unfold readStatus at h
    split at h
    · cases h
    · split at h <;> cases h
      rfl
  split at h
  · obtain ⟨on, -, rfl⟩ := map_eq_ok_iff.1 h
    rfl
  · cases h

theorem not_cookie_of_isIdle {line : Text} (h : isIdle line) :
    (splitDirective line).1 ≠ "cookie".toList := by
  intro hcookie
  rw [isIdle, Bool.or_eq_true, List.isEmpty_iff, beq_iff_eq] at h
  rcases h with rfl | h
  · exact absurd hcookie (by decide)
  · cases line with
    | nil => cases h
    | cons c line =>
      cases h
      rw [splitDirective, List.takeWhile_cons_of_pos (by decide)] at hcookie
      exact absurd (List.cons.inj hcookie).1 (by decide)

theorem cookieOf?_eq (raw : Text) : cookieOf? raw = (entryOf? raw).bind Entry.cookie? := by
  unfold cookieOf? entryOf? readLine
  dsimp only
  by_cases hidle : isIdle (Text.trim raw)
  · rw [if_pos hidle, if_neg (not_cookie_of_isIdle hidle)]
    rfl
  rw [if_neg hidle]
  generalize splitDirective (Text.trim raw) = line
  obtain ⟨directive, arguments⟩ := line
  dsimp only
  by_cases hcookie : directive = "cookie".toList
  · subst hcookie
    rw [if_pos rfl, readEntry_cookie]
    cases readCookie arguments <;> rfl
  · rw [if_neg hcookie]
    cases hread : readEntry directive arguments with
    | error cause => rfl
    | ok e => exact (cookie?_of_readEntry hread hcookie).symm

/-- The settings of a text have the cookies that its lines set. -/
theorem cookies_load (text : Text) : (load text).1.cookies = cookiesOf text := by
  have hcookie : cookieOf? = fun raw => (entryOf? raw).bind Entry.cookie? := funext cookieOf?_eq
  rw [settings_load, cookies_foldl_set, entries, cookiesOf, hcookie, List.filterMap_filterMap]
  rfl

end PageTemplate.Settings
