import PageTemplate.Program
import PageTemplate.Proofs.Document.Grammar
import PageTemplate.Proofs.Render.Turns
import PageTemplate.Proofs.Response.Truncation
import PageTemplate.Proofs.Settings.Response

/-! Runs of the program. All templates are read before the first is rendered. Then they are
rendered in order up to the first that fails, and each takes over the persistent parameters that
the one before it has left. -/
namespace PageTemplate

/-! ## Parameters of the command line -/

/-- The value that the last of several pairs gives a name. -/
def lastValue? (pairs : List (Text × Text)) (name : Text) : Option Text :=
  (pairs.reverse.find? (·.1 = name)).map (·.2)

theorem ParameterMap.get?_insertAll (m : ParameterMap) (pairs : List (Text × Text)) (name : Text) :
    (m.insertAll pairs).get? name = (lastValue? pairs name).or (m.get? name) := by
  induction pairs generalizing m with
  | nil => rfl
  | cons p ps ih =>
    have hinsert : (m.insert p.1 p.2).get? name = if p.1 = name then some p.2 else m.get? name := by
      split
      · rename_i hname
        rw [hname, get?_insert_self]
      · rename_i hname
        exact get?_insert_of_ne m p.2 hname
    have hlast : lastValue? (p :: ps) name =
        (lastValue? ps name).or (if p.1 = name then some p.2 else none) := by
      unfold lastValue?
      rw [List.reverse_cons, List.find?_append, Option.map_or, List.find?_singleton]
      split <;> simp_all
    change ((m.insert p.1 p.2).insertAll ps).get? name = _
    rw [ih, hinsert, hlast, Option.or_assoc]
    congr 1
    split <;> rfl

namespace Program

/-! ## Templates -/

/-- The document of a template. -/
def template (w : World) (path : Text) : Except TemplateError Document :=
  let file := if isInput path then .bytes w.input else w.files path
  (file.text.mapError .read).bind fun source => (parse source).mapError .parse

/-- Bytes that spell a text are read as the text. -/
theorem decodeText_toUTF8 (s : String) : decodeText s.toUTF8 = .ok s.toList := by
  have hs : String.fromUTF8? s.toUTF8 = some s := dif_pos s.isValidUTF8
  rw [decodeText, hs]

theorem template_of_bytes {w : World} {path : Text} {s : String}
    (hpath : isInput path = false) (h : w.files path = .bytes s.toUTF8) :
    template w path = (parse s.toList).mapError .parse := by
  rw [template, hpath, if_neg Bool.false_ne_true, h, File.text, decodeText_toUTF8]
  rfl

def readTemplate (w : World) (path : Text) : Except ProgramError (Text × Document) :=
  ((template w path).map fun d => (path, d)).mapError (.template path)

section Reading

variable {w : World} {input : ByteArray} {paths : List Text}

theorem readTemplates_cons {path : Text} (h : isInput path → input = w.input) :
    readTemplates w input (path :: paths) = (readTemplate w path).bind fun t =>
      (readTemplates w (if isInput path then .empty else input) paths).map (t :: ·) := by
  have hfile : (if isInput path then File.bytes input else w.files path) =
      if isInput path then .bytes w.input else w.files path := by
    split
    · rename_i hpath
      rw [h hpath]
    · rfl
  rw [readTemplates, hfile]
  unfold readTemplate template
  dsimp only
  generalize (if isInput path then File.bytes w.input else w.files path).text = source
  cases source with
  | error e => rfl
  | ok source =>
    change ((parse source).mapError _ >>= _) =
      Except.bind (Except.mapError _ (Except.map _ ((parse source).mapError _))) _
    cases parse source with
    | error e => rfl
    | ok d =>
      change (readTemplates w _ paths >>= _) = Except.map _ (readTemplates w _ paths)
      cases readTemplates w (if isInput path then .empty else input) paths <;> rfl

theorem mapM_readTemplate_cons (path : Text) :
    (path :: paths).mapM (readTemplate w) = (readTemplate w path).bind fun t =>
      (paths.mapM (readTemplate w)).map (t :: ·) := by
  rw [List.mapM_cons]
  rfl

theorem readTemplates_of_no_input (h : ∀ path ∈ paths, isInput path = false) :
    readTemplates w input paths = paths.mapM (readTemplate w) := by
  induction paths generalizing input with
  | nil => rfl
  | cons path paths ih =>
    have hpath := h path List.mem_cons_self
    rw [readTemplates_cons (fun hinput => absurd hinput (by rw [hpath]; decide)),
      mapM_readTemplate_cons, ih fun p hp => h p (List.mem_cons_of_mem path hp)]

/-- If the standard input is named once at most, every template is read by itself. -/
theorem readTemplates_eq (h : paths.countP isInput ≤ 1) :
    readTemplates w w.input paths = paths.mapM (readTemplate w) := by
  induction paths with
  | nil => rfl
  | cons path paths ih =>
    rw [readTemplates_cons (fun _ => rfl), mapM_readTemplate_cons]
    by_cases hpath : isInput path = true
    · rw [List.countP_cons_of_pos hpath] at h
      have hnone : paths.countP isInput = 0 := by omega
      have hrest : ∀ p ∈ paths, isInput p = false := fun p hp =>
        Bool.eq_false_iff.2 (List.countP_eq_zero.1 hnone p hp)
      rw [readTemplates_of_no_input hrest]
    · rw [List.countP_cons_of_neg hpath] at h
      rw [if_neg hpath, ih h]

end Reading

/-! ## Renders one after the other -/

/-- The render of a template, and the end of its page after it. -/
structure Visit where
  path : Text
  document : Document
  start : Context Response
  result : EStateM.Result TemplateHalt (Context Response) Unit

namespace Visit

def template (v : Visit) : Text × Document := (v.path, v.document)

/-- The bytes that a render leaves, whether it fails or not. -/
def sent (v : Visit) : List UInt8 := (endState v.result).page.sink.bytes.toList

def error? (v : Visit) : Option ProgramError :=
  match v.result with
  | .error (.failed e) _ => some (.template v.path e)
  | _ => none

/-- Whether a loop of the render has run out of turns. -/
def isEndless (v : Visit) : Bool := failure? v.result = some .outOfTurns

end Visit

/-- Renders of templates in order, up to the first that does not come to its end. A render that
does is followed by an empty write. The first begins in the context for some persistent parameters,
and each of the others in the one for those that the render before it has left. -/
structure Tour (turns : Nat) (fresh : ParameterMap → Context Response) (persistent : ParameterMap)
    (templates : List (Text × Document)) (visits : List Visit) : Prop where
  order : visits.map Visit.template <+: templates
  halted : ∀ v ∈ visits, ∀ h c, v.document.render turns v.start = .error h c →
    v.result = .error (.ofHalt h) c
  closed : ∀ v ∈ visits, ∀ c, v.document.render turns v.start = .ok () c →
    ∃ page, Response.writeBytes [] c.page = .ok () page ∧ v.result = .ok () ⟨c.parameters, page⟩
  first : ∀ v ∈ visits.head?, v.start = fresh persistent
  next : visits.IsChain fun v u =>
    failure? v.result = none ∧ u.start = fresh (endState v.result).parameters.persistent
  whole : (∀ v ∈ visits, failure? v.result = none) → visits.map Visit.template = templates

section Tours

variable {turns : Nat} {fresh : ParameterMap → Context Response} {persistent : ParameterMap}
  {path : Text} {d : Document} {templates : List (Text × Document)} {visits : List Visit}
  {c c' : Context Response}

theorem tour_nil : Tour turns fresh persistent [] [] where
  order := List.prefix_rfl
  halted _ hv := nomatch hv
  closed _ hv := nomatch hv
  first _ hv := nomatch hv
  next := .nil
  whole _ := rfl

theorem tour_of_error {h : Halt} (hrender : d.render turns (fresh persistent) = .error h c) :
    Tour turns fresh persistent ((path, d) :: templates)
      [⟨path, d, fresh persistent, .error (.ofHalt h) c⟩] where
  order := List.prefix_append [(path, d)] templates
  halted := by
    refine List.forall_mem_singleton.2 ?_
    intro h' c' herror
    cases hrender.symm.trans herror
    rfl
  closed := List.forall_mem_singleton.2 fun c' hok => nomatch hrender.symm.trans hok
  first := by
    intro v hv
    cases hv
    rfl
  next := .singleton _
  whole hall := nomatch hall _ List.mem_cons_self

theorem Tour.cons {page : Response} (hrender : d.render turns (fresh persistent) = .ok () c)
    (hpage : Response.writeBytes [] c.page = .ok () page)
    (htour : Tour turns fresh c.parameters.persistent templates visits) :
    Tour turns fresh persistent ((path, d) :: templates)
      (⟨path, d, fresh persistent, .ok () ⟨c.parameters, page⟩⟩ :: visits) where
  order := List.cons_prefix_cons.2 ⟨rfl, htour.order⟩
  halted := by
    refine List.forall_mem_cons.2 ⟨?_, htour.halted⟩
    intro h c' herror
    cases hrender.symm.trans herror
  closed := by
    refine List.forall_mem_cons.2 ⟨?_, htour.closed⟩
    intro c' hrender'
    cases hrender.symm.trans hrender'
    exact ⟨page, hpage, rfl⟩
  first := by
    intro v hv
    cases hv
    rfl
  next := by
    cases visits with
    | nil => exact .singleton _
    | cons u visits => exact .cons_cons ⟨rfl, htour.first u rfl⟩ htour.next
  whole hall := by
    rw [List.map_cons, htour.whole fun v hv => hall v (List.mem_cons_of_mem _ hv)]
    rfl

/-- A tour of some templates begins with the first of them. -/
theorem Tour.exists_cons (h : Tour turns fresh persistent ((path, d) :: templates) visits) :
    ∃ result rest, visits = ⟨path, d, fresh persistent, result⟩ :: rest := by
  cases visits with
  | nil => exact nomatch h.whole fun v hv => nomatch hv
  | cons v rest =>
    have htemplate : v.template = (path, d) := (List.cons_prefix_cons.1 h.order).1
    obtain ⟨path', document, start, result⟩ := v
    cases htemplate
    obtain rfl : start = fresh persistent := h.first _ rfl
    exact ⟨result, rest, rfl⟩

/-- A render that does not come to its end is the last. -/
theorem Tour.eq_of_error {h : Halt}
    (htour : Tour turns fresh persistent ((path, d) :: templates) visits)
    (hrender : d.render turns (fresh persistent) = .error h c) :
    visits = [⟨path, d, fresh persistent, .error (.ofHalt h) c⟩] := by
  obtain ⟨result, rest, rfl⟩ := htour.exists_cons
  obtain rfl := htour.halted _ List.mem_cons_self h c hrender
  cases rest with
  | nil => rfl
  | cons u rest => exact nomatch (List.isChain_cons_cons.1 htour.next).1.1

/-- After a render that comes to its end a tour goes on with the persistent parameters it has
left. -/
theorem Tour.eq_of_ok {page : Response}
    (htour : Tour turns fresh persistent ((path, d) :: templates) visits)
    (hrender : d.render turns (fresh persistent) = .ok () c)
    (hpage : Response.writeBytes [] c.page = .ok () page) :
    ∃ rest, visits = ⟨path, d, fresh persistent, .ok () ⟨c.parameters, page⟩⟩ :: rest ∧
      Tour turns fresh c.parameters.persistent templates rest := by
  obtain ⟨result, rest, rfl⟩ := htour.exists_cons
  obtain ⟨page', hpage', rfl⟩ := htour.closed _ List.mem_cons_self c hrender
  cases hpage.symm.trans hpage'
  refine ⟨rest, rfl, ?_⟩
  constructor
  case order => exact (List.cons_prefix_cons.1 htour.order).2
  case halted => exact fun v hv => htour.halted v (List.mem_cons_of_mem _ hv)
  case closed => exact fun v hv => htour.closed v (List.mem_cons_of_mem _ hv)
  case first =>
    cases rest with
    | nil => exact fun v hv => nomatch hv
    | cons u rest =>
      rintro v ⟨⟩
      exact (List.isChain_cons_cons.1 htour.next).1.2
  case next =>
    cases rest with
    | nil => exact .nil
    | cons u rest => exact (List.isChain_cons_cons.1 htour.next).2
  case whole =>
    intro hall
    have hwhole := htour.whole (List.forall_mem_cons.2 ⟨rfl, hall⟩)
    exact (List.cons.inj hwhole).2

theorem serve_of_ok {c₀ : Context Response} {page : Response}
    (hrender : d.render turns c₀ = .ok () c) (hpage : Response.writeBytes [] c.page = .ok () page) :
    serve turns d c₀ = .ok () ⟨c.parameters, page⟩ := by
  rw [serve_eq, hrender, close, hpage]
  rfl

theorem serve_of_error {c₀ : Context Response} {h : Halt}
    (hrender : d.render turns c₀ = .error h c) : serve turns d c₀ = .error (.ofHalt h) c := by
  rw [serve_eq, hrender, close]

/-- What is put out is what the renders of a tour leave, and the error is that of the last one.
There is neither if one of them does not end. -/
theorem exists_tour {s : Settings} (hs : ∀ m, ({ s with persistent := m } : Settings).response
    .unlimited = .ok (fresh m))
    (hfresh : ∀ m (d : Document), (endState (d.render turns (fresh m))).page.Unbounded)
    (output : Array UInt8) :
    ∃ visits, Tour turns fresh persistent templates visits ∧
      (renderTemplates turns { s with persistent := persistent } output templates).map
          (fun r => (r.1.toList, r.2)) =
        if visits.any Visit.isEndless then none
        else some (output.toList ++ visits.flatMap Visit.sent, visits.findSome? Visit.error?) := by
  induction templates generalizing persistent output with
  | nil => exact ⟨[], tour_nil, by simp [renderTemplates]⟩
  | cons t templates ih =>
    obtain ⟨path, d⟩ := t
    rw [renderTemplates, hs persistent]
    dsimp only
    cases hrender : d.render turns (fresh persistent) with
    | error h c =>
      refine ⟨_, tour_of_error hrender, ?_⟩
      rw [serve_of_error hrender]
      cases h with
      | outOfTurns => rfl
      | failed e => simp [TemplateHalt.ofHalt, Visit.isEndless, Visit.sent, Visit.error?, failure?,
          endState]
    | ok a c =>
      have hunbounded := hfresh persistent d
      rw [hrender] at hunbounded
      have hpage := hunbounded.writeBytes []
      obtain ⟨visits, htour, hrest⟩ := ih (output ++ (c.page.wrote []).sink.bytes)
      refine ⟨_, htour.cons hrender hpage, ?_⟩
      rw [serve_of_ok hrender hpage]
      refine hrest.trans ?_
      rw [Array.toList_append, List.append_assoc]
      rfl

end Tours

/-! ## Runs -/

/-- The context that a render begins in: a response of its own with the settings and what the
command line adds to them, and no temporary parameters. -/
def begin (s : Settings) (a : Arguments) (persistent : ParameterMap) : Context Response where
  parameters := ⟨s.request.insertAll a.request, persistent, .empty⟩
  page := ⟨s.header, s.wantsHeader || a.header, false, .unlimited⟩

theorem writable_of_loadSettings {w : World} {choice : SettingsChoice} {s : Settings}
    {bad : List LineError} (h : loadSettings w choice = .ok (s, bad)) : s.Writable := by
  unfold loadSettings at h
  split at h
  · cases h
    exact Settings.writable_empty
  · rename_i path hpath
    cases htext : (w.files path).text with
    | error e =>
      rw [htext] at h
      cases h
    | ok text =>
      rw [htext] at h
      obtain rfl : (Settings.load text).1 = s := congrArg Prod.fst (Except.ok.inj h)
      exact Settings.writable_load text

theorem loadSettings_of_bytes {w : World} {path : Text} {s : String}
    (h : w.files path = .bytes s.toUTF8) :
    loadSettings w (.file path) = .ok (Settings.load s.toList) := by
  have htext : (w.files path).text = .ok s.toList := by rw [h, File.text, decodeText_toUTF8]
  unfold loadSettings settingsFile
  dsimp only
  rw [htext]

theorem response_override {s : Settings} (hs : s.Writable) (a : Arguments) (m : ParameterMap) :
    ({ override s a with persistent := m } : Settings).response .unlimited = .ok (begin s a m) := by
  let t : Settings := { override s a with persistent := m }
  have hencoding : ∀ name ∈ t.encoding, (Encoding.ofName? name).isSome := hs.encoding
  exact Settings.response_eq hencoding .unlimited

theorem readTemplate_of_ok {w : World} {path : Text} {d : Document}
    (h : template w path = .ok d) : readTemplate w path = .ok (path, d) := by
  rw [readTemplate, h]
  rfl

theorem readTemplate_of_error {w : World} {path : Text} {e : TemplateError}
    (h : template w path = .error e) : readTemplate w path = .error (.template path e) := by
  rw [readTemplate, h]
  rfl

/-- Runs with arguments in order, and settings that can be loaded. -/
theorem run_eq {turns : Nat} {w : World} {argv : List Text} {a : Arguments} {s : Settings}
    {bad : List LineError} (hargv : Arguments.parse argv = .ok a) (hhelp : a.help = false)
    (htree : a.printTree = false) (hinput : a.templates.countP isInput ≤ 1)
    (hs : loadSettings w a.settings = .ok (s, bad)) :
    run turns w argv =
      match a.templates.mapM (readTemplate w) with
      | .error e => some (complain #[] bad e.message)
      | .ok templates =>
        (renderTemplates turns (override s a) #[] templates).map fun r => report bad r.1 r.2 := by
  rw [run, hargv]
  dsimp only
  rw [hhelp, runArguments, hs, readTemplates_eq hinput]
  dsimp only
  rw [htree]
  cases a.templates.mapM (readTemplate w) <;> rfl

/-- A tour all of whose renders end has an error just if one of them has failed. -/
theorem findSome?_error?_eq_none_iff {visits : List Visit}
    (hends : ∀ v ∈ visits, failure? v.result ≠ some .outOfTurns) :
    visits.findSome? Visit.error? = none ↔ ∀ v ∈ visits, failure? v.result = none := by
  rw [List.findSome?_eq_none_iff]
  refine forall₂_congr fun v hv => ?_
  have hends := hends v hv
  obtain ⟨path, d, start, result⟩ := v
  cases result with
  | ok a c => exact iff_of_true rfl rfl
  | error h c =>
    cases h with
    | failed e => exact iff_of_false (Option.some_ne_none _) (Option.some_ne_none _)
    | outOfTurns => exact absurd rfl hends

/-! ## More turns -/

section Turns

variable {turns turns' : Nat}

theorem serve_of_le (hle : turns ≤ turns') {d : Document} {c : Context Response}
    (h : failure? (serve turns d c) ≠ some .outOfTurns) : serve turns' d c = serve turns d c := by
  have hrender : failure? (d.render turns c) ≠ some .outOfTurns := by
    intro hturns
    cases hx : d.render turns c with
    | ok a c' =>
      rw [hx] at hturns
      cases hturns
    | error e c' =>
      rw [hx] at hturns
      cases hturns
      exact h (by rw [serve_of_error hx]; rfl)
  rw [serve_eq, serve_eq, d.render_of_le hle hrender]

theorem renderTemplates_of_le (hle : turns ≤ turns') {s : Settings} {output : Array UInt8}
    {templates : List (Text × Document)} {r : Array UInt8 × Option ProgramError}
    (h : renderTemplates turns s output templates = some r) :
    renderTemplates turns' s output templates = some r := by
  induction templates generalizing s output with
  | nil => exact h
  | cons t templates ih =>
    obtain ⟨path, d⟩ := t
    rw [renderTemplates] at h ⊢
    cases hs : s.response .unlimited with
    | error e =>
      rw [hs] at h
      exact h
    | ok c =>
      rw [hs] at h
      dsimp only at h ⊢
      have hturns : failure? (serve turns d c) ≠ some .outOfTurns := by
        intro hturns
        rw [eq_error_of_failure? hturns] at h
        cases h
      rw [serve_of_le hle hturns]
      cases hserve : serve turns d c with
      | ok a c' =>
        rw [hserve] at h
        exact ih h
      | error e c' =>
        rw [hserve] at h
        cases e with
        | failed e => exact h
        | outOfTurns => cases h

theorem runArguments_of_le (hle : turns ≤ turns') {w : World} {a : Arguments} {outcome : Outcome}
    (h : runArguments turns w a = some outcome) : runArguments turns' w a = some outcome := by
  unfold runArguments at h ⊢
  generalize loadSettings w a.settings = loaded at h ⊢
  cases loaded with
  | error e => exact h
  | ok loaded =>
    dsimp only at h ⊢
    generalize readTemplates w w.input a.templates = read at h ⊢
    cases read with
    | error e => exact h
    | ok templates =>
      dsimp only at h ⊢
      by_cases htree : a.printTree = true
      · rwa [if_pos htree] at h ⊢
      · rw [if_neg htree] at h ⊢
        obtain ⟨r, hr, rfl⟩ := Option.map_eq_some_iff.1 h
        rw [renderTemplates_of_le hle hr]
        rfl

/-- What a run leaves behind does not depend on how many turns a loop may have, once it leaves
anything behind. -/
theorem run_of_le (hle : turns ≤ turns') {w : World} {argv : List Text} {outcome : Outcome}
    (h : run turns w argv = some outcome) : run turns' w argv = some outcome := by
  unfold run at h ⊢
  generalize Arguments.parse argv = parsed at h ⊢
  cases parsed with
  | error e => exact h
  | ok a =>
    dsimp only at h ⊢
    by_cases hhelp : a.help = true
    · rwa [if_pos hhelp] at h ⊢
    · rw [if_neg hhelp] at h ⊢
      exact runArguments_of_le hle h

end Turns

/-- What is reported after some renders. -/
theorem report_eq (bad : List LineError) (output : Array UInt8) (error : Option ProgramError) :
    (report bad output error).output = output ∧ (report bad output error).warnings = bad ∧
      (report bad output error).status = (if error = none then 0 else 1) ∧
      (report bad output error).errors =
        error.elim "" fun e => "smartscript: " ++ e.message ++ "\n" := by
  cases error <;> exact ⟨rfl, rfl, rfl, rfl⟩

/-- What is reported after the renders of a tour. -/
theorem report_of_rendered {visits : List Visit}
    {rendered : Option (Array UInt8 × Option ProgramError)} (bad : List LineError)
    (h : rendered.map (fun r => (r.1.toList, r.2)) =
      if visits.any Visit.isEndless then none
      else some (visits.flatMap Visit.sent, visits.findSome? Visit.error?)) :
    ((rendered.map fun r => report bad r.1 r.2) = none ↔
        ∃ v ∈ visits, failure? v.result = some .outOfTurns) ∧
      ∀ outcome, (rendered.map fun r => report bad r.1 r.2) = some outcome →
        outcome.output.toList = visits.flatMap Visit.sent ∧ outcome.warnings = bad ∧
        outcome.status = (if ∀ v ∈ visits, failure? v.result = none then 0 else 1) ∧
        outcome.errors = (visits.findSome? Visit.error?).elim ""
          fun e => "smartscript: " ++ e.message ++ "\n" := by
  have hendless : visits.any Visit.isEndless = true ↔
      ∃ v ∈ visits, failure? v.result = some .outOfTurns := by
    simp [List.any_eq_true, Visit.isEndless]
  cases rendered with
  | none =>
    have hstuck : visits.any Visit.isEndless = true := by
      by_contra hnot
      rw [if_neg hnot] at h
      cases h
    exact ⟨iff_of_true rfl (hendless.1 hstuck), fun outcome houtcome => nomatch houtcome⟩
  | some r =>
    have hends : ¬ visits.any Visit.isEndless = true := by
      intro hstuck
      rw [if_pos hstuck] at h
      cases h
    obtain ⟨output, error⟩ := r
    rw [if_neg hends] at h
    obtain ⟨houtput, rfl⟩ := Prod.mk.inj (Option.some.inj h)
    refine ⟨iff_of_false (Option.some_ne_none _) (mt hendless.2 hends), ?_⟩
    rintro outcome ⟨⟩
    obtain ⟨hbytes, hwarnings, hstatus, hmessage⟩ :=
      report_eq bad output (visits.findSome? Visit.error?)
    have hall := findSome?_error?_eq_none_iff fun v hv hturns =>
      hends (hendless.2 ⟨v, hv, hturns⟩)
    simp only [hall] at hstatus
    exact ⟨(congrArg Array.toList hbytes).trans houtput, hwarnings, hstatus, hmessage⟩

/-- A run renders nothing unless every template can be read. Otherwise it renders them in order up
to the first that fails and puts out what each leaves, unless a render does not end. Every render
has a response of its own, the parameters of the command line, and the persistent parameters that
the one before it has left. -/
theorem run_templates (turns : Nat) (w : World) {argv : List Text} {a : Arguments} {s : Settings}
    {bad : List LineError} (hargv : Arguments.parse argv = .ok a) (hhelp : a.help = false)
    (htree : a.printTree = false) (hinput : a.templates.countP isInput ≤ 1)
    (hs : loadSettings w a.settings = .ok (s, bad)) :
    let persistent := s.persistent.insertAll a.persistent
    (∀ before path after e, a.templates = before ++ path :: after →
      (∀ p ∈ before, ∃ d, template w p = .ok d) → template w path = .error e →
      run turns w argv = some
        ⟨#[], bad, "smartscript: " ++ (String.ofList path ++ ": " ++ e.message) ++ "\n", 1⟩) ∧
    (∀ templates : List (Text × Document), a.templates = templates.map (·.1) →
      (∀ t ∈ templates, template w t.1 = .ok t.2) →
      ∃ visits, Tour turns (begin s a) persistent templates visits ∧
        (run turns w argv = none ↔ ∃ v ∈ visits, failure? v.result = some .outOfTurns) ∧
        ∀ outcome, run turns w argv = some outcome →
          outcome.output.toList = visits.flatMap Visit.sent ∧ outcome.warnings = bad ∧
          outcome.status = (if ∀ v ∈ visits, failure? v.result = none then 0 else 1) ∧
          outcome.errors = (visits.findSome? Visit.error?).elim ""
            fun e => "smartscript: " ++ e.message ++ "\n") ∧
    ∀ name,
      (∀ m, (begin s a m).parameters.request.get? name =
        (lastValue? a.request name).or (s.request.get? name)) ∧
      persistent.get? name = (lastValue? a.persistent name).or (s.persistent.get? name) := by
  intro persistent
  have hrun : run turns w argv = _ := run_eq hargv hhelp htree hinput hs
  refine ⟨?_, ?_, fun name => ⟨fun m => ParameterMap.get?_insertAll _ _ _,
    ParameterMap.get?_insertAll _ _ _⟩⟩
  · intro before path after e hsplit hbefore herror
    have hread : a.templates.mapM (readTemplate w) = .error (.template path e) := by
      refine mapM_eq_error_iff.2 ⟨before, path, after, hsplit, fun p hp => ?_,
        readTemplate_of_error herror⟩
      obtain ⟨d, hd⟩ := hbefore p hp
      exact ⟨_, readTemplate_of_ok hd⟩
    rw [hrun, hread]
    rfl
  · intro templates hpaths hok
    have hread : a.templates.mapM (readTemplate w) = .ok templates := by
      rw [mapM_eq_ok_iff, hpaths, List.map_map]
      exact List.map_congr_left fun t ht => readTemplate_of_ok (hok t ht)
    rw [hread] at hrun
    have hfresh : ∀ m (d : Document), (endState (d.render turns (begin s a m))).page.Unbounded :=
      fun m d => unbounded_render turns d _ _ _
    have htour : ∃ visits, Tour turns (begin s a) persistent templates visits ∧
        (renderTemplates turns (override s a) #[] templates).map (fun r => (r.1.toList, r.2)) =
          if visits.any Visit.isEndless then none
          else some (visits.flatMap Visit.sent, visits.findSome? Visit.error?) :=
      exists_tour (response_override (writable_of_loadSettings hs) a) hfresh #[]
    obtain ⟨visits, htour, hrendered⟩ := htour
    refine ⟨visits, htour, ?_⟩
    rw [hrun]
    exact report_of_rendered bad hrendered

/-- One template sets a persistent parameter, the next writes it twice, and the third fails after
its first text. None of them is rendered if one is missing. -/
theorem run_templates_handed_over :
    let content : Text → Option String
      | ['r'] => some "pparam n=0\nbogus"
      | ['a'] => some "\x7b$= \"n\" \"7\" @pparamSet$\x7dA"
      | ['b'] => some "\x7b$FOR i 1 2$\x7d\x7b$= \"n\" \"\" @pparamGet$\x7d\x7b$END$\x7d"
      | ['c'] => some "C\x7b$= x$\x7dD"
      | ['d'] => some "E"
      | _ => none
    let w : World :=
      ⟨fun path => (content path).elim (.absent .notFound) fun s => .bytes s.toUTF8, .empty, none,
        none⟩
    run 3 w ["-c".toList, ['r'], ['a'], ['b'], ['c'], ['d']] =
        some ⟨"A77C".toUTF8.data, [⟨2, .unknownDirective "bogus".toList⟩],
          "smartscript: c: runtime error: variable \"x\" is not bound\n", 1⟩ ∧
      run 3 w ["-n".toList, ['a'], ['x'], ['-'], ['d']] =
        some ⟨#[], [], "smartscript: x: No such file or directory (os error 2)\n", 1⟩ := by
  intro content w
  let dA : Document := .echo [.operand (.const (.str ['n'])), .operand (.const (.str ['7'])),
    .fn "pparamSet".toList] (.text ['A'] .nil)
  let dB : Document := .loop ⟨['i'], .const (.int 1), .const (.int 2), none⟩
    (.echo [.operand (.const (.str ['n'])), .operand (.const (.str [])),
      .fn "pparamGet".toList] .nil) .nil
  let dC : Document := .text ['C'] (.echo [.operand (.var ['x'])] (.text ['D'] .nil))
  have hA : template w ['a'] = .ok dA :=
    (template_of_bytes (by decide) rfl).trans (by decide +kernel)
  have hB : template w ['b'] = .ok dB :=
    (template_of_bytes (by decide) rfl).trans (by decide +kernel)
  have hC : template w ['c'] = .ok dC :=
    (template_of_bytes (by decide) rfl).trans (by decide +kernel)
  have hD : template w ['d'] = .ok (.text ['E'] .nil) :=
    (template_of_bytes (by decide) rfl).trans (by decide +kernel)
  constructor
  · let a : Arguments := ⟨.file ['r'], [], [], false, false, false, [['a'], ['b'], ['c'], ['d']]⟩
    let s := (Settings.load "pparam n=0\nbogus".toList).1
    let m : ParameterMap := .ofList [(['n'], ['7'])]
    have hargv : Arguments.parse ["-c".toList, ['r'], ['a'], ['b'], ['c'], ['d']] = .ok a := by
      decide +kernel
    have hbad : (Settings.load "pparam n=0\nbogus".toList).2 =
        [⟨2, .unknownDirective "bogus".toList⟩] := by decide +kernel
    have hs : loadSettings w (.file ['r']) =
        .ok (s, [⟨2, .unknownDirective "bogus".toList⟩]) := by
      rw [loadSettings_of_bytes rfl, ← hbad]
    have hread : ∀ t ∈ [(['a'], dA), (['b'], dB), (['c'], dC), (['d'], .text ['E'] .nil)],
        template w t.1 = .ok t.2 := by
      simp only [List.forall_mem_cons]
      exact ⟨hA, hB, hC, hD, List.forall_mem_nil _⟩
    obtain ⟨c₁, h₁, hleft₁, p₁, hp₁, hsent₁⟩ : ∃ c,
        dA.render 3 (begin s a (s.persistent.insertAll a.persistent)) = .ok () c ∧
        c.parameters.persistent = m ∧ ∃ page, Response.writeBytes [] c.page = .ok () page ∧
          page.sink.bytes.toList = [65] :=
      ⟨_, eq_ok_of_failure? (by decide +kernel), by decide +kernel, _,
        eq_ok_of_failure? (by decide +kernel), by decide +kernel⟩
    obtain ⟨c₂, h₂, hleft₂, p₂, hp₂, hsent₂⟩ : ∃ c, dB.render 3 (begin s a m) = .ok () c ∧
        c.parameters.persistent = m ∧ ∃ page, Response.writeBytes [] c.page = .ok () page ∧
          page.sink.bytes.toList = [55, 55] :=
      ⟨_, eq_ok_of_failure? (by decide +kernel), by decide +kernel, _,
        eq_ok_of_failure? (by decide +kernel), by decide +kernel⟩
    obtain ⟨c₃, h₃, hsent₃⟩ : ∃ c, dC.render 3 (begin s a m) =
        .error (.failed (.unboundVariable ['x'])) c ∧ c.page.sink.bytes.toList = [67] :=
      ⟨_, eq_error_of_failure? (by decide +kernel), by decide +kernel⟩
    obtain ⟨visits, htour, hends, houtcome⟩ :=
      (run_templates 3 w hargv rfl rfl (by decide) hs).2.1 _ rfl hread
    obtain ⟨rest, rfl, htour₂⟩ := htour.eq_of_ok h₁ hp₁
    rw [hleft₁] at htour₂
    obtain ⟨rest, rfl, htour₃⟩ := htour₂.eq_of_ok h₂ hp₂
    rw [hleft₂] at htour₃
    obtain rfl := htour₃.eq_of_error h₃
    cases hrun : run 3 w ["-c".toList, ['r'], ['a'], ['b'], ['c'], ['d']] with
    | none =>
      obtain ⟨v, hv, hturns⟩ := hends.1 hrun
      simp only [List.mem_cons, List.not_mem_nil, or_false] at hv
      rcases hv with rfl | rfl | rfl <;> cases hturns
    | some outcome =>
      obtain ⟨houtput, hwarnings, hstatus, herrors⟩ := houtcome outcome hrun
      obtain ⟨⟨output⟩, warnings, errors, status⟩ := outcome
      simp only [List.flatMap_cons, List.flatMap_nil, Visit.sent, endState, hsent₁, hsent₂, hsent₃]
        at houtput
      cases houtput
      cases hwarnings
      cases hstatus
      cases herrors
      rfl
  · have hargv : Arguments.parse ["-n".toList, ['a'], ['x'], ['-'], ['d']] =
        .ok ⟨.skip, [], [], false, false, false, [['a'], ['x'], ['-'], ['d']]⟩ := by decide +kernel
    have hmissing : template w ['x'] = .error (.read .notFound) := rfl
    have hbefore : ∀ p ∈ [['a']], ∃ d, template w p = .ok d :=
      List.forall_mem_singleton.2 ⟨dA, hA⟩
    have hfails := (run_templates 3 w hargv rfl rfl (by decide) rfl).1
    refine (hfails [['a']] ['x'] [['-'], ['d']] _ rfl hbefore hmissing).trans ?_
    decide +kernel

end Program
end PageTemplate
