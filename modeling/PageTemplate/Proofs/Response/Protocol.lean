import Mathlib.Data.List.TakeWhile
import PageTemplate.Proofs.Render.Journal
import PageTemplate.Response.Basic

/-! The protocol of a response. Up to the first write a response is settings and nothing is sent;
with the first write the settings become the header, which is sent at most once, before all else,
and from then on they are fixed. -/
namespace PageTemplate.Response

/-! ## Events -/

/-- An operation on a response that changes a setting or writes. -/
inductive Event
  | call (c : Call)
  | writeBytes (data : List UInt8)
  | setEncoding (name : Text)
  | setStatusCode (code : UInt16)
  | setStatusText (s : Text)
  | setContentLength (n : UInt64)
  | addCookie (c : Cookie)
deriving DecidableEq

namespace Event

def run : Event → EStateM ContextError Response Unit
  | call c => c.run
  | writeBytes data => Response.writeBytes data
  | setEncoding name => Response.setEncoding name
  | setStatusCode code => Response.setStatusCode code
  | setStatusText s => Response.setStatusText s
  | setContentLength n => Response.setContentLength n
  | addCookie c => Response.addCookie c

/-- What an event sets, if it is not a write. -/
def field? : Event → Option HeaderField
  | call (.write _) => none
  | call (.setMimeType _) => some .mimeType
  | writeBytes _ => none
  | setEncoding _ => some .encoding
  | setStatusCode _ => some .statusCode
  | setStatusText _ => some .statusText
  | setContentLength _ => some .contentLength
  | addCookie _ => some .cookies

def isWrite (e : Event) : Bool := e.field?.isNone

/-- What an event makes of the settings. The name of no encoding changes nothing. -/
def apply (h : Header) : Event → Header
  | call (.write _) => h
  | call (.setMimeType s) => { h with mimeType := s }
  | writeBytes _ => h
  | setEncoding name => { h with encoding := (Encoding.ofName? name).getD h.encoding }
  | setStatusCode code => { h with statusCode := code }
  | setStatusText s => { h with statusText := s }
  | setContentLength n => { h with contentLength := some n }
  | addCookie c => { h with cookies := h.cookies ++ [c] }

/-- The bytes of a write, its text in some encoding. -/
def bytes (encoding : Encoding) : Event → List UInt8
  | call (.write s) => encoding.encode s
  | writeBytes data => data
  | _ => []

/-- What is wrong with an event whenever it comes. -/
def wrong? : Event → Option ContextError
  | setEncoding name =>
    if (Encoding.ofName? name).isNone then some (.unknownEncoding name) else none
  | _ => none

/-- How an event fails, before the first write or after it. -/
def failure? (started : Bool) (e : Event) : Option ContextError :=
  if started then e.field?.map .headerSent else e.wrong?

end Event

/-- The settings that some events make, from those of a new response. -/
def settings (es : List Event) : Header := es.foldl Event.apply Header.default

/-- The events before the first write. -/
def opening (es : List Event) : List Event := es.takeWhile fun e => !e.isWrite

/-- The events from the first write on. -/
def body (es : List Event) : List Event := es.dropWhile fun e => !e.isWrite

/-- What is sent under a header: the header itself if it is wanted, and all writes. -/
def sent (wantsHeader : Bool) (h : Header) : List Event → List UInt8
  | [] => []
  | e :: es => (if wantsHeader then h.bytes else []) ++ (e :: es).flatMap (Event.bytes h.encoding)

/-- The response that some events lead to. -/
def after (wantsHeader : Bool) (es : List Event) : Response where
  header := settings (opening es)
  wantsHeader := wantsHeader
  started := es.any Event.isWrite
  sink := ⟨(sent wantsHeader (settings (opening es)) (body es)).toArray, none⟩

/-- An element of a list with one more at its end is that one or is in the list. -/
theorem split_append_singleton {α : Type} {xs before rest : List α} {x y : α}
    (h : xs ++ [x] = before ++ y :: rest) :
    (xs = before ∧ x = y) ∨ ∃ rest', xs = before ++ y :: rest' := by
  rcases List.eq_nil_or_concat rest with rfl | ⟨rest', z, rfl⟩
  · obtain ⟨hxs, hx⟩ := List.append_inj' h rfl
    exact .inl ⟨hxs, List.singleton_inj.1 hx⟩
  · rw [List.concat_eq_append, ← List.cons_append, ← List.append_assoc] at h
    exact .inr ⟨rest', (List.append_inj' h rfl).1⟩

/-! ## One event -/

theorem writeBytes_of_room {r : Response} (hroom : r.sink.room = none) (data : List UInt8) :
    writeBytes data r = .ok () { r with
      started := true
      sink := ⟨r.sink.bytes ++
        ((if !r.started && r.wantsHeader then r.header.bytes else []) ++ data), none⟩ } := by
  obtain ⟨header, wantsHeader, started, bytes, room⟩ := r
  cases hroom
  cases started with
  | true => rfl
  | false =>
    cases wantsHeader with
    | true =>
      change EStateM.Result.ok ()
        (⟨header, true, true, bytes ++ header.bytes ++ data, none⟩ : Response) = _
      rw [Sink.bytes_append_append]
      rfl
    | false => rfl

namespace Event

theorem isWrite_eq_false_iff (e : Event) : e.isWrite = false ↔ ∃ field, e.field? = some field := by
  rw [isWrite, Option.isNone_eq_false_iff, Option.isSome_iff_exists]

/-- A setter is refused after the first write; before it, it is applied unless it is wrong. -/
theorem run_of_field? {e : Event} {field : HeaderField} (h : e.field? = some field)
    (r : Response) :
    e.run r =
      if r.started then .error (.headerSent field) r
      else match e.wrong? with
        | some err => .error err r
        | none => .ok () { r with header := e.apply r.header } := by
  cases e with
  | call c =>
    cases c with
    | write s => cases h
    | setMimeType s =>
      cases h
      rfl
  | writeBytes data => cases h
  | setEncoding name =>
    cases h
    simp only [run, Response.setEncoding, change, wrong?, apply]
    cases Encoding.ofName? name <;> rfl
  | _ =>
    cases h
    rfl

theorem apply_of_wrong? {e : Event} {err : ContextError} (h : e.wrong? = some err)
    (header : Header) : e.apply header = header := by
  cases e with
  | setEncoding name =>
    cases hname : Encoding.ofName? name with
    | none => simp [apply, hname]
    | some encoding => simp [wrong?, hname] at h
  | _ => cases h

theorem wrong?_of_isWrite {e : Event} (h : e.isWrite = true) : e.wrong? = none := by
  cases e with
  | setEncoding name => cases h
  | _ => rfl

theorem bytes_of_field? {e : Event} {field : HeaderField} (h : e.field? = some field)
    (encoding : Encoding) : e.bytes encoding = [] := by
  cases e with
  | call c =>
    cases c with
    | write s => cases h
    | setMimeType s => rfl
  | writeBytes data => cases h
  | _ => rfl

/-- A write on a sink that takes everything sends the header if it has to, and its bytes. -/
theorem run_of_isWrite {e : Event} (h : e.isWrite = true) {r : Response}
    (hroom : r.sink.room = none) :
    e.run r = .ok () { r with
      started := true
      sink := ⟨r.sink.bytes ++ ((if !r.started && r.wantsHeader then r.header.bytes else []) ++
        e.bytes r.header.encoding), none⟩ } := by
  cases e with
  | call c =>
    cases c with
    | write s => exact writeBytes_of_room hroom _
    | setMimeType s => cases h
  | writeBytes data => exact writeBytes_of_room hroom data
  | _ => cases h

end Event

section After

variable {es : List Event} {e : Event}

theorem opening_of_waiting (h : es.any Event.isWrite = false) : opening es = es :=
  List.takeWhile_eq_self_iff.2 fun e he => by simpa using List.any_eq_false.1 h e he

theorem body_of_waiting (h : es.any Event.isWrite = false) : body es = [] :=
  List.dropWhile_eq_nil_iff.2 fun e he => by simpa using List.any_eq_false.1 h e he

theorem opening_append_of_waiting (h : es.any Event.isWrite = false) (rest : List Event) :
    opening (es ++ rest) = es ++ opening rest := by
  refine List.takeWhile_append_of_pos fun e he => ?_
  simpa using List.any_eq_false.1 h e he

theorem body_append_of_waiting (h : es.any Event.isWrite = false) (rest : List Event) :
    body (es ++ rest) = body rest := by
  refine List.dropWhile_append_of_pos fun e he => ?_
  simpa using List.any_eq_false.1 h e he

/-- Events with a write are those before it, the write and the others. -/
theorem exists_first_write (h : es.any Event.isWrite = true) :
    ∃ before e rest, es = before ++ e :: rest ∧ before.any Event.isWrite = false ∧
      e.isWrite = true := by
  obtain ⟨e, hfind⟩ := Option.isSome_iff_exists.1 (List.find?_isSome.2 (List.any_eq_true.1 h))
  obtain ⟨he, before, rest, rfl, hbefore⟩ := List.find?_eq_some_iff_append.1 hfind
  exact ⟨before, e, rest, rfl, List.any_eq_false.2 fun x hx => by simpa using hbefore x hx, he⟩

theorem settings_append (es rest : List Event) :
    settings (es ++ rest) = rest.foldl Event.apply (settings es) := List.foldl_append

theorem opening_append_of_started (h : es.any Event.isWrite = true) (rest : List Event) :
    opening (es ++ rest) = opening es := by
  obtain ⟨before, e, after, rfl, hbefore, he⟩ := exists_first_write h
  rw [List.append_assoc, opening_append_of_waiting hbefore, opening_append_of_waiting hbefore]
  simp [opening, he]

theorem body_append_of_started (h : es.any Event.isWrite = true) (rest : List Event) :
    body (es ++ rest) = body es ++ rest := by
  obtain ⟨before, e, after, rfl, hbefore, he⟩ := exists_first_write h
  rw [List.append_assoc, body_append_of_waiting hbefore, body_append_of_waiting hbefore]
  simp [body, he]

theorem body_ne_nil (h : es.any Event.isWrite = true) : body es ≠ [] := by
  obtain ⟨before, e, rest, rfl, hbefore, he⟩ := exists_first_write h
  rw [body_append_of_waiting hbefore]
  simp [body, he]

theorem sent_append (wantsHeader : Bool) (header : Header) {es : List Event} (h : es ≠ [])
    (rest : List Event) :
    sent wantsHeader header (es ++ rest) =
      sent wantsHeader header es ++ rest.flatMap (Event.bytes header.encoding) := by
  cases es with
  | nil => exact absurd rfl h
  | cons e es => simp [sent]

variable (wantsHeader : Bool)

theorem after_of_waiting (h : es.any Event.isWrite = false) :
    after wantsHeader es = ⟨settings es, wantsHeader, false, .unlimited⟩ := by
  unfold after
  rw [opening_of_waiting h, body_of_waiting h, h]
  rfl

/-- A setter before the first write. -/
theorem after_append_of_field? {field : HeaderField} (h : es.any Event.isWrite = false)
    (he : e.field? = some field) :
    after wantsHeader (es ++ [e]) =
      { after wantsHeader es with header := e.apply (after wantsHeader es).header } := by
  have hboth : (es ++ [e]).any Event.isWrite = false := by
    simp [List.any_append, h, Event.isWrite, he]
  rw [after_of_waiting _ h, after_of_waiting _ hboth, settings_append]
  rfl

/-- The first write. -/
theorem after_append_of_isWrite (h : es.any Event.isWrite = false) (he : e.isWrite = true) :
    after wantsHeader (es ++ [e]) = { after wantsHeader es with
      started := true
      sink := ⟨(#[] : Array UInt8) ++ ((if wantsHeader then (settings es).bytes else []) ++
        e.bytes (settings es).encoding), none⟩ } := by
  have hopening : opening (es ++ [e]) = es := by
    rw [opening_append_of_waiting h]
    simp [opening, he]
  have hbody : body (es ++ [e]) = [e] := by
    rw [body_append_of_waiting h]
    simp [body, he]
  rw [after_of_waiting _ h, after, hopening, hbody]
  simp [sent, he]

/-- Any event after the first write. -/
theorem after_append_of_started (h : es.any Event.isWrite = true) :
    after wantsHeader (es ++ [e]) = { after wantsHeader es with
      sink := ⟨(after wantsHeader es).sink.bytes ++
        e.bytes (after wantsHeader es).header.encoding, none⟩ } := by
  simp only [after, opening_append_of_started h, body_append_of_started h,
    sent_append _ _ (body_ne_nil h), List.toArray_appendList]
  simp [h]

/-- An event on the response that events lead to: if it fails it changes nothing, and else it
comes after them. -/
theorem run_after (es : List Event) (e : Event) :
    e.run (after wantsHeader es) =
      match e.failure? (es.any Event.isWrite) with
      | some err => .error err (after wantsHeader es)
      | none => .ok () (after wantsHeader (es ++ [e])) := by
  cases h : es.any Event.isWrite <;> cases he : e.isWrite
  case false.false =>
    obtain ⟨field, hfield⟩ := e.isWrite_eq_false_iff.1 he
    have hstarted : (after wantsHeader es).started ≠ true := Bool.eq_false_iff.1 h
    rw [Event.run_of_field? hfield, if_neg hstarted, after_append_of_field? _ h hfield]
    rfl
  case false.true =>
    have hfailure : e.failure? false = none := Event.wrong?_of_isWrite he
    rw [Event.run_of_isWrite he rfl, hfailure, after_append_of_isWrite _ h he, after_of_waiting _ h]
    rfl
  case true.false =>
    obtain ⟨field, hfield⟩ := e.isWrite_eq_false_iff.1 he
    have hstarted : (after wantsHeader es).started = true := h
    have hfailure : e.failure? true = some (.headerSent field) := by
      simp [Event.failure?, hfield]
    rw [Event.run_of_field? hfield, hstarted, hfailure]
    rfl
  case true.true =>
    have hstarted : (after wantsHeader es).started = true := h
    have hfailure : e.failure? true = none := by
      have hnone := Option.isNone_iff_eq_none.1 he
      simp [Event.failure?, hnone]
    rw [Event.run_of_isWrite he rfl, hfailure, after_append_of_started _ h, hstarted]
    simp [hstarted]

/-- An event that fails makes no difference to what comes after. -/
theorem after_append_of_failure? {err : ContextError}
    (h : e.failure? (es.any Event.isWrite) = some err) :
    after wantsHeader (es ++ [e]) = after wantsHeader es := by
  cases hstarted : es.any Event.isWrite with
  | false =>
    rw [hstarted] at h
    obtain ⟨field, hfield⟩ : ∃ field, e.field? = some field := by
      rw [← Event.isWrite_eq_false_iff, Bool.eq_false_iff]
      intro he
      cases (Event.wrong?_of_isWrite he).symm.trans h
    rw [after_append_of_field? _ hstarted hfield, Event.apply_of_wrong? h]
  | true =>
    rw [hstarted] at h
    obtain ⟨field, hfield, -⟩ := Option.map_eq_some_iff.1 h
    rw [after_append_of_started _ hstarted, Event.bytes_of_field? hfield]
    rfl

end After

/-! ## Operations -/

/-- What can be done with a response and its parameters. -/
inductive Operation
  | event (e : Event)
  | request (name : Text)
  | get (s : Store) (name : Text)
  | set (s : Store) (name value : Text)
  | delete (s : Store) (name : Text)
  | render (turns : Nat) (d : Document)

/-- The events of an operation or of several, and how each of them fails if it does. -/
abbrev Log := List (Event × Option ContextError)

def Log.events (log : Log) : List Event := log.map (·.1)

namespace Operation

/-- Runs an operation; one that looks up a parameter gives what it finds. -/
def run : Operation → EStateM Halt (Context Response) (Option Text)
  | event e => fun c => mapResult (fun _ _ => none) Halt.ofContext id (Context.onPage e.run c)
  | request name => fun c => .ok (c.request? name) c
  | get s name => fun c => .ok (c.get? s name) c
  | set s name value => fun c => .ok none (c.set s name value)
  | delete s name => fun c => .ok none (c.delete s name)
  | render turns d => fun c => mapResult (fun _ _ => none) id id (d.render turns c)

def log (c : Context Response) : Operation → Log
  | event e => [(e, failure? (e.run c.page))]
  | render turns d => (d.journal turns c).map fun x => (.call x.1, x.2)
  | _ => []

end Operation

/-- Operations one after the other. One that fails does not keep the next from being run. -/
def runAll : List Operation → Context Response → Context Response
  | [], c => c
  | op :: ops, c => runAll ops (endState (op.run c))

def logAll : List Operation → Context Response → Log
  | [], _ => []
  | op :: ops, c => op.log c ++ logAll ops (endState (op.run c))

/-- A response that is as the events of a log make it, each of which failed just if it had to. -/
structure Obeys (wantsHeader : Bool) (log : Log) (r : Response) : Prop where
  eq_after : r = after wantsHeader log.events
  failure : ∀ (before : Log) x rest, log = before ++ x :: rest →
    x.2 = x.1.failure? (before.events.any Event.isWrite)

section Runs

variable {wantsHeader : Bool} {log : Log}

theorem Log.events_append (log more : Log) : (log ++ more).events = log.events ++ more.events :=
  List.map_append

theorem Obeys.event {r : Response} (h : Obeys wantsHeader log r) (e : Event) :
    Obeys wantsHeader (log ++ [(e, failure? (e.run r))]) (endState (e.run r)) := by
  have hrun := run_after wantsHeader log.events e
  rw [← h.eq_after] at hrun
  have hevents : Log.events (log ++ [(e, failure? (e.run r))]) = log.events ++ [e] :=
    Log.events_append _ _
  have hlast : failure? (e.run r) = e.failure? (log.events.any Event.isWrite) := by
    rw [hrun]
    cases e.failure? (log.events.any Event.isWrite) <;> rfl
  constructor
  · rw [hevents, hrun]
    cases he : e.failure? (log.events.any Event.isWrite) with
    | none => rfl
    | some err =>
      rw [after_append_of_failure? wantsHeader he]
      exact h.eq_after
  · intro before x rest hsplit
    rcases split_append_singleton hsplit with ⟨rfl, rfl⟩ | ⟨rest', hrest⟩
    · exact hlast
    · exact h.failure before x rest' hrest

/-- A render is the calls of its journal. -/
theorem Obeys.render {c : Context Response} (h : Obeys wantsHeader log c.page) (turns : Nat)
    (d : Document) :
    Obeys wantsHeader (log ++ (d.journal turns c).map fun x => (.call x.1, x.2))
      (endState (d.render turns c)).page := by
  refine Document.journal_invariant
    (I := fun entries r => Obeys wantsHeader (log ++ entries.map fun x => (.call x.1, x.2)) r)
    (fun call entries r h => ?_) turns d ?_
  · rw [List.map_append, ← List.append_assoc]
    exact h.event (.call call)
  · rwa [List.map_nil, List.append_nil]

theorem Obeys.operation {c : Context Response} (h : Obeys wantsHeader log c.page)
    (op : Operation) : Obeys wantsHeader (log ++ op.log c) (endState (op.run c)).page := by
  cases op with
  | event e =>
    rw [Operation.run, endState_mapResult, Context.onPage_eq, endState_mapResult]
    exact h.event e
  | render turns d =>
    rw [Operation.run, endState_mapResult]
    exact h.render turns d
  | _ =>
    change Obeys wantsHeader (log ++ []) c.page
    rwa [List.append_nil]

/-- An event that has to fail leaves all as it is. -/
theorem Obeys.run_of_failure? {c : Context Response} (h : Obeys wantsHeader log c.page)
    {e : Event} {err : ContextError} (he : e.failure? c.page.started = some err) :
    (Operation.event e).run c = .error (Halt.ofContext err) c := by
  have hrun := run_after wantsHeader log.events e
  have hstarted : log.events.any Event.isWrite = c.page.started := by rw [h.eq_after]; rfl
  rw [hstarted, he, ← h.eq_after] at hrun
  change mapResult _ _ _ (Context.onPage e.run c) = _
  rw [Context.onPage_eq, hrun]
  rfl

theorem Obeys.runAll {c : Context Response} (h : Obeys wantsHeader log c.page)
    (ops : List Operation) :
    Obeys wantsHeader (log ++ logAll ops c) (Response.runAll ops c).page := by
  induction ops generalizing log c with
  | nil =>
    rw [logAll, List.append_nil]
    exact h
  | cons op ops ih =>
    rw [logAll, ← List.append_assoc]
    exact ih (h.operation op)

/-- Before the first write nothing is sent and the header is as it is set. -/
theorem Obeys.of_waiting {r : Response} (h : Obeys wantsHeader log r)
    (hwaiting : log.events.any Event.isWrite = false) :
    r.sink.bytes = #[] ∧ r.started = false ∧ r.header = settings log.events := by
  rw [h.eq_after, after_of_waiting _ hwaiting]
  exact ⟨rfl, rfl, rfl⟩

/-- From the first write on the header is the one of that write, and comes before all writes. -/
theorem Obeys.of_first_write {r : Response} (h : Obeys wantsHeader log r)
    {before rest : List Event} {e : Event} (hsplit : log.events = before ++ e :: rest)
    (hbefore : before.any Event.isWrite = false) (he : e.isWrite = true) :
    r.started = true ∧ r.header = settings before ∧
      r.sink.bytes.toList = (if wantsHeader then (settings before).bytes else []) ++
        (e :: rest).flatMap (Event.bytes (settings before).encoding) := by
  have hopening : opening log.events = before := by
    rw [hsplit, opening_append_of_waiting hbefore]
    simp [opening, he]
  have hbody : body log.events = e :: rest := by
    rw [hsplit, body_append_of_waiting hbefore]
    simp [body, he]
  have hstarted : log.events.any Event.isWrite = true := by
    rw [hsplit]
    simp [he]
  rw [h.eq_after]
  refine ⟨hstarted, congrArg settings hopening, ?_⟩
  rw [after, hopening, hbody]
  rfl

theorem Obeys.header_runAll {c : Context Response} (h : Obeys wantsHeader log c.page)
    (hstarted : c.page.started = true) (ops : List Operation) :
    (Response.runAll ops c).page.header = c.page.header := by
  have hwrite : log.events.any Event.isWrite = true := by
    rw [h.eq_after] at hstarted
    exact hstarted
  rw [(h.runAll ops).eq_after, h.eq_after, Log.events_append]
  exact congrArg settings (opening_append_of_started hwrite _)

theorem obeys_new (wantsHeader : Bool) : Obeys wantsHeader [] (new wantsHeader .unlimited) := by
  refine ⟨rfl, fun before x rest h => ?_⟩
  simp at h

end Runs

/-- The protocol of a response on a sink that takes everything, whatever is done with it and in
whatever order. Before the first write nothing is sent. From then on the header is the one that
the settings made at that write, and what is sent is the header, if it is wanted, and all writes
in order. An operation fails only if it sets something after the first write or names no encoding,
and then it changes nothing. -/
theorem header_protocol (p : Parameters) (wantsHeader : Bool) (ops : List Operation) :
    let start : Context Response := ⟨p, new wantsHeader .unlimited⟩
    let c := runAll ops start
    let log := logAll ops start
    (log.events.any Event.isWrite = false →
      c.page.sink.bytes = #[] ∧ c.page.started = false ∧ c.page.header = settings log.events) ∧
    (∀ before e rest, log.events = before ++ e :: rest → before.any Event.isWrite = false →
      e.isWrite = true →
      c.page.started = true ∧ c.page.header = settings before ∧
      c.page.sink.bytes.toList = (if wantsHeader then (settings before).bytes else []) ++
        (e :: rest).flatMap (Event.bytes (settings before).encoding)) ∧
    (∀ (before : Log) x rest, log = before ++ x :: rest →
      x.2 = x.1.failure? (before.events.any Event.isWrite)) ∧
    (∀ e err, e.failure? c.page.started = some err →
      (Operation.event e).run c = .error (Halt.ofContext err) c) ∧
    (c.page.started = true → ∀ more, (runAll more c).page.header = c.page.header) := by
  intro start c log
  have hobeys : Obeys wantsHeader log c.page := by
    simpa using (obeys_new wantsHeader).runAll (c := start) ops
  exact ⟨hobeys.of_waiting, fun _ _ _ => hobeys.of_first_write, hobeys.failure,
    fun _ _ => hobeys.run_of_failure?, hobeys.header_runAll⟩

/-- An empty text is a write too. -/
example : (after true [.call (.write []), .setStatusCode 404]).header = Header.default := by
  rfl

end PageTemplate.Response
