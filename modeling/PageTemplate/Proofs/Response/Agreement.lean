import PageTemplate.Context.Capture
import PageTemplate.Proofs.Response.Protocol

/-! Renders into memory and renders that are sent. A response without a header and with all the
room it needs takes the same calls as a page in memory, but for a media type after a write. -/
namespace PageTemplate

/-! ## Calls -/

namespace Call

/-- The text that a call writes. -/
def text : Call → Text
  | write s => s
  | setMimeType _ => []

def isWrite : Call → Bool
  | write _ => true
  | setMimeType _ => false

def mime? : Call → Option Text
  | write _ => none
  | setMimeType s => some s

end Call

/-- All that calls write. -/
def written (calls : List Call) : Text := calls.flatMap Call.text

/-- The media type that calls leave, if they set one. -/
def lastMime? (calls : List Call) : Option Text := (calls.filterMap Call.mime?).getLast?

/-- Some call sets a media type after a write. -/
def Late (calls : List Call) : Prop :=
  ∃ before s rest, calls = before ++ .setMimeType s :: rest ∧ before.any Call.isWrite = true

theorem late_append_singleton {calls : List Call} {call : Call} (h : Late (calls ++ [call])) :
    Late calls ∨ (call.isWrite = false ∧ calls.any Call.isWrite = true) := by
  obtain ⟨before, s, rest, hsplit, hbefore⟩ := h
  rcases Response.split_append_singleton hsplit with ⟨rfl, rfl⟩ | ⟨rest', hrest⟩
  · exact .inr ⟨rfl, hbefore⟩
  · exact .inl ⟨before, s, rest', hrest, hbefore⟩

/-! ## Pages after calls -/

/-- The page in memory that calls lead to. -/
def Capture.after (mime : Option Text) (calls : List Call) : Capture :=
  ⟨String.ofList (written calls), (lastMime? calls).or mime⟩

theorem Capture.run_after (mime : Option Text) (calls : List Call) (call : Call) :
    call.run (after mime calls) = .ok () (after mime (calls ++ [call])) := by
  cases call with
  | write s =>
    change EStateM.Result.ok () (⟨String.ofList (written calls) ++ String.ofList s,
      (lastMime? calls).or mime⟩ : Capture) = _
    simp [after, written, lastMime?, Call.text, Call.mime?]
  | setMimeType s =>
    change EStateM.Result.ok () (⟨String.ofList (written calls), some s⟩ : Capture) = _
    simp [after, written, lastMime?, Call.text, Call.mime?]

/-- The response without a header that calls lead to if no media type comes late. -/
def Response.afterCalls (h : Header) (calls : List Call) : Response where
  header := { h with encoding := .utf8, mimeType := (lastMime? calls).getD h.mimeType }
  wantsHeader := false
  started := calls.any Call.isWrite
  sink := ⟨(Encoding.utf8.encode (written calls)).toArray, none⟩

theorem data_toUTF8_ofList (s : Text) :
    (String.ofList s).toUTF8.data = (Encoding.utf8.encode s).toArray :=
  List.data_toByteArray

theorem Response.run_afterCalls_of_isWrite (h : Header) (calls : List Call) {call : Call}
    (hcall : call.isWrite = true) :
    call.run (afterCalls h calls) = .ok () (afterCalls h (calls ++ [call])) := by
  cases call with
  | setMimeType s => cases hcall
  | write s =>
    change writeBytes (Encoding.utf8.encode s) (afterCalls h calls) = _
    rw [writeBytes_of_room rfl]
    simp [afterCalls, Encoding.encode_append, written, lastMime?, Call.text, Call.mime?,
      Call.isWrite]

theorem Response.run_afterCalls_setMimeType (h : Header) (calls : List Call) (s : Text) :
    (Call.setMimeType s).run (afterCalls h calls) =
      if calls.any Call.isWrite then .error (.headerSent .mimeType) (afterCalls h calls)
      else .ok () (afterCalls h (calls ++ [.setMimeType s])) := by
  change (if calls.any Call.isWrite then _ else _) = _
  simp [afterCalls, written, lastMime?, Call.text, Call.mime?, Call.isWrite]

/-! ## The two renders -/

def Journal.calls {ω : Type} (j : Journal ω) : List Call := j.entries.map (·.1)

/-- The calls of a render into memory, in order. -/
def Document.calls (turns : Nat) (d : Document) (c : Context Capture) : List Call :=
  (d.journal turns c).map (·.1)

theorem Journal.perform_capture (call : Call) (j : Journal Capture) :
    ∃ j', perform call j = .ok () j' ∧ j'.calls = j.calls ++ [call] := by
  obtain ⟨⟨output, mime⟩, entries⟩ := j
  cases call with
  | write s =>
    refine ⟨⟨⟨output ++ String.ofList s, mime⟩, entries ++ [(.write s, none)]⟩, rfl, ?_⟩
    exact List.map_append
  | setMimeType s =>
    refine ⟨⟨⟨output, some s⟩, entries ++ [(.setMimeType s, none)]⟩, rfl, ?_⟩
    exact List.map_append

/-- A page in memory and a response after the same calls; or the response has refused the first
media type that came late, and is left as it was. -/
def agreement (h : Header) : Lockstep ContextError (Journal Capture) Response where
  related j r := ¬ Late j.calls ∧ r = .afterCalls h j.calls
  stopped j e r := ∃ before s rest, j.calls = before ++ .setMimeType s :: rest ∧
    before.any Call.isWrite = true ∧ ¬ Late before ∧ e = .headerSent .mimeType ∧
    r = .afterCalls h before

theorem follows_agreement (h : Header) (call : Call) :
    (agreement h).Follows (Journal.perform call) call.run where
  along := by
    rintro j _ ⟨hlate, rfl⟩
    obtain ⟨j', hj, hcalls⟩ := Journal.perform_capture call j
    rw [hj]
    by_cases hrefused : call.isWrite = false ∧ j.calls.any Call.isWrite = true
    · cases call with
      | write s => cases hrefused.1
      | setMimeType s =>
        rw [Response.run_afterCalls_setMimeType, if_pos hrefused.2]
        exact .stopped ⟨j.calls, s, [], hcalls, hrefused.2, hlate, rfl, rfl⟩
    · have hnext : call.run (Response.afterCalls h j.calls) =
          .ok () (Response.afterCalls h j'.calls) := by
        rw [hcalls]
        cases call with
        | write s => exact Response.run_afterCalls_of_isWrite h j.calls rfl
        | setMimeType s =>
          rw [Response.run_afterCalls_setMimeType, if_neg fun hany => hrefused ⟨rfl, hany⟩]
      rw [hnext]
      refine .ok ⟨fun hlate' => ?_, rfl⟩
      rw [hcalls] at hlate'
      exact (late_append_singleton hlate').elim hlate hrefused
  stays := by
    rintro j e r ⟨before, s, rest, hsplit, hstop⟩
    obtain ⟨j', hj, hcalls⟩ := Journal.perform_capture call j
    rw [hj]
    refine ⟨before, s, rest ++ [call], ?_, hstop⟩
    change j'.calls = _
    rw [hcalls, hsplit, List.append_assoc, List.cons_append]

theorem page_of_render_capture (turns : Nat) (d : Document) (p : Parameters)
    (mime : Option Text) :
    (endState (d.render turns (⟨p, ⟨"", mime⟩⟩ : Context Capture))).page =
      Capture.after mime (d.calls turns ⟨p, ⟨"", mime⟩⟩) := by
  refine Document.journal_invariant
    (I := fun entries page => page = Capture.after mime (entries.map (·.1)))
    (fun call entries page h => ?_) turns d rfl
  rw [h, Capture.run_after, List.map_append]
  rfl

/-- How two renders in agreement end. -/
theorem ends_of_along {h : Header} {x₁ : EStateM.Result Halt (Context (Journal Capture)) Unit}
    {x₂ : EStateM.Result Halt (Context Response) Unit}
    (halong : ((agreement h).ofPages.ofErrors Halt.ofContext).Along x₁ x₂) :
    (¬ Late (endState x₁).page.calls ∧ failure? x₂ = failure? x₁ ∧
      (endState x₂).parameters = (endState x₁).parameters ∧
      (endState x₂).page = .afterCalls h (endState x₁).page.calls) ∨
    ∃ before s rest, (endState x₁).page.calls = before ++ .setMimeType s :: rest ∧
      before.any Call.isWrite = true ∧ ¬ Late before ∧
      failure? x₂ = some (.failed (.context (.headerSent .mimeType))) ∧
      (endState x₂).page = .afterCalls h before := by
  cases halong with
  | ok hr =>
    obtain ⟨hparams, hlate, hpage⟩ := hr
    exact .inl ⟨hlate, rfl, hparams.symm, hpage⟩
  | error hr =>
    obtain ⟨hparams, hlate, hpage⟩ := hr
    exact .inl ⟨hlate, rfl, hparams.symm, hpage⟩
  | stopped hs =>
    obtain ⟨_, rfl, before, s, rest, hsplit, hbefore, hlate, rfl, hpage⟩ := hs
    exact .inr ⟨before, s, rest, hsplit, hbefore, hlate, rfl, hpage⟩

/-- A render that is sent ends like the one into memory, unless a media type comes late. -/
theorem ends_of_render (turns : Nat) (d : Document) (p : Parameters) (mime : Option Text)
    (h : Header) :
    let capture : Context Capture := ⟨p, ⟨"", mime⟩⟩
    let response : Context Response := ⟨p, ⟨{ h with encoding := .utf8 }, false, false, .unlimited⟩⟩
    let captured := d.render turns capture
    let sent := d.render turns response
    (¬ Late (d.calls turns capture) ∧ failure? sent = failure? captured ∧
      (endState sent).parameters = (endState captured).parameters ∧
      (endState sent).page = .afterCalls h (d.calls turns capture)) ∨
    ∃ before s rest, d.calls turns capture = before ++ .setMimeType s :: rest ∧
      before.any Call.isWrite = true ∧ ¬ Late before ∧
      failure? sent = some (.failed (.context (.headerSent .mimeType))) ∧
      (endState sent).page = .afterCalls h before := by
  intro capture response captured sent
  have hempty : ¬ Late [] := fun ⟨before, s, rest, hsplit, _⟩ => by simp at hsplit
  have hserves : (agreement h).ofPages.Serves d.builtins :=
    Lockstep.serves_ofPages (fun s => follows_agreement h (.write s))
      (fun s => follows_agreement h (.setMimeType s)) _
  have hends := ends_of_along <|
    (Lockstep.follows_render d hserves turns).along capture.withJournal response ⟨rfl, hempty, rfl⟩
  -- what the journaled render tells about the parameters and the failure holds without it
  have hjournal : captured = mapResult (fun a _ => a) id Context.erase
      (d.render turns capture.withJournal) := Document.render_eq_withJournal turns d capture
  have hfailure : failure? captured = failure? (d.render turns capture.withJournal) := by
    rw [hjournal, failure?_mapResult, Option.map_id, id]
  have hparams : (endState captured).parameters =
      (endState (d.render turns capture.withJournal)).parameters := by
    rw [hjournal, endState_mapResult]
    rfl
  rw [← hfailure, ← hparams] at hends
  exact hends

/-- The two contexts agree. If no media type is set after a write, a response without a header
that is encoded in UTF-8 ends like the page in memory, with the same parameters and media type,
and the bytes sent are those of the output. Otherwise the response refuses the first media type
that is set after a write, and what is sent is what was written before. -/
theorem render_agree (turns : Nat) (d : Document) (p : Parameters) (mime : Option Text)
    (h : Header) :
    let capture : Context Capture := ⟨p, ⟨"", mime⟩⟩
    let response : Context Response := ⟨p, ⟨{ h with encoding := .utf8 }, false, false, .unlimited⟩⟩
    let calls := d.calls turns capture
    let captured := endState (d.render turns capture)
    let sent := endState (d.render turns response)
    captured.page = ⟨String.ofList (written calls), (lastMime? calls).or mime⟩ ∧
    (¬ Late calls →
      failure? (d.render turns response) = failure? (d.render turns capture) ∧
      sent.parameters = captured.parameters ∧
      sent.page.sink.bytes = captured.page.output.toUTF8.data ∧
      sent.page.header =
        { h with encoding := .utf8, mimeType := (lastMime? calls).getD h.mimeType }) ∧
    (Late calls → ∃ before s rest, calls = before ++ .setMimeType s :: rest ∧
      before.any Call.isWrite = true ∧ ¬ Late before ∧
      failure? (d.render turns response) = some (.failed (.context (.headerSent .mimeType))) ∧
      sent.page.sink.bytes = (String.ofList (written before)).toUTF8.data) := by
  intro capture response calls captured sent
  have hcaptured : captured.page = Capture.after mime calls :=
    page_of_render_capture turns d p mime
  refine ⟨hcaptured, fun hlate => ?_, fun hlate => ?_⟩
  · rcases ends_of_render turns d p mime h with
      ⟨-, hsame, hkept, hpage⟩ | ⟨before, s, rest, hsplit, hbefore, -⟩
    · have hsent : sent.page = .afterCalls h calls := hpage
      rw [hsent, hcaptured]
      exact ⟨hsame, hkept, (data_toUTF8_ofList _).symm, rfl⟩
    · exact absurd ⟨before, s, rest, hsplit, hbefore⟩ hlate
  · rcases ends_of_render turns d p mime h with
      ⟨hnot, -⟩ | ⟨before, s, rest, hsplit, hbefore, hnot, hrefused, hpage⟩
    · exact absurd hlate hnot
    · have hsent : sent.page = .afterCalls h before := hpage
      rw [hsent]
      exact ⟨before, s, rest, hsplit, hbefore, hnot, hrefused, (data_toUTF8_ofList _).symm⟩

/-- A media type is late even if what was written is empty. -/
example (turns : Nat) (c : Context Capture) :
    (Document.text [] (.echo [.operand (.const (.str "a/b".toList)), .fn "setMimeType".toList]
      .nil)).calls turns c = [.write [], .setMimeType "a/b".toList] := by
  rfl

end PageTemplate
