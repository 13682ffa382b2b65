import PageTemplate.Program
import PageTemplate.Proofs.Response.Agreement

/-! Responses on a sink with little room. Up to the first byte that does not fit, a page is sent
as if there were room for all of it; that write fails, and nothing is sent after it. So the sink
holds the beginning of what would have been sent. -/
namespace PageTemplate

/-! ## Sinks -/

namespace Sink

/-- A sink with room for `limit` bytes in all, after `bytes` have been written to it. -/
def offered (limit : Nat) (bytes : List UInt8) : Sink :=
  ⟨(bytes.take limit).toArray, some (limit - bytes.length)⟩

variable {limit : Nat} {bytes : List UInt8}

theorem offered_nil (limit : Nat) : offered limit [] = limited limit := by
  simp [offered, limited]

/-- A write succeeds just if there is room for all that is written. -/
theorem write_offered (h : bytes.length ≤ limit) (data : List UInt8) :
    write data (offered limit bytes) =
      (decide ((bytes ++ data).length ≤ limit), offered limit (bytes ++ data)) := by
  have hlength : (bytes ++ data).length = bytes.length + data.length := List.length_append
  have hfits : data.length ≤ limit - bytes.length ↔ (bytes ++ data).length ≤ limit := by omega
  have hroom : limit - bytes.length - data.length = limit - (bytes ++ data).length := by omega
  have htake : (bytes.take limit).toArray ++ data.take (limit - bytes.length) =
      ((bytes ++ data).take limit).toArray := by
    apply Array.ext'
    simp [List.take_append, List.take_of_length_le h]
  show (decide (data.length ≤ limit - bytes.length), (⟨_, some _⟩ : Sink)) = _
  rw [decide_eq_decide.2 hfits, htake, hroom]
  rfl

/-- What is written to a full sink is lost. -/
theorem offered_append (h : limit ≤ bytes.length) (data : List UInt8) :
    offered limit (bytes ++ data) = offered limit bytes := by
  have hlength : (bytes ++ data).length = bytes.length + data.length := List.length_append
  have hroom : limit - (bytes ++ data).length = limit - bytes.length := by omega
  rw [offered, List.take_append_of_le_length h, hroom]
  rfl

end Sink

/-! ## Writes -/

namespace Response

/-- The bytes of the header; there are none if it is left out. -/
def headerBytes (r : Response) : List UInt8 := if r.wantsHeader then r.header.bytes else []

/-- All that has been sent. -/
def output (r : Response) : List UInt8 := r.sink.bytes.toList

/-- A response after a write for which there was room. The first write sends the header too. -/
def wrote (r : Response) (data : List UInt8) : Response :=
  { r with started := true
           sink := ⟨(r.output ++ (if r.started then [] else r.headerBytes) ++ data).toArray, none⟩ }

/-- The same response on a sink with room for `limit` bytes. It has not started if there is no
room for the header. -/
def cut (limit : Nat) (r : Response) : Response :=
  { r with started := r.started && decide (r.headerBytes.length ≤ limit)
           sink := .offered limit r.output }

/-- A response on a sink that takes everything. What is sent begins with the header. -/
structure Unbounded (r : Response) : Prop where
  room : r.sink.room = none
  waiting : r.started = false → r.output = []
  header : r.started = true → r.headerBytes.length ≤ r.output.length

variable {r : Response} {limit : Nat}

@[simp] theorem output_wrote (r : Response) (data : List UInt8) :
    (r.wrote data).output = r.output ++ (if r.started then [] else r.headerBytes) ++ data := rfl

theorem Unbounded.writeBytes (h : r.Unbounded) (data : List UInt8) :
    writeBytes data r = .ok () (r.wrote data) := by
  rw [writeBytes_of_room h.room]
  have hbytes : r.sink.bytes ++
      ((if !r.started && r.wantsHeader then r.header.bytes else []) ++ data) =
      (r.output ++ (if r.started then [] else r.headerBytes) ++ data).toArray := by
    apply Array.ext'
    unfold output headerBytes
    cases r.started <;> cases r.wantsHeader <;> simp
  rw [hbytes]
  rfl

theorem Unbounded.wrote (h : r.Unbounded) (data : List UInt8) : (r.wrote data).Unbounded where
  room := rfl
  waiting := fun hstarted => nomatch hstarted
  header := fun _ => by
    show r.headerBytes.length ≤ _
    rw [output_wrote, List.length_append, List.length_append]
    cases hstarted : r.started with
    | true =>
      have hheader := h.header hstarted
      omega
    | false =>
      simp only [Bool.false_eq_true, if_false]
      omega

/-- A response that has sent something has started. -/
theorem Unbounded.started (h : r.Unbounded) (hfull : limit < r.output.length) :
    r.started = true := by
  cases hstarted : r.started with
  | true => rfl
  | false =>
    rw [h.waiting hstarted] at hfull
    exact absurd hfull (Nat.not_lt_zero limit)

/-- A full sink takes nothing more. -/
theorem Unbounded.cut_wrote (h : r.Unbounded) (hfull : limit < r.output.length)
    (data : List UInt8) : (r.wrote data).cut limit = r.cut limit := by
  have hstarted := h.started hfull
  have houtput : (r.wrote data).output = r.output ++ data := by
    rw [output_wrote, hstarted, if_pos rfl, List.append_nil]
  unfold cut
  rw [houtput, Sink.offered_append hfull.le, hstarted]
  rfl

/-! ## Writes with little room -/

section Little

variable {header : Header} {wantsHeader started : Bool} {bytes : List UInt8}

theorem send_offered (h : bytes.length ≤ limit) (data : List UInt8) :
    send data ⟨header, wantsHeader, started, .offered limit bytes⟩ =
      if (bytes ++ data).length ≤ limit then
        .ok () ⟨header, wantsHeader, started, .offered limit (bytes ++ data)⟩
      else .error .sinkFull ⟨header, wantsHeader, started, .offered limit (bytes ++ data)⟩ := by
  unfold send
  dsimp only
  rw [Sink.write_offered h]
  by_cases hfits : (bytes ++ data).length ≤ limit
  · rw [if_pos hfits, decide_eq_true hfits]
  · rw [if_neg hfits, decide_eq_false hfits]

theorem start_of_started (h : r.started = true) : start r = .ok () r := by
  cases r
  cases h
  rfl

/-- The header is sent before all else, and may be too long already. -/
theorem start_offered (hwaiting : r.started = false) (hsink : r.sink = .offered limit []) :
    start r = if r.headerBytes.length ≤ limit then
        .ok () { r with started := true, sink := .offered limit r.headerBytes }
      else .error .sinkFull { r with sink := .offered limit r.headerBytes } := by
  obtain ⟨header, wantsHeader, started, sink⟩ := r
  obtain rfl : started = false := hwaiting
  obtain rfl : sink = .offered limit [] := hsink
  cases wantsHeader with
  | false => rfl
  | true =>
    have hnone : ([] : List UInt8).length ≤ limit := Nat.zero_le limit
    have hsend : send header.bytes ⟨header, true, false, .offered limit []⟩ = _ :=
      send_offered hnone header.bytes
    rw [List.nil_append] at hsend
    show (send header.bytes >>= fun _ => modify fun r => { r with started := true }) _ = _
    by_cases hfits : header.bytes.length ≤ limit
    · rw [if_pos hfits] at hsend
      rw [bind_of_ok hsend]
      exact (if_pos hfits).symm
    · rw [if_neg hfits] at hsend
      rw [bind_of_error hsend]
      exact (if_neg hfits).symm

end Little

namespace Unbounded

theorem writeBytes_cut_of_started (h : r.Unbounded) (hsize : r.output.length ≤ limit)
    (hstarted : r.started = true) (data : List UInt8) :
    Response.writeBytes data (r.cut limit) =
      if (r.wrote data).output.length ≤ limit then .ok () ((r.wrote data).cut limit)
      else .error .sinkFull ((r.wrote data).cut limit) := by
  have hheader : r.headerBytes.length ≤ limit := (h.header hstarted).trans hsize
  have hcut : r.cut limit = ⟨r.header, r.wantsHeader, true, .offered limit r.output⟩ := by
    rw [cut, hstarted, decide_eq_true hheader]
    rfl
  have hwrote : (r.wrote data).cut limit =
      ⟨r.header, r.wantsHeader, true, .offered limit (r.output ++ data)⟩ := by
    show (⟨r.header, r.wantsHeader, decide (r.headerBytes.length ≤ limit),
      .offered limit (r.wrote data).output⟩ : Response) = _
    rw [decide_eq_true hheader, output_wrote, hstarted, if_pos rfl, List.append_nil]
  show (start >>= fun _ => send data) (r.cut limit) = _
  rw [hcut, bind_of_ok (start_of_started rfl), send_offered hsize, hwrote, output_wrote, hstarted,
    if_pos rfl, List.append_nil]

theorem writeBytes_cut_of_waiting (h : r.Unbounded) (hwaiting : r.started = false)
    (data : List UInt8) :
    Response.writeBytes data (r.cut limit) =
      if (r.wrote data).output.length ≤ limit then .ok () ((r.wrote data).cut limit)
      else .error .sinkFull ((r.wrote data).cut limit) := by
  have hcut : r.cut limit = ⟨r.header, r.wantsHeader, false, .offered limit []⟩ := by
    rw [cut, hwaiting, h.waiting hwaiting]
    rfl
  have houtput : (r.wrote data).output = r.headerBytes ++ data := by
    rw [output_wrote, h.waiting hwaiting, hwaiting]
    rfl
  have hwrote : (r.wrote data).cut limit = ⟨r.header, r.wantsHeader,
      decide (r.headerBytes.length ≤ limit), .offered limit (r.headerBytes ++ data)⟩ := by
    rw [← houtput]
    rfl
  have hstart : start (r.cut limit) = _ := start_offered (by rw [hcut]) (by rw [hcut])
  show (start >>= fun _ => send data) (r.cut limit) = _
  rw [hwrote, houtput]
  by_cases hheader : r.headerBytes.length ≤ limit
  · rw [if_pos (by exact hheader)] at hstart
    rw [bind_of_ok hstart, hcut, decide_eq_true hheader]
    exact send_offered hheader data
  · have hfull : limit ≤ r.headerBytes.length := by omega
    have hdata : ¬(r.headerBytes ++ data).length ≤ limit := by
      rw [List.length_append]
      omega
    rw [if_neg (by exact hheader)] at hstart
    rw [bind_of_error hstart, if_neg hdata, hcut, decide_eq_false hheader,
      Sink.offered_append hfull]
    rfl

/-- A write with little room leaves what a write with all the room leaves, cut to the limit. -/
theorem writeBytes_cut (h : r.Unbounded) (hsize : r.output.length ≤ limit)
    (data : List UInt8) :
    Response.writeBytes data (r.cut limit) =
      if (r.wrote data).output.length ≤ limit then .ok () ((r.wrote data).cut limit)
      else .error .sinkFull ((r.wrote data).cut limit) := by
  cases hstarted : r.started with
  | true => exact h.writeBytes_cut_of_started hsize hstarted data
  | false => exact h.writeBytes_cut_of_waiting hstarted data

end Unbounded

end Response

/-! ## Calls -/

/-- What a header says when the first of some calls that writes comes, or after all of them if
none writes. -/
def Header.atStart (h : Header) (calls : List Call) : Header :=
  { h with mimeType := (lastMime? (calls.takeWhile fun c => !c.isWrite)).getD h.mimeType }

section AtStart

variable {calls : List Call}

theorem takeWhile_append_of_wrote (hwrote : calls.any Call.isWrite = true) (more : List Call) :
    (calls ++ more).takeWhile (fun c => !c.isWrite) = calls.takeWhile fun c => !c.isWrite := by
  induction calls with
  | nil => cases hwrote
  | cons c calls ih =>
    cases hc : c.isWrite with
    | true => simp [hc]
    | false =>
      rw [List.any_cons, hc, Bool.false_or] at hwrote
      simp [hc, ih hwrote]

theorem takeWhile_append_of_waiting (hwaiting : calls.any Call.isWrite = false)
    (more : List Call) :
    (calls ++ more).takeWhile (fun c => !c.isWrite) =
      calls ++ more.takeWhile fun c => !c.isWrite := by
  refine List.takeWhile_append_of_pos fun c hc => ?_
  simpa using List.any_eq_false.1 hwaiting c hc

variable (h : Header)

theorem Header.atStart_append_of_wrote (hwrote : calls.any Call.isWrite = true)
    (more : List Call) : h.atStart (calls ++ more) = h.atStart calls := by
  rw [atStart, takeWhile_append_of_wrote hwrote]
  rfl

theorem Header.atStart_write (calls : List Call) (s : Text) :
    h.atStart (calls ++ [.write s]) = h.atStart calls := by
  cases hwrote : calls.any Call.isWrite with
  | true => exact h.atStart_append_of_wrote hwrote _
  | false =>
    have hnil := takeWhile_append_of_waiting hwrote []
    rw [atStart, takeWhile_append_of_waiting hwrote]
    rw [List.append_nil] at hnil
    rw [atStart, hnil]
    rfl

theorem Header.atStart_setMimeType (hwaiting : calls.any Call.isWrite = false) (s : Text) :
    h.atStart (calls ++ [.setMimeType s]) = { h.atStart calls with mimeType := s } := by
  rw [atStart, takeWhile_append_of_waiting hwaiting]
  simp [atStart, lastMime?, Call.mime?, Call.isWrite]

end AtStart

/-- What a response on a sink with little room has to do, after some calls, with the same response
on a sink that takes everything. -/
structure Shortened (h : Header) (wantsHeader : Bool) (limit : Nat) (r t : Response)
    (calls : List Call) : Prop where
  unbounded : r.Unbounded
  wantsHeader : r.wantsHeader = wantsHeader
  page : t = r.cut limit
  started : r.started = calls.any Call.isWrite
  header : r.header = h.atStart calls

namespace Shortened

variable {h : Header} {wantsHeader : Bool} {limit : Nat} {r t : Response} {calls : List Call}

theorem wrote (hr : Shortened h wantsHeader limit r t calls) (s : Text) (data : List UInt8) :
    Shortened h wantsHeader limit (r.wrote data) ((r.wrote data).cut limit)
      (calls ++ [.write s]) where
  unbounded := hr.unbounded.wrote data
  wantsHeader := hr.wantsHeader
  page := rfl
  started := by
    show true = _
    simp [Call.isWrite]
  header := by
    rw [Header.atStart_write]
    exact hr.header

/-- As long as all fits, the two have both started or neither has. -/
theorem started_eq (hr : Shortened h wantsHeader limit r t calls)
    (hsize : r.output.length ≤ limit) : t.started = r.started := by
  rw [hr.page]
  show (r.started && decide (r.headerBytes.length ≤ limit)) = r.started
  cases hstarted : r.started with
  | true =>
    rw [decide_eq_true ((hr.unbounded.header hstarted).trans hsize)]
    rfl
  | false => rfl

/-- A media type that is refused changes nothing. -/
theorem refused (hr : Shortened h wantsHeader limit r t calls) (hstarted : r.started = true)
    (s : Text) : Shortened h wantsHeader limit r t (calls ++ [.setMimeType s]) where
  unbounded := hr.unbounded
  wantsHeader := hr.wantsHeader
  page := hr.page
  started := by
    rw [List.any_append, ← hr.started, hstarted, Bool.true_or]
  header := by
    rw [Header.atStart_append_of_wrote _ (hr.started.symm.trans hstarted)]
    exact hr.header

theorem setMimeType (hr : Shortened h wantsHeader limit r t calls)
    (hwaiting : r.started = false) (s : Text) :
    Shortened h wantsHeader limit { r with header := { r.header with mimeType := s } }
      { t with header := { t.header with mimeType := s } } (calls ++ [.setMimeType s]) where
  unbounded := ⟨hr.unbounded.room, hr.unbounded.waiting, fun hstarted => by
    rw [show r.started = true from hstarted] at hwaiting
    cases hwaiting⟩
  wantsHeader := hr.wantsHeader
  page := by
    rw [hr.page, Response.cut, Response.cut, hwaiting]
    rfl
  started := by
    rw [List.any_append, ← hr.started, hwaiting]
    rfl
  header := by
    rw [Header.atStart_setMimeType _ (hr.started.symm.trans hwaiting), ← hr.header]

/-- A full sink takes nothing of a write. -/
theorem wrote_of_full (hr : Shortened h wantsHeader limit r t calls)
    (hfull : limit < r.output.length) (data : List UInt8) :
    Shortened h wantsHeader limit (r.wrote data) t calls where
  unbounded := hr.unbounded.wrote data
  wantsHeader := hr.wantsHeader
  page := hr.page.trans (hr.unbounded.cut_wrote hfull data).symm
  started := (hr.unbounded.started hfull).symm.trans hr.started
  header := hr.header

end Shortened

/-! ## Renders -/

theorem Journal.perform_eq {ω : Type} [Page ω] (call : Call) (j : Journal ω) :
    perform call j = mapResult (fun a _ => a) id
      (fun page => ⟨page, j.entries ++ [(call, failure? (call.run j.page))]⟩)
      (call.run j.page) := by
  obtain ⟨page, entries⟩ := j
  unfold perform
  dsimp only
  cases call.run page <;> rfl

theorem Journal.calls_append {ω : Type} (page : ω) (j : Journal ω) (call : Call)
    (e : Option ContextError) :
    (⟨page, j.entries ++ [(call, e)]⟩ : Journal ω).calls = j.calls ++ [call] :=
  List.map_append

/-- A response on a sink that takes everything and one on a sink with little room; the second
stops at the first write that does not fit. -/
def truncation (h : Header) (wantsHeader : Bool) (limit : Nat) :
    Lockstep ContextError Response (Journal Response) where
  related r j := r.output.length ≤ limit ∧ Shortened h wantsHeader limit r j.page j.calls
  stopped r e j :=
    limit < r.output.length ∧ e = .sinkFull ∧ Shortened h wantsHeader limit r j.page j.calls

section Truncation

variable {h : Header} {wantsHeader : Bool} {limit : Nat}

theorem follows_write_truncation (s : Text) :
    (truncation h wantsHeader limit).Follows (Page.write s) (Journal.perform (.write s)) where
  along r j hr := by
    obtain ⟨hsize, hr⟩ := hr
    have hshort := hr.wrote s (r.header.encoding.encode s)
    have hfull : (Page.write s : EStateM _ Response Unit) r = .ok () (r.wrote _) :=
      hr.unbounded.writeBytes (r.header.encoding.encode s)
    have hcut := hr.unbounded.writeBytes_cut hsize (r.header.encoding.encode s)
    have hrun : (Call.write s).run j.page =
        Response.writeBytes (r.header.encoding.encode s) (r.cut limit) := by
      rw [hr.page]
      rfl
    rw [Journal.perform_eq, hfull, hrun]
    by_cases hfits : (r.wrote (r.header.encoding.encode s)).output.length ≤ limit
    · rw [if_pos hfits] at hcut
      rw [hcut]
      refine .ok ⟨hfits, ?_⟩
      rw [Journal.calls_append]
      exact hshort
    · rw [if_neg hfits] at hcut
      rw [hcut]
      refine .stopped ⟨Nat.lt_of_not_le hfits, rfl, ?_⟩
      rw [Journal.calls_append]
      exact hshort
  stays r e j hr := by
    obtain ⟨hfull, he, hr⟩ := hr
    have hwrite : (Page.write s : EStateM _ Response Unit) r = .ok () (r.wrote _) :=
      hr.unbounded.writeBytes (r.header.encoding.encode s)
    rw [hwrite]
    refine ⟨?_, he, hr.wrote_of_full hfull _⟩
    show limit < (r.wrote _).output.length
    rw [Response.output_wrote, List.append_assoc, List.length_append]
    omega

theorem follows_setMimeType_truncation (s : Text) :
    (truncation h wantsHeader limit).Follows (Page.setMimeType s)
      (Journal.perform (.setMimeType s)) where
  along r j hr := by
    obtain ⟨hsize, hr⟩ := hr
    have hfull : (Page.setMimeType s : EStateM _ Response Unit) r =
        if r.started then .error (.headerSent .mimeType) r
        else .ok () { r with header := { r.header with mimeType := s } } := rfl
    have hcut : (Call.setMimeType s).run j.page =
        if j.page.started then .error (.headerSent .mimeType) j.page
        else .ok () { j.page with header := { j.page.header with mimeType := s } } := rfl
    rw [Journal.perform_eq, hfull, hcut, hr.started_eq hsize]
    by_cases hstarted : r.started = true
    · rw [if_pos hstarted, if_pos hstarted]
      refine .error ⟨hsize, ?_⟩
      rw [Journal.calls_append]
      exact hr.refused hstarted s
    · rw [if_neg hstarted, if_neg hstarted]
      refine .ok ⟨hsize, ?_⟩
      rw [Journal.calls_append]
      exact hr.setMimeType (Bool.eq_false_iff.2 hstarted) s
  stays r e j hr := by
    obtain ⟨hfull, he, hr⟩ := hr
    have hrefused : (Page.setMimeType s : EStateM _ Response Unit) r = .error _ r :=
      if_pos (hr.unbounded.started hfull)
    rw [hrefused]
    exact ⟨hfull, he, hr⟩

end Truncation

theorem shortened_new (h : Header) (wantsHeader : Bool) (limit : Nat) :
    Shortened h wantsHeader limit ⟨h, wantsHeader, false, .unlimited⟩
      ⟨h, wantsHeader, false, .limited limit⟩ [] where
  unbounded := ⟨rfl, fun _ => rfl, fun hstarted => nomatch hstarted⟩
  wantsHeader := rfl
  page := by
    rw [← Sink.offered_nil]
    rfl
  started := rfl
  header := rfl

/-- How a run on a sink with little room ends: like the one with all the room, or with an error
for what does not fit. -/
def EndsWithin {ε : Type} (limit : Nat) (full : ε)
    (x y : EStateM.Result ε (Context Response) Unit) : Prop :=
  ((endState x).page.output.length ≤ limit ∧ failure? y = failure? x ∧
    (endState y).parameters = (endState x).parameters) ∨
  (limit < (endState x).page.output.length ∧ failure? y = some full)

theorem ends_of_render_limited (turns : Nat) (d : Document) (p : Parameters) (h : Header)
    (wantsHeader : Bool) (limit : Nat) :
    let start : Context Response := ⟨p, ⟨h, wantsHeader, false, .limited limit⟩⟩
    let full := d.render turns ⟨p, ⟨h, wantsHeader, false, .unlimited⟩⟩
    let short := d.render turns start
    Shortened h wantsHeader limit (endState full).page (endState short).page
      ((d.journal turns start).map (·.1)) ∧
    EndsWithin limit (.failed (.context .sinkFull)) full short := by
  intro start full short
  have hserves : (truncation h wantsHeader limit).ofPages.Serves d.builtins :=
    Lockstep.serves_ofPages follows_write_truncation follows_setMimeType_truncation _
  have halong := (Lockstep.follows_render d hserves turns).along
    ⟨p, ⟨h, wantsHeader, false, .unlimited⟩⟩ start.withJournal
    ⟨rfl, Nat.zero_le limit, shortened_new h wantsHeader limit⟩
  have hjournal : short = mapResult (fun a _ => a) id Context.erase
      (d.render turns start.withJournal) := Document.render_eq_withJournal turns d start
  have hcalls : (d.journal turns start).map (·.1) =
      (endState (d.render turns start.withJournal)).page.calls := rfl
  rw [EndsWithin, hjournal, hcalls, endState_mapResult, failure?_mapResult]
  change Lockstep.Along _ full _ at halong
  generalize full = x at halong ⊢
  generalize d.render turns start.withJournal = y at halong ⊢
  cases halong with
  | ok hr => exact ⟨hr.2.2, .inl ⟨hr.2.1, rfl, hr.1.symm⟩⟩
  | error hr => exact ⟨hr.2.2, .inl ⟨hr.2.1, rfl, hr.1.symm⟩⟩
  | stopped hs =>
    obtain ⟨_, rfl, hfull, rfl, hr⟩ := hs
    exact ⟨hr, .inr ⟨hfull, rfl⟩⟩

/-- A sink that takes everything never fails. -/
theorem unbounded_render (turns : Nat) (d : Document) (p : Parameters) (h : Header)
    (wantsHeader : Bool) :
    let start : Context Response := ⟨p, ⟨h, wantsHeader, false, .unlimited⟩⟩
    (endState (d.render turns start)).page.Unbounded :=
  (ends_of_render_limited turns d p h wantsHeader 0).1.unbounded

/-! ## Pages that are served -/

/-- What follows a render: an empty write, if it has come to its end. -/
def close : EStateM.Result Halt (Context Response) Unit →
    EStateM.Result TemplateHalt (Context Response) Unit
  | .ok _ c => mapResult (fun a _ => a) (fun e => .failed (.context e))
      (fun page => ⟨c.parameters, page⟩) (Response.writeBytes [] c.page)
  | .error e c => .error (.ofHalt e) c

theorem finish_eq (c : Context Response) : finish c = close (.ok () c) := by
  unfold finish
  rw [Context.onPage_eq]
  dsimp only [close]
  cases Response.writeBytes [] c.page <;> rfl

theorem serve_eq (turns : Nat) (d : Document) (c : Context Response) :
    serve turns d c = close (d.render turns c) := by
  change EStateM.bind (renderTemplate turns d) (fun _ => finish) c = _
  unfold EStateM.bind renderTemplate
  cases d.render turns c with
  | ok a c' => exact finish_eq c'
  | error e c' => rfl

/-- A source that can be read is rendered as its document, and a page that is served is such a
render with its end. -/
theorem serve_of_parse {source : Text} {d : Document} (turns : Nat) (h : parse source = .ok d) :
    serve turns d = (do renderSource turns source; finish) := by
  unfold serve renderSource
  rw [h]

/-- A source that cannot be read leaves the context alone. -/
theorem renderSource_of_error {ω : Type} [Page ω] {source : Text} {e : ParseError} (turns : Nat)
    (h : parse source = .error e) (c : Context ω) :
    renderSource turns source c = .error (.failed (.parse e)) c := by
  unfold renderSource
  rw [h]
  rfl

/-- The calls of a render that is followed by an empty write if it has come to its end. -/
def closeCalls (x : EStateM.Result Halt (Context Response) Unit) (calls : List Call) : List Call :=
  calls ++ if failure? x = none then [.write []] else []

/-- The error of a page that does not fit, in the render or in the empty write after it. -/
def fullError (x : EStateM.Result Halt (Context Response) Unit) : TemplateHalt :=
  .failed (if failure? x = none then .context .sinkFull else .render (.context .sinkFull))

theorem close_of_unbounded {c : Context Response} (h : c.page.Unbounded) (a : Unit) :
    close (.ok a c) = .ok () ⟨c.parameters, c.page.wrote []⟩ := by
  rw [close, h.writeBytes]
  rfl

/-- What is sent never gets shorter. -/
theorem Response.length_output_le (r : Response) (data : List UInt8) :
    r.output.length ≤ (r.wrote data).output.length := by
  rw [output_wrote, List.append_assoc, List.length_append]
  omega

section Close

variable {h : Header} {wantsHeader : Bool} {limit : Nat} {calls : List Call}

/-- A render that fits is followed by an empty write that may not fit. -/
theorem ends_of_close_ok {c c' : Context Response}
    (hr : Shortened h wantsHeader limit c.page c'.page calls)
    (hsize : c.page.output.length ≤ limit) (hparams : c'.parameters = c.parameters) :
    let x := close (.ok () c)
    let y := close (.ok () c')
    Shortened h wantsHeader limit (endState x).page (endState y).page (calls ++ [.write []]) ∧
      EndsWithin limit (.failed (.context .sinkFull)) x y := by
  intro x y
  have hx : x = .ok () ⟨c.parameters, c.page.wrote []⟩ := close_of_unbounded hr.unbounded ()
  have hy : y = mapResult (fun a _ => a) (fun e => .failed (.context e))
      (fun page => (⟨c'.parameters, page⟩ : Context Response)) (Response.writeBytes [] c'.page) :=
    rfl
  rw [hr.page, hr.unbounded.writeBytes_cut hsize] at hy
  by_cases hfits : (c.page.wrote []).output.length ≤ limit
  · rw [if_pos hfits] at hy
    rw [hx, hy]
    exact ⟨hr.wrote [] [], .inl ⟨hfits, rfl, hparams⟩⟩
  · rw [if_neg hfits] at hy
    rw [hx, hy]
    exact ⟨hr.wrote [] [], .inr ⟨Nat.lt_of_not_le hfits, rfl⟩⟩

/-- Once the sink is full, an empty write after the render with all the room makes no
difference. -/
theorem ends_of_close_full {x : EStateM.Result Halt (Context Response) Unit} {c' : Context Response}
    (hr : Shortened h wantsHeader limit (endState x).page c'.page calls)
    (hfull : limit < (endState x).page.output.length) :
    let y := close (.error (.failed (.context .sinkFull)) c')
    Shortened h wantsHeader limit (endState (close x)).page (endState y).page calls ∧
      EndsWithin limit (.failed (.render (.context .sinkFull))) (close x) y := by
  intro y
  cases x with
  | ok a c =>
    have hclose : close (.ok a c) = .ok () ⟨c.parameters, c.page.wrote []⟩ :=
      close_of_unbounded hr.unbounded a
    rw [hclose]
    exact ⟨hr.wrote_of_full hfull [], .inr ⟨hfull.trans_le (c.page.length_output_le []), rfl⟩⟩
  | error e c => exact ⟨hr, .inr ⟨hfull, rfl⟩⟩

theorem ends_of_close {x y : EStateM.Result Halt (Context Response) Unit}
    (hr : Shortened h wantsHeader limit (endState x).page (endState y).page calls)
    (hends : EndsWithin limit (.failed (.context .sinkFull)) x y) :
    Shortened h wantsHeader limit (endState (close x)).page (endState (close y)).page
      (closeCalls y calls) ∧
    EndsWithin limit (fullError y) (close x) (close y) := by
  have herror : ∀ (e : Halt) (c : Context Response),
      closeCalls (.error e c) calls = calls := fun _ _ => List.append_nil calls
  rcases hends with ⟨hsize, hsame, hparams⟩ | ⟨hfull, hfailed⟩
  · cases x with
    | ok a c =>
      cases y with
      | ok b c' => exact ends_of_close_ok hr hsize hparams
      | error e c' => cases hsame
    | error e c =>
      cases y with
      | ok b c' => cases hsame
      | error e' c' =>
        cases hsame
        rw [herror]
        exact ⟨hr, .inl ⟨hsize, rfl, hparams⟩⟩
  · cases y with
    | ok b c' => cases hfailed
    | error e c' =>
      cases hfailed
      rw [herror]
      exact ends_of_close_full hr hfull

end Close

/-- A full sink only truncates. On a sink with room for `limit` bytes a page is the beginning of
what it is on a sink that takes everything. If all of it fits, it ends like that one, and else with
the error of a full sink. It has started just if something was written, be it empty, and the header
that was to come before it fits. -/
theorem serve_limited (turns : Nat) (d : Document) (p : Parameters) (h : Header)
    (wantsHeader : Bool) (limit : Nat) :
    let start : Context Response := ⟨p, ⟨h, wantsHeader, false, .limited limit⟩⟩
    let full := serve turns d ⟨p, ⟨h, wantsHeader, false, .unlimited⟩⟩
    let short := serve turns d start
    let bytes := (endState full).page.sink.bytes.toList
    let calls := closeCalls (d.render turns start) ((d.journal turns start).map (·.1))
    (endState short).page.sink.bytes.toList = bytes.take (min limit bytes.length) ∧
    (bytes.length ≤ limit → failure? short = failure? full ∧
      (endState short).parameters = (endState full).parameters) ∧
    (limit < bytes.length → failure? short = some (fullError (d.render turns start))) ∧
    ContextError.sinkFull.message = "failed to write whole buffer" ∧
    ((endState short).page.started = true ↔ calls.any Call.isWrite = true ∧
      (wantsHeader = true → (h.atStart calls).bytes.length ≤ limit)) := by
  intro start full short bytes calls
  obtain ⟨hr, hends⟩ := ends_of_render_limited turns d p h wantsHeader limit
  obtain ⟨hr, hends⟩ := ends_of_close hr hends
  rw [← serve_eq, ← serve_eq] at hr hends
  refine ⟨?_, fun hsize => ?_, fun hfull => ?_, rfl, ?_⟩
  · have hbytes : (endState short).page.sink.bytes.toList = bytes.take limit := by
      rw [hr.page]
      rfl
    rw [hbytes, List.take_eq_take_iff]
    omega
  · rcases hends with ⟨-, hsame⟩ | ⟨hfull, -⟩
    · exact hsame
    · exact absurd hsize (Nat.not_le.2 hfull)
  · rcases hends with ⟨hsize, -⟩ | ⟨-, herror⟩
    · exact absurd hsize (Nat.not_le.2 hfull)
    · exact herror
  · have hstarted : (endState short).page.started = ((endState full).page.started &&
        decide ((endState full).page.headerBytes.length ≤ limit)) := by
      rw [hr.page]
      rfl
    rw [hstarted, hr.started, Bool.and_eq_true, decide_eq_true_iff, Response.headerBytes,
      hr.wantsHeader, hr.header]
    refine and_congr_right fun _ => ?_
    cases wantsHeader with
    | true => exact ⟨fun hsize _ => hsize, fun hsize => hsize rfl⟩
    | false => simp

end PageTemplate
