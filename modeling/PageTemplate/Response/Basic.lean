import PageTemplate.Context.Basic
import PageTemplate.Response.Header
import PageTemplate.Response.Sink

/-! A page that is sent as bytes. The first write sends the header, if one is wanted, and
from then on what the header says is fixed. -/
namespace PageTemplate

/-- A response; `started` once the header is sent or left out. -/
structure Response where
  header : Header
  wantsHeader : Bool
  started : Bool
  sink : Sink
deriving DecidableEq

namespace Response

def new (wantsHeader : Bool) (sink : Sink) : Response := ⟨Header.default, wantsHeader, false, sink⟩

/-- Sends bytes; those that do not fit are lost. -/
def send (data : List UInt8) : EStateM ContextError Response Unit
  | ⟨header, wantsHeader, started, sink⟩ =>
    match sink.write data with
    | (true, sink) => .ok () ⟨header, wantsHeader, started, sink⟩
    | (false, sink) => .error .sinkFull ⟨header, wantsHeader, started, sink⟩

/-- Sends the header unless that is done or it is not wanted. -/
def start : EStateM ContextError Response Unit := do
  let r ← get
  if !r.started then
    if r.wantsHeader then send r.header.bytes
    modify fun r => { r with started := true }

def writeBytes (data : List UInt8) : EStateM ContextError Response Unit := do
  start
  send data

def write (s : Text) : EStateM ContextError Response Unit := do
  let r ← get
  writeBytes (r.header.encoding.encode s)

/-- Changes the header, which is refused once the response has started. -/
def change (field : HeaderField) (f : Header → Except ContextError Header) :
    EStateM ContextError Response Unit := fun r =>
  if r.started then .error (.headerSent field) r
  else match f r.header with
    | .ok header => .ok () { r with header := header }
    | .error e => .error e r

def setEncoding (name : Text) : EStateM ContextError Response Unit :=
  change .encoding fun h =>
    match Encoding.ofName? name with
    | some e => .ok { h with encoding := e }
    | none => .error (.unknownEncoding name)

def setStatusCode (code : UInt16) : EStateM ContextError Response Unit :=
  change .statusCode fun h => .ok { h with statusCode := code }

def setStatusText (s : Text) : EStateM ContextError Response Unit :=
  change .statusText fun h => .ok { h with statusText := s }

def setContentLength (n : UInt64) : EStateM ContextError Response Unit :=
  change .contentLength fun h => .ok { h with contentLength := some n }

def addCookie (c : Cookie) : EStateM ContextError Response Unit :=
  change .cookies fun h => .ok { h with cookies := h.cookies ++ [c] }

def setMimeType (s : Text) : EStateM ContextError Response Unit :=
  change .mimeType fun h => .ok { h with mimeType := s }

instance : Page Response := ⟨write, setMimeType⟩

end Response
end PageTemplate
