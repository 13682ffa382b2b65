import PageTemplate.Context.Parameters
import PageTemplate.Response.Basic

/-! Settings for the pages that are served: parameters, and what their response header
says. -/
namespace PageTemplate

/-- What a settings text fixes; `none` leaves a part of the header as it is. -/
structure Settings where
  request : ParameterMap
  persistent : ParameterMap
  mimeType : Option Text
  encoding : Option Text
  statusCode : Option UInt16
  statusText : Option Text
  wantsHeader : Bool
  cookies : List Cookie
deriving DecidableEq

namespace Settings

def empty : Settings :=
  { request := .empty
    persistent := .empty
    mimeType := none
    encoding := none
    statusCode := none
    statusText := none
    wantsHeader := false
    cookies := [] }

def addCookies : List Cookie → EStateM ContextError Response Unit
  | [] => pure ()
  | c :: cs => do
    Response.addCookie c
    addCookies cs

/-- Does something with a part that is set. -/
def whenSet {α : Type} (f : α → EStateM ContextError Response Unit) :
    Option α → EStateM ContextError Response Unit
  | none => pure ()
  | some a => f a

/-- Carries the settings over to a response that has not started. -/
def prepare (s : Settings) : EStateM ContextError Response Unit := do
  whenSet Response.setMimeType s.mimeType
  whenSet Response.setEncoding s.encoding
  whenSet Response.setStatusCode s.statusCode
  whenSet Response.setStatusText s.statusText
  addCookies s.cookies

/-- A fresh response with these settings; its temporary parameters are empty. -/
def response (s : Settings) (sink : Sink) : Except ContextError (Context Response) :=
  match s.prepare (Response.new s.wantsHeader sink) with
  | .ok _ page => .ok ⟨⟨s.request, s.persistent, .empty⟩, page⟩
  | .error e _ => .error e

end Settings
end PageTemplate
