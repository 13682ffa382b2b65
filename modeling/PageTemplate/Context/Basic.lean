import PageTemplate.Context.Parameters
import PageTemplate.Text.Quoted

/-! What a template is rendered into: a page that takes text and a media type, beside the
parameters. An operation that fails may still have changed the page. -/
namespace PageTemplate

/-- What a response fixes with its header. -/
inductive HeaderField
  | encoding
  | statusCode
  | statusText
  | contentLength
  | cookies
  | mimeType
deriving DecidableEq

def HeaderField.name : HeaderField → String
  | .encoding => "encoding"
  | .statusCode => "status code"
  | .statusText => "status text"
  | .contentLength => "content length"
  | .cookies => "cookies"
  | .mimeType => "mime type"

inductive ContextError
  | headerSent (field : HeaderField)
  | unknownEncoding (name : Text)
  | sinkFull
deriving DecidableEq

def ContextError.message : ContextError → String
  | .headerSent f => "cannot change " ++ f.name ++ " after the header was generated"
  | .unknownEncoding name => "unsupported encoding " ++ Text.quoted name
  | .sinkFull => "failed to write whole buffer"

/-- A place for output. -/
class Page (ω : Type) where
  write : Text → EStateM ContextError ω Unit
  setMimeType : Text → EStateM ContextError ω Unit

structure Context (ω : Type) where
  parameters : Parameters
  page : ω

namespace Context

variable {ω : Type}

/-- Runs an operation of the page; the parameters stay as they are. -/
def onPage (m : EStateM ContextError ω Unit) : EStateM ContextError (Context ω) Unit
  | ⟨parameters, page⟩ =>
    match m page with
    | .ok _ page => .ok () ⟨parameters, page⟩
    | .error e page => .error e ⟨parameters, page⟩

def write [Page ω] (s : Text) : EStateM ContextError (Context ω) Unit := onPage (Page.write s)

def setMimeType [Page ω] (s : Text) : EStateM ContextError (Context ω) Unit :=
  onPage (Page.setMimeType s)

/-- The request parameter of a name. -/
def request? (c : Context ω) (name : Text) : Option Text := c.parameters.request.get? name

def get? (c : Context ω) (s : Store) (name : Text) : Option Text :=
  (c.parameters.store s).get? name

def set (c : Context ω) (s : Store) (name value : Text) : Context ω :=
  { c with parameters :=
      c.parameters.setStore s ((c.parameters.store s).insert name value) }

def delete (c : Context ω) (s : Store) (name : Text) : Context ω :=
  { c with parameters := c.parameters.setStore s ((c.parameters.store s).erase name) }

end Context
end PageTemplate
