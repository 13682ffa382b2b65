import PageTemplate.Context.Basic

/-! A page that is kept in memory. Nothing fails on it. -/
namespace PageTemplate

/-- The text written so far, and the media type once it is set. -/
structure Capture where
  output : String
  mime : Option Text
deriving DecidableEq

namespace Capture

def empty : Capture := ⟨"", none⟩

def write (s : Text) : EStateM ContextError Capture Unit
  | ⟨output, mime⟩ => .ok () ⟨output ++ String.ofList s, mime⟩

def setMimeType (s : Text) : EStateM ContextError Capture Unit
  | ⟨output, _⟩ => .ok () ⟨output, some s⟩

instance : Page Capture := ⟨write, setMimeType⟩

end Capture
end PageTemplate
