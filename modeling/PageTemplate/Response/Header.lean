import PageTemplate.Response.Encoding

/-! Response headers: a status line, the content type, the content length if it is known, and
a line for each cookie. A text type names the encoding of the body. -/
namespace PageTemplate

structure Cookie where
  name : Text
  value : Text
  domain : Option Text
  path : Option Text
  maxAge : Option UInt32
deriving DecidableEq

/-- What a header says. -/
structure Header where
  encoding : Encoding
  statusCode : UInt16
  statusText : Text
  mimeType : Text
  contentLength : Option UInt64
  cookies : List Cookie
deriving DecidableEq

namespace Header

/-- The header of a page that nobody has changed. -/
def default : Header :=
  { encoding := .utf8
    statusCode := 200
    statusText := "OK".toList
    mimeType := "text/html".toList
    contentLength := none
    cookies := [] }

def lineEnd : Text := ['\r', '\n']

def natText (n : Nat) : Text := Nat.toDigits 10 n

/-- A cookie attribute, if it is set. -/
def cookieField (key : String) : Option Text → Text
  | none => []
  | some v => ';' :: ' ' :: key.toList ++ '=' :: v

def cookieLine (c : Cookie) : Text :=
  "Set-Cookie: ".toList ++ c.name ++ '=' :: c.value ++ cookieField "Domain" c.domain ++
    cookieField "Path" c.path ++ cookieField "Max-Age" (c.maxAge.map fun n => natText n.toNat)

def statusLine (h : Header) : Text :=
  "HTTP/1.1 ".toList ++ natText h.statusCode.toNat ++ ' ' :: h.statusText

def typeLine (h : Header) : Text :=
  "Content-Type: ".toList ++ h.mimeType ++
    if "text/".toList.isPrefixOf h.mimeType then "; charset=".toList ++ h.encoding.name else []

/-- The lines of a header, without the empty one that ends it. -/
def lines (h : Header) : List Text :=
  h.statusLine :: h.typeLine ::
    (h.contentLength.toList.map fun n => "Content-Length: ".toList ++ natText n.toNat) ++
    h.cookies.map cookieLine

def text (h : Header) : Text := h.lines.flatMap (· ++ lineEnd) ++ lineEnd

/-- A header is sent in Latin-1, whatever the encoding of the body. -/
def bytes (h : Header) : List UInt8 := Encoding.latin1.encode h.text

end Header
end PageTemplate
