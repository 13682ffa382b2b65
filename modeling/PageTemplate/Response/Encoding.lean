import PageTemplate.Text.Space

/-! The two encodings of a response body. -/
namespace PageTemplate

inductive Encoding
  | utf8
  | latin1
deriving DecidableEq

namespace Encoding

def name : Encoding → Text
  | .utf8 => "UTF-8".toList
  | .latin1 => "ISO-8859-1".toList

/-- The names of an encoding in capitals. -/
def names : Encoding → List Text
  | .utf8 => ["UTF-8".toList, "UTF8".toList]
  | .latin1 => ["ISO-8859-1".toList, "ISO8859-1".toList, "LATIN1".toList, "LATIN-1".toList]

/-- The encoding of a name in any ASCII case. -/
def ofName? (name : Text) : Option Encoding :=
  let capitals := name.map Char.toUpper
  [utf8, latin1].find? fun e => e.names.any (· = capitals)

/-- The bytes of a character; Latin-1 has a question mark for those beyond it. -/
def encodeChar : Encoding → Char → List UInt8
  | .utf8, c => String.utf8EncodeChar c
  | .latin1, c => if c.toNat < 256 then [UInt8.ofNat c.toNat] else [63]

def encode (e : Encoding) (s : Text) : List UInt8 := s.flatMap e.encodeChar

theorem encode_append (e : Encoding) (s t : Text) :
    e.encode (s ++ t) = e.encode s ++ e.encode t := by
  simp [encode]

theorem ofName?_name (e : Encoding) : ofName? e.name = some e := by
  cases e <;> decide

end Encoding
end PageTemplate
