import PageTemplate.Number.Rounding
import PageTemplate.Text.Quoted

/-! Decimal patterns. A pattern has a body of the symbols `0`, `#`, the point and the comma,
and text before and after it. Apostrophes make text literal, and two of them stand for one;
a percent sign outside of them asks for hundredths. What follows a semicolon is ignored. -/
namespace PageTemplate

inductive FormatError
  | noDigits (pattern : Text)
  | multiplePoints (pattern : Text)
deriving DecidableEq

def FormatError.message : FormatError → String
  | .noDigits p => "pattern " ++ Text.quoted p ++ " has no digit placeholders"
  | .multiplePoints p => "pattern " ++ Text.quoted p ++ " has more than one decimal separator"

structure Pattern where
  lead : Text
  trail : Text
  minWhole : Nat
  minPlaces : Nat
  maxPlaces : Nat
  grouping : Option Nat
  percent : Bool
deriving DecidableEq

namespace Pattern

def apostrophe : Char := '\x27'

def isDigitSymbol (c : Char) : Bool := c == '0' || c == '#'

def isSymbol (c : Char) : Bool := isDigitSymbol c || c == '.' || c == ','

/-- Splits before the first symbol outside apostrophes; `inside` tells where the text starts. -/
def splitLead (inside : Bool) : Text → Text × Text
  | [] => ([], [])
  | c :: s =>
    if !inside && isSymbol c then ([], c :: s)
    else
      let (lead, rest) := splitLead (if c = apostrophe then !inside else inside) s
      (c :: lead, rest)

/-- Text without its apostrophes; a pair of them is one. -/
def unquote : Text → Text
  | [] => []
  | [c] => if c = apostrophe then [] else [c]
  | c :: d :: s =>
    if c = apostrophe then
      if d = apostrophe then apostrophe :: unquote s else unquote (d :: s)
    else c :: unquote (d :: s)

/-- Whether a character other than the apostrophe stands outside apostrophes. -/
def hasOutside (wanted : Char) (inside : Bool) : Text → Bool
  | [] => false
  | c :: s =>
    if c = apostrophe then hasOutside wanted (!inside) s
    else (!inside && c == wanted) || hasOutside wanted inside s

/-- The number of digits after the last comma, if there is a comma with digits after it. -/
def groupSize (whole : Text) : Option Nat :=
  let n := (whole.reverse.takeWhile (· ≠ ',')).countP isDigitSymbol
  if ',' ∈ whole ∧ 0 < n then some n else none

/-- What the text before the body, the body and the text after it make of a pattern. -/
def ofPieces (pattern lead body trail : Text) : Except FormatError Pattern :=
  let whole := body.takeWhile (· ≠ '.')
  let part := body.dropWhile (· ≠ '.')
  if !body.any isDigitSymbol then .error (.noDigits pattern)
  else if 1 < body.count '.' then .error (.multiplePoints pattern)
  else .ok {
    lead := unquote lead
    trail := unquote trail
    minWhole := whole.count '0'
    minPlaces := part.count '0'
    maxPlaces := part.countP isDigitSymbol
    grouping := groupSize whole
    percent := hasOutside '%' false lead || hasOutside '%' false trail }

def parse (pattern : Text) : Except FormatError Pattern :=
  let (lead, rest) := splitLead false (pattern.takeWhile (· ≠ ';'))
  ofPieces pattern lead (rest.takeWhile isSymbol) (rest.dropWhile isSymbol)

/-- Puts a comma before every digit but the first that begins a whole number of groups. -/
def group (size : Nat) : Text → Text
  | [] => []
  | c :: s => if s ≠ [] ∧ s.length % size = 0 then c :: ',' :: group size s else c :: group size s

/-- Drops zeros from the end, down to `keep` digits. -/
def dropZeros (keep : Nat) (s : Text) : Text :=
  s.take keep ++ ((s.drop keep).reverse.dropWhile (· = '0')).reverse

/-- The digits of a rounded magnitude, without the sign and the texts around them. -/
def digits (p : Pattern) (d : Decimal) : Text :=
  let part := dropZeros p.minPlaces d.fractionDigits
  let whole := (d.wholeDigits.dropWhile (· = '0')).leftpad p.minWhole '0'
  let whole := if whole = [] ∧ part = [] then ['0'] else whole
  let whole := match p.grouping with
    | some size => group size whole
    | none => whole
  if part = [] then whole else whole ++ '.' :: part

def scale (p : Pattern) (x : Float) : Float := if p.percent then x * 100 else x

/-- Formats a double; a number that rounds to zero has no sign. -/
def format (p : Pattern) (x : Float) : Text :=
  match Double.reading (p.scale x) with
  | .nan => ['N', 'a', 'N']
  | .infinite negative => signText negative ++ p.lead ++ '∞' :: p.trail
  | .finite negative m e =>
    let d := Double.rounded m e p.maxPlaces
    signText (negative && d.digits != 0) ++ p.lead ++ p.digits d ++ p.trail

end Pattern
end PageTemplate
