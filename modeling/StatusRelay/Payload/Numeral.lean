import StatusRelay.Number.Binary64
import StatusRelay.Payload.Issue
import StatusRelay.Text.Blank
import StatusRelay.Text.Digit

namespace StatusRelay.Payload.Numeral

def signed (negative : Bool) (n : Nat) : Int := if negative then -(n : Int) else n

def longestWhole : Nat := 4300

/-- A whole number in its plain form. One that is too long is refused for that, whatever follows
its digits. -/
def plainWhole (cs : List Char) : Except Problem Int :=
  let (negative, body) := match cs with | '-' :: rest => (true, rest) | _ => (false, cs)
  let (digits, rest) := body.span Text.isAsciiDigit
  if digits.head? == some '0' && digits != ['0'] then .error .textNotWhole
  else if longestWhole + rest.length < cs.length then .error .wholeTooLarge
  else if digits.isEmpty || !rest.isEmpty then .error .textNotWhole
  else .ok (signed negative (Nat.ofDigitChars 10 digits 0))

def startsWhole (c : Char) : Bool := c == '-' || (Text.isAsciiDigit c && c != '0')

/-- What is left behind a zero: further zeros and underscores are dropped too, but the last one
stays where only a point or nothing follows it. -/
def afterZero? (last : Char) : List Char → Option (List Char)
  | [] => some [last]
  | c :: rest =>
    if c == '0' || c == '_' then afterZero? c rest
    else if startsWhole c then some (c :: rest)
    else if c == '.' then some (last :: c :: rest)
    else none

def dropZerosInFront? : List Char → Option (List Char)
  | [] => none
  | c :: rest =>
    if c == '0' then afterZero? c rest else if startsWhole c then some (c :: rest) else none

def dropZeroFraction (cs : List Char) : List Char :=
  match cs.span (· != '.') with
  | (whole, _ :: zeros) => if !zeros.isEmpty && zeros.all (· == '0') then whole else cs
  | _ => cs

/-- No underscore stands at either end or beside another one. -/
def isGrouped (cs : List Char) : Bool :=
  cs.head? != some '_' && cs.getLast? != some '_' &&
    (cs.zip cs.tail).all fun p ↦ !(p.1 == '_' && p.2 == '_')

def joined? (cs : List Char) : Option (List Char) :=
  if isGrouped cs then some (cs.filter (· != '_')) else none

def tidied? (cs : List Char) : Option (List Char) := do
  let cs ←
    match Text.trimBy Text.isWhiteSpace cs with
    | '+' :: '-' :: _ => none
    | '+' :: rest => dropZerosInFront? rest
    | '-' :: rest => (dropZerosInFront? rest).map ('-' :: ·)
    | cs => dropZerosInFront? cs
  let cs := dropZeroFraction cs
  some ((joined? cs).getD cs)

/-- A whole number is first looked for in its plain form. A text of another form is tidied once and
looked at again. -/
def whole (s : String) : Except Problem Int :=
  match plainWhole s.toList, tidied? s.toList with
  | .error .textNotWhole, some cs => plainWhole cs
  | plain, _ => plain

def sign : List Char → Bool × List Char
  | '-' :: rest => (true, rest)
  | '+' :: rest => (false, rest)
  | cs => (false, cs)

def exponent? (cs : List Char) : Option Int :=
  let (negative, ds) := sign cs
  if !ds.isEmpty && ds.all Text.isAsciiDigit then
    some (signed negative (Nat.ofDigitChars 10 ds 0))
  else none

def isExponentMark (c : Char) : Bool := c == 'e' || c == 'E'

def mantissa? (cs : List Char) : Option (List Char × List Char) :=
  let (whole, tail) := cs.span (· != '.')
  let fraction := tail.drop 1
  if !(whole.isEmpty && fraction.isEmpty) && (whole ++ fraction).all Text.isAsciiDigit then
    some (whole, fraction)
  else none

def isInfinityName (name : String) : Bool := name == "inf" || name == "infinity"

def plainNumber? (cs : List Char) : Option Binary64 :=
  let (negative, cs) := sign cs
  let name := String.ofList (cs.map Char.toLower)
  if isInfinityName name then some (.infinity negative)
  else if name == "nan" then some .nan
  else
    let (front, tail) := cs.span (!isExponentMark ·)
    do
      let (whole, fraction) ← mantissa? front
      let e ← match tail with | [] => some 0 | _ :: ds => exponent? ds
      some (.ofDecimal negative (Nat.ofDigitChars 10 (whole ++ fraction) 0) (e - fraction.length))

/-- Blanks around a number are dropped, or else underscores inside it, but not both. -/
def number? (s : String) : Option Binary64 :=
  (plainNumber? (Text.trimBy Text.isWhiteSpace s.toList)).or
    ((joined? s.toList).bind plainNumber?)

end StatusRelay.Payload.Numeral
