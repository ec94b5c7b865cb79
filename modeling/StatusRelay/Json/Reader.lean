import StatusRelay.Json.Value
import StatusRelay.Text.Digit
import StatusRelay.Text.Encoding

namespace StatusRelay.Json

inductive ReadFault where
  /-- The bytes are none of the encoding that they show. -/
  | undecodable
  | malformed
  | numberTooLong
  | nestedTooDeep
deriving DecidableEq, Repr

/-- Whether a guard against wrong values catches the fault. Nesting is a matter of the room that is
left, and not of the value. -/
def ReadFault.isCaught : ReadFault → Bool
  | nestedTooDeep => false
  | _ => true

namespace Reader

open Text.Unit16 (isHigh isLow)

def isSpace (c : Char) : Bool := c == ' ' || c == '\t' || c == '\n' || c == '\r'

def skipSpace (cs : List Char) : List Char := cs.dropWhile isSpace

def hexDigit? (c : Char) : Option Nat :=
  if '0' ≤ c && c ≤ '9' then some (c.toNat - '0'.toNat)
  else if 'a' ≤ c && c ≤ 'f' then some (c.toNat - 'a'.toNat + 10)
  else if 'A' ≤ c && c ≤ 'F' then some (c.toNat - 'A'.toNat + 10)
  else none

def unit? (a b c d : Char) : Option Nat := do
  let a ← hexDigit? a
  let b ← hexDigit? b
  let c ← hexDigit? c
  let d ← hexDigit? d
  some (((a * 16 + b) * 16 + c) * 16 + d)

def shortEscape? (c : Char) : Option Char :=
  match c with
  | '"' => some '"'
  | '\\' => some '\\'
  | '/' => some '/'
  | 'b' => some '\x08'
  | 'f' => some '\x0C'
  | 'n' => some '\n'
  | 'r' => some '\r'
  | 't' => some '\t'
  | _ => none

def stringTail (acc : List Char) : List Char → Option (List Char × List Char)
  | [] => none
  | '"' :: rest => some (acc.reverse, rest)
  | '\\' :: 'u' :: a :: b :: c :: d :: '\\' :: 'u' :: e :: f :: g :: h :: rest =>
    match unit? a b c d with
    | none => none
    | some high =>
      match unit? e f g h with
      | none => none
      | some low =>
        if isHigh high && isLow low then stringTail (Text.Unit16.pairChar high low :: acc) rest
        else stringTail (Text.Unit16.char high :: acc) ('\\' :: 'u' :: e :: f :: g :: h :: rest)
  | '\\' :: 'u' :: a :: b :: c :: d :: rest =>
    match unit? a b c d with
    | none => none
    | some u => stringTail (Text.Unit16.char u :: acc) rest
  | '\\' :: c :: rest =>
    match shortEscape? c with
    | none => none
    | some e => stringTail (e :: acc) rest
  | c :: rest => if c.toNat < 0x20 then none else stringTail (c :: acc) rest

def digits (cs : List Char) : List Char × List Char := cs.span Text.isAsciiDigit

def wholePart? (cs : List Char) : Option (List Char × List Char) :=
  match cs with
  | '0' :: rest => some (['0'], rest)
  | c :: _ => if Text.isAsciiDigit c then some (digits cs) else none
  | [] => none

def fractionPart (cs : List Char) : List Char × List Char :=
  match cs with
  | '.' :: rest => if (digits rest).1.isEmpty then ([], cs) else digits rest
  | _ => ([], cs)

def signedDigits? (negative : Bool) (cs : List Char) : Option (Int × List Char) :=
  let (ds, rest) := digits cs
  if ds.isEmpty then none
  else
    let n : Int := Nat.ofDigitChars 10 ds 0
    some (if negative then -n else n, rest)

def exponentPart? (cs : List Char) : Option (Int × List Char) :=
  let afterMark (r : List Char) :=
    match r with
    | '+' :: r => signedDigits? false r
    | '-' :: r => signedDigits? true r
    | r => signedDigits? false r
  match cs with
  | 'e' :: r => afterMark r
  | 'E' :: r => afterMark r
  | _ => none

def orMalformed {α : Type} : Option α → Except ReadFault α
  | some a => .ok a
  | none => .error .malformed

/-- Reads what is one level further down, if there is room for it. -/
def below {α : Type} (room : Nat) (read : Nat → Except ReadFault α) : Except ReadFault α :=
  match room with
  | 0 => .error .nestedTooDeep
  | room + 1 => read room

section Values

-- The most digits that a whole number may have.
variable (longest : Nat)

/-- A number without its sign. With a fraction or an exponent it is a floating-point number, else a
whole one, whose length is limited. -/
def unsigned (negative : Bool) (cs : List Char) : Except ReadFault (Value × List Char) := do
  let (whole, rest) ← orMalformed (wholePart? cs)
  let (fraction, rest) := fractionPart rest
  let size := Nat.ofDigitChars 10 (whole ++ fraction) 0
  match exponentPart? rest with
  | some (e, rest) => .ok (.float (.ofDecimal negative size (e - fraction.length)), rest)
  | none =>
    if !fraction.isEmpty then .ok (.float (.ofDecimal negative size (-fraction.length)), rest)
    else if longest < whole.length then .error .numberTooLong
    else .ok (.int (if negative then -(size : Int) else size), rest)

def number (cs : List Char) : Except ReadFault (Value × List Char) :=
  match cs with
  | '-' :: 'I' :: 'n' :: 'f' :: 'i' :: 'n' :: 'i' :: 't' :: 'y' :: rest =>
    .ok (.float (.infinity true), rest)
  | 'I' :: 'n' :: 'f' :: 'i' :: 'n' :: 'i' :: 't' :: 'y' :: rest =>
    .ok (.float (.infinity false), rest)
  | 'N' :: 'a' :: 'N' :: rest => .ok (.float .nan, rest)
  | '-' :: rest => unsigned longest true rest
  | _ => unsigned longest false cs

def string (cs : List Char) : Except ReadFault (String × List Char) :=
  (orMalformed (stringTail [] cs)).map fun p ↦ (String.ofList p.1, p.2)

def colon (cs : List Char) : Except ReadFault (List Char) :=
  match skipSpace cs with
  | ':' :: rest => .ok rest
  | _ => .error .malformed

mutual

/-- A value at the front of the text, with room for so many levels of nesting. Fuel counts nested
and following values. -/
def value : Nat → Nat → List Char → Except ReadFault (Value × List Char)
  | 0, _, _ => .error .malformed
  | fuel + 1, room, cs =>
    match skipSpace cs with
    | '"' :: rest => (string rest).map fun (s, rest) ↦ (.str s, rest)
    | '[' :: rest =>
      below room fun room ↦
        match skipSpace rest with
        | ']' :: rest => .ok (.arr [], rest)
        | rest => (items fuel room rest).map fun (vs, rest) ↦ (.arr vs, rest)
    | '{' :: rest =>
      below room fun room ↦
        match skipSpace rest with
        | '}' :: rest => .ok (.obj [], rest)
        | rest => (members fuel room rest).map fun (ms, rest) ↦ (.obj (Table.ofPairs ms), rest)
    | 'n' :: 'u' :: 'l' :: 'l' :: rest => .ok (.null, rest)
    | 't' :: 'r' :: 'u' :: 'e' :: rest => .ok (.bool true, rest)
    | 'f' :: 'a' :: 'l' :: 's' :: 'e' :: rest => .ok (.bool false, rest)
    | cs => number longest cs

def items : Nat → Nat → List Char → Except ReadFault (List Value × List Char)
  | 0, _, _ => .error .malformed
  | fuel + 1, room, cs => do
    let (v, rest) ← value fuel room cs
    match skipSpace rest with
    | ',' :: rest => (items fuel room rest).map fun (vs, rest) ↦ (v :: vs, rest)
    | ']' :: rest => .ok ([v], rest)
    | _ => .error .malformed

def members : Nat → Nat → List Char → Except ReadFault (Members × List Char)
  | 0, _, _ => .error .malformed
  | fuel + 1, room, cs =>
    match skipSpace cs with
    | '"' :: rest => do
      let (key, rest) ← string rest
      let rest ← colon rest
      let (v, rest) ← value fuel room rest
      match skipSpace rest with
      | ',' :: rest => (members fuel room rest).map fun (ms, rest) ↦ ((key, v) :: ms, rest)
      | '}' :: rest => .ok ([(key, v)], rest)
      | _ => .error .malformed
    | _ => .error .malformed

end

end Values

def whole (limits : Limits) (cs : List Char) : Except ReadFault Value := do
  let (v, rest) ← value limits.digits (2 * cs.length + 1) limits.depth cs
  if (skipSpace rest).isEmpty then .ok v else .error .malformed

end Reader

def read (text : String) : Except ReadFault Value := Reader.whole .standard text.toList

/-- The value in a body whose bytes are those of a text. A byte order mark at the front is skipped,
and zero bytes tell another encoding. -/
def readBody (text : String) : Except ReadFault Value :=
  match Text.reread? text with
  | none => .error .undecodable
  | some [] => .error .malformed
  | some (c :: cs) => Reader.whole .standard (if c.toNat == 0xFEFF then cs else c :: cs)

end StatusRelay.Json
