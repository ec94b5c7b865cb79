import StatusRelay.Text.Unit16

namespace StatusRelay.Text

abbrev Bytes := List UInt8

/-- Encodings of a text that starts with two ASCII characters: the zero bytes among the first four
tell the width of a unit and the order of its bytes. -/
inductive Encoding where
  | utf8
  /-- Units of 16 bits, the high byte first if `big`. -/
  | utf16 (big : Bool)
  | utf32 (big : Bool)
deriving DecidableEq, Repr

namespace Encoding

def guess : Bytes → Encoding
  | [a, b] => if a == 0 then utf16 true else if b == 0 then utf16 false else utf8
  | a :: b :: c :: d :: _ =>
    if a == 0 then (if b == 0 then utf32 true else utf16 true)
    else if b == 0 then (if c == 0 && d == 0 then utf32 false else utf16 false)
    else utf8
  | _ => utf8

def unit (big : Bool) (bs : Bytes) : Nat :=
  (if big then bs else bs.reverse).foldl (fun n b ↦ n * 256 + b.toNat) 0

def units16? (big : Bool) : Bytes → Option (List Nat)
  | [] => some []
  | [_] => none
  | a :: b :: rest => (units16? big rest).map (unit big [a, b] :: ·)

def units32? (big : Bool) : Bytes → Option (List Nat)
  | [] => some []
  | a :: b :: c :: d :: rest =>
    let u := unit big [a, b, c, d]
    if u < 0x110000 then (units32? big rest).map (u :: ·) else none
  | _ => none

end Encoding

def reread? (text : String) : Option (List Char) :=
  let bs := text.toUTF8.toList
  match Encoding.guess bs with
  | .utf8 => some text.toList
  | .utf16 big => (Encoding.units16? big bs).map Unit16.chars
  | .utf32 big => (Encoding.units32? big bs).map (·.map Unit16.char)

end StatusRelay.Text
