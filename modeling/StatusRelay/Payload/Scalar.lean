import StatusRelay.Payload.Numeral

namespace StatusRelay.Payload

open Json (Value)

def trueNames : List String := ["1", "t", "y", "on", "yes", "true"]

def falseNames : List String := ["0", "f", "n", "no", "off", "false"]

def isWord (n : Int) : Bool := -0x8000000000000000 ≤ n && n < 0x8000000000000000

/-- The machine words but the least one: the range in which a floating-point number is taken for a
whole one. -/
def isInnerWord (n : Int) : Bool := -0x8000000000000000 < n && n < 0x8000000000000000

namespace Scalar

def text : Value → Except Problem String
  | .str s => .ok s
  | _ => .error .notText

def whole : Value → Except Problem Int
  | .int n => .ok n
  | .bool b => .ok (if b then 1 else 0)
  | .float x =>
    match x.toInt? with
    | some n => if isInnerWord n then .ok n else .error .wholeTooLarge
    | none => .error (if x.isFinite then .fractional else .notFinite)
  | .str s => Numeral.whole s
  | _ => .error .notWhole

def truth : Value → Except Problem Bool
  | .bool b => .ok b
  | .int n =>
    if n == 0 then .ok false
    else if n == 1 then .ok true
    else .error (if isWord n then .otherTruth else .notTruth)
  | .float x =>
    match x.toInt? with
    | some 0 => .ok false
    | some 1 => .ok true
    | some n => .error (if isInnerWord n then .otherTruth else .notTruth)
    | none => .error .notTruth
  | .str s =>
    let name := String.ofList (s.toList.map Char.toLower)
    if trueNames.contains name then .ok true
    else if falseNames.contains name then .ok false
    else .error .otherTruth
  | _ => .error .notTruth

def number : Value → Except Problem Binary64
  | .float x => .ok x
  | .int n =>
    let x := Binary64.ofInt n
    if x.isFinite then .ok x else .error .notNumber
  | .bool b => .ok (.ofInt (if b then 1 else 0))
  | .str s =>
    match Numeral.number? s with
    | some x => .ok x
    | none => .error .textNotNumber
  | _ => .error .notNumber

end Scalar
end StatusRelay.Payload
