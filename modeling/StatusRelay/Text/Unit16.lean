
namespace StatusRelay.Text.Unit16

def isHigh (u : Nat) : Bool := 0xD800 ≤ u && u < 0xDC00

def isLow (u : Nat) : Bool := 0xDC00 ≤ u && u < 0xE000

def replacement : Char := Char.ofNat 0xFFFD

def char (u : Nat) : Char := if isHigh u || isLow u then replacement else Char.ofNat u

def pairChar (high low : Nat) : Char :=
  Char.ofNat (0x10000 + (high - 0xD800) * 0x400 + (low - 0xDC00))

/-- The characters of a row of units. Half of a pair is no character and is replaced. -/
def chars : List Nat → List Char
  | [] => []
  | [u] => [char u]
  | u :: v :: rest =>
    if isHigh u && isLow v then pairChar u v :: chars rest else char u :: chars (v :: rest)

end StatusRelay.Text.Unit16
