
namespace StatusRelay

/-- A floating-point number, held as its bit pattern. Arithmetic on these numbers is never needed,
so there is none. -/
structure Binary64 where
  bits : UInt64
deriving DecidableEq, Repr, Inhabited

namespace Binary64

def negative (x : Binary64) : Bool := x.bits >>> 63 == 1

def exponentField (x : Binary64) : Nat := ((x.bits >>> 52) &&& 0x7FF).toNat

def fraction (x : Binary64) : Nat := (x.bits &&& 0xFFFFFFFFFFFFF).toNat

def isNaN (x : Binary64) : Bool := x.exponentField == 0x7FF && x.fraction != 0

def isInfinite (x : Binary64) : Bool := x.exponentField == 0x7FF && x.fraction == 0

def isFinite (x : Binary64) : Bool := x.exponentField != 0x7FF

def significand (x : Binary64) : Nat :=
  if x.exponentField == 0 then x.fraction else Nat.pow 2 52 + x.fraction

def scale (x : Binary64) : Int :=
  if x.exponentField == 0 then -1074 else (x.exponentField : Int) - 1075

def isZero (x : Binary64) : Bool := x.isFinite && x.significand == 0

def toInt? (x : Binary64) : Option Int :=
  if !x.isFinite then none
  else
    let size : Option Nat :=
      if 0 ≤ x.scale then some (x.significand * Nat.pow 2 x.scale.toNat)
      else
        let unit := Nat.pow 2 (-x.scale).toNat
        if x.significand % unit == 0 then some (x.significand / unit) else none
    size.map fun n ↦ if x.negative then -(n : Int) else n

/-- A sign bit followed by exponent field and fraction read as one number. -/
def ofMagnitude (negative : Bool) (magnitude : Nat) : Binary64 :=
  ⟨UInt64.ofNat ((if negative then Nat.pow 2 63 else 0) + magnitude)⟩

def infinity (negative : Bool) : Binary64 := ofMagnitude negative (0x7FF * Nat.pow 2 52)

def nan : Binary64 := ofMagnitude false (0x7FF * Nat.pow 2 52 + Nat.pow 2 51)

def roundDiv (num den : Nat) : Nat :=
  let q := num / den
  let r := num % den
  if 2 * r < den then q
  else if den < 2 * r then q + 1
  else if q % 2 == 0 then q else q + 1

/-- The exponent `e` for which `num / (den * 2 ^ e)` lies in `[2 ^ 52, 2 ^ 53)`. -/
def binaryExponent (num den : Nat) : Int :=
  let guess : Int := (num.log2 : Int) - den.log2 - 52
  let scaledNum := num * Nat.pow 2 (-guess).toNat
  let scaledDen := den * Nat.pow 2 guess.toNat
  if scaledNum < scaledDen * Nat.pow 2 52 then guess - 1 else guess

/-- The number nearest to `num / den`. Exponent field and fraction are one number, so that a
significand rounded up to the next power of two carries into the exponent by itself. -/
def ofRatio (negative : Bool) (num den : Nat) : Binary64 :=
  if num == 0 || den == 0 then ofMagnitude negative 0
  else
    let e := max (binaryExponent num den) (-1074)
    let m := roundDiv (num * Nat.pow 2 (-e).toNat) (den * Nat.pow 2 e.toNat)
    if 971 < e then infinity negative
    else
      let magnitude := (e + 1074).toNat * Nat.pow 2 52 + m
      if 0x7FF * Nat.pow 2 52 ≤ magnitude then infinity negative else ofMagnitude negative magnitude

/-- The number nearest to `digits * 10 ^ exponent`. Exponents that decide the answer by
themselves are cut off before any power is formed. -/
def ofDecimal (negative : Bool) (digits : Nat) (exponent : Int) : Binary64 :=
  let size : Int := (digits.log2 : Int) / 4
  if digits == 0 then ofMagnitude negative 0
  else if 400 < exponent + size then infinity negative
  else if exponent + 2 * size + 2 < -400 then ofMagnitude negative 0
  else ofRatio negative (digits * Nat.pow 10 exponent.toNat) (Nat.pow 10 (-exponent).toNat)

def ofInt (n : Int) : Binary64 := ofRatio (n < 0) n.natAbs 1

def toHex (x : Binary64) : String :=
  let digits := Nat.toDigits 16 x.bits.toNat
  String.ofList (List.replicate (16 - digits.length) '0' ++ digits)

end Binary64
end StatusRelay
