import StatusRelay.Number.Binary64

namespace StatusRelay

structure Decimal where
  digits : Nat
  exponent : Int
deriving DecidableEq, Repr

namespace Decimal

def compareScaled (a : Nat) (i : Int) (n : Nat) (j : Int) : Ordering :=
  compare (a * Nat.pow 10 i.toNat * Nat.pow 2 (-j).toNat)
    (n * Nat.pow 2 j.toNat * Nat.pow 10 (-i).toNat)

def strip : Nat → Decimal → Decimal
  | 0, d => d
  | fuel + 1, d =>
    if d.digits != 0 && d.digits % 10 == 0 then strip fuel ⟨d.digits / 10, d.exponent + 1⟩ else d

end Decimal

namespace Binary64

/-- The gap to the next smaller number is half the gap to the next larger one. -/
def narrowBelow (x : Binary64) : Bool := x.fraction == 0 && 1 < x.exponentField

/-- The decimal lies among the reals that round to the size of `x`. -/
def readsBack (x : Binary64) (d : Decimal) : Bool :=
  let low := if x.narrowBelow then 4 * x.significand - 1 else 4 * x.significand - 2
  let high := 4 * x.significand + 2
  let closed := x.significand % 2 == 0
  let atLow := Decimal.compareScaled d.digits d.exponent low (x.scale - 2)
  let atHigh := Decimal.compareScaled d.digits d.exponent high (x.scale - 2)
  (atLow == .gt || (closed && atLow == .eq)) && (atHigh == .lt || (closed && atHigh == .eq))

def decimalMagnitude (x : Binary64) : Int :=
  let binary : Int := (x.significand.log2 : Int) + x.scale
  let start : Int := binary * 30103 / 100000 - 1
  let below (k : Int) : Bool := Decimal.compareScaled 1 k x.significand x.scale == .gt
  if below start then start
  else if below (start + 1) then start + 1
  else if below (start + 2) then start + 2
  else start + 3

def neighbours (x : Binary64) (e : Int) : Nat × Nat :=
  let n := x.significand * Nat.pow 2 x.scale.toNat * Nat.pow 10 (-e).toNat
  let d := Nat.pow 2 (-x.scale).toNat * Nat.pow 10 e.toNat
  (n / d, n / d + 1)

/-- The grid point at `10 ^ e` that reads back, the nearer one if both do, the even one on a tie. -/
def onGrid? (x : Binary64) (e : Int) : Option Decimal :=
  let (low, high) := x.neighbours e
  match x.readsBack ⟨low, e⟩, x.readsBack ⟨high, e⟩ with
  | false, false => none
  | true, false => some ⟨low, e⟩
  | false, true => some ⟨high, e⟩
  | true, true =>
    match Decimal.compareScaled (low + high) e (2 * x.significand) x.scale with
    | .gt => some ⟨low, e⟩
    | .lt => some ⟨high, e⟩
    | .eq => some (if low % 2 == 0 then ⟨low, e⟩ else ⟨high, e⟩)

/-- The exact value, where no grid of up to seventeen digits has a point that reads back. -/
def exactDecimal (x : Binary64) : Decimal :=
  if 0 ≤ x.scale then ⟨x.significand * Nat.pow 2 x.scale.toNat, 0⟩
  else ⟨x.significand * Nat.pow 5 (-x.scale).toNat, x.scale⟩

/-- The size of a finite number in the fewest decimal digits that read back: for 1, 2, … digits, the
two neighbours of the number on that grid are tried. -/
def shortest (x : Binary64) : Decimal :=
  if x.significand == 0 then ⟨0, 0⟩
  else
    let k := x.decimalMagnitude
    let found := (List.range 17).findSome? fun (n : Nat) ↦ x.onGrid? (k - (n + 1))
    (found.getD x.exactDecimal).strip 400

end Binary64

structure FloatLayout where
  /-- Least decimal exponent (of the leading digit) written positionally. -/
  leastPositional : Int
  /-- Least decimal exponent that is too large to be written positionally. -/
  leastScientific : Int
  /-- Digits of the exponent, at least. -/
  exponentWidth : Nat
  nan : String
  infinity : String

namespace FloatLayout

def padLeft (width : Nat) (cs : List Char) : List Char :=
  List.replicate (width - cs.length) '0' ++ cs

def exponentText (l : FloatLayout) (e : Int) : List Char :=
  'e' :: (if e < 0 then '-' else '+') :: padLeft l.exponentWidth (Nat.toDigits 10 e.natAbs)

/-- A whole number keeps `.0` in positional layout; in the other one the point needs two digits. -/
def unsigned (l : FloatLayout) (d : Decimal) : List Char :=
  let digits := Nat.toDigits 10 d.digits
  let lead : Int := d.exponent + digits.length - 1
  if d.digits == 0 then "0.0".toList
  else if lead < l.leastPositional || l.leastScientific ≤ lead then
    match digits with
    | [] => []
    | [c] => c :: l.exponentText lead
    | c :: cs => c :: '.' :: cs ++ l.exponentText lead
  else if 0 ≤ d.exponent then digits ++ List.replicate d.exponent.toNat '0' ++ ".0".toList
  else if 0 ≤ lead then
    digits.take (lead.toNat + 1) ++ '.' :: digits.drop (lead.toNat + 1)
  else "0.".toList ++ List.replicate (-lead - 1).toNat '0' ++ digits

def render (l : FloatLayout) (x : Binary64) : String :=
  if x.isNaN then l.nan
  else
    let body := if x.isInfinite then l.infinity.toList else l.unsigned x.shortest
    String.ofList (if x.negative then '-' :: body else body)

end FloatLayout
end StatusRelay
