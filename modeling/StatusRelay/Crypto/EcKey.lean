import StatusRelay.Crypto.Algorithm
import StatusRelay.Crypto.Curve
import StatusRelay.Crypto.Sha256
import StatusRelay.Failure

namespace StatusRelay

open Der

structure EcKey where
  secret : Bytes
  choice : Option Algorithm.CurveChoice
  point : Option Bytes
deriving DecidableEq, Repr

structure CurveDescription where
  modulus : Nat
  a : Bytes
  b : Bytes
  seed : Option Bytes
  base : Bytes
  order : Nat
  cofactor : Option Nat
deriving DecidableEq, Repr

namespace Curve

def named : List (Identifier × Curve) :=
  [([1, 2, 840, 10045, 3, 1, 1], nistP192),
   ([1, 3, 132, 0, 33], nistP224),
   ([1, 2, 840, 10045, 3, 1, 7], nistP256),
   ([1, 3, 132, 0, 34], nistP384),
   ([1, 3, 132, 0, 35], nistP521),
   ([1, 3, 132, 0, 10], secp256k1),
   ([1, 3, 36, 3, 3, 2, 8, 1, 1, 7], brainpoolP256),
   ([1, 3, 36, 3, 3, 2, 8, 1, 1, 11], brainpoolP384),
   ([1, 3, 36, 3, 3, 2, 8, 1, 1, 13], brainpoolP512)]

def seeded : List (Curve × Nat) :=
  [(nistP256, 0xC49D360886E704936A6678E1139D26B7819F7E90),
   (nistP384, 0xA335926AA319A27A1D00896A6773A4827ACDAC73),
   (nistP521, 0xD09E8800291CB85396CC6717393284AAA0DA64BA)]

def width (n : Nat) : Nat := (n.log2 + 8) / 8

def number (c : Curve) (n : Nat) : Bytes := Sha256.bigEndian (width c.modulus) n

/-- A point as it may be written: both coordinates, or the first and whether the second is odd, or
all of this. -/
def encodings (c : Curve) (x y : Nat) : List Bytes :=
  let odd := UInt8.ofNat (y % 2)
  [0x04 :: c.number x ++ c.number y, (0x02 + odd) :: c.number x,
    (0x06 + odd) :: c.number x ++ c.number y]

def description (c : Curve) (seed : Option Bytes) : CurveDescription where
  modulus := c.modulus
  a := c.number c.a
  b := c.number c.b
  seed := seed
  base := 0x04 :: c.number c.baseX ++ c.number c.baseY
  order := c.order
  cofactor := some 1

end Curve

namespace CurveDescription

def primeField : Identifier := [1, 2, 840, 10045, 1, 1]

def decoder : Decoder CurveDescription := do
  require ((← natural) == 1)
  let modulus ← record do
    require ((← identifier) == primeField)
    natural
  let (a, b, seed) ← record do
    let a ← octets
    let b ← octets
    let seed ← ifTagged bitStringTag bitString
    pure (a, b, seed)
  let base ← octets
  let order ← natural
  let cofactor ← ifTagged integerTag natural
  pure { modulus, a, b, seed, base, order, cofactor }

def curve? (d : CurveDescription) : Option Curve :=
  (Curve.seeded.find? fun (c, seed) ↦
    d == c.description none || d == c.description (some (Sha256.bigEndian 20 seed))).map (·.1)

end CurveDescription

def Algorithm.CurveChoice.curve : Algorithm.CurveChoice → Except KeyFault Curve
  | .named i =>
    match Curve.named.lookup i with
    | some c => .ok c
    | none => .error .unsupported
  | .implied => .error .unreadable
  | .described content =>
    match (CurveDescription.decoder.whole? content).bind CurveDescription.curve? with
    | some c => .ok c
    | none => .error .unreadable

namespace EcKey

def decoder : Decoder EcKey := record do
  require ((← natural) == 1)
  let secret ← octets
  let choice ← member? 0 Algorithm.CurveChoice.decoder
  let point ← member? 1 bitString
  pure { secret, choice, point }

def isOn (k : EcKey) (c : Curve) : Bool :=
  let d := natOfBytes k.secret
  k.secret.length == Curve.width c.order && 0 < d && d < c.order &&
    match k.point with
    | none => true
    | some p =>
      let (x, y) := c.coordinates (c.times c.base d)
      (c.encodings x y).contains p

def choice? (outer inner : Option Algorithm.CurveChoice) : Option Algorithm.CurveChoice :=
  match outer, inner with
  | some c, some d => if c == d then some c else none
  | some c, none => some c
  | none, d => d

/-- A key is sound if its number is below the order of its curve and leads to the point that is
written beside it. The curve may have been chosen outside. -/
def check (outer : Option Algorithm.CurveChoice) (bs : Bytes) : Except KeyFault Unit := do
  match decoder.whole? bs with
  | none => .error .unreadable
  | some k =>
    match choice? outer k.choice with
    | none => .error .unreadable
    | some choice =>
      let c ← choice.curve
      if k.isOn c then .ok () else .error .unreadable

end EcKey
end StatusRelay
