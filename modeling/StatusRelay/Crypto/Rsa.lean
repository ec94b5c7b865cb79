import StatusRelay.Crypto.Der
import StatusRelay.Crypto.Prime
import StatusRelay.Crypto.Sha256

namespace StatusRelay.Rsa

abbrev Bytes := List UInt8

structure PublicKey where
  modulus : Nat
  exponent : Nat
deriving DecidableEq, Repr

structure PrivateKey extends PublicKey where
  secretExponent : Nat
  p : Nat
  q : Nat
  secretModP : Nat
  secretModQ : Nat
  qInverse : Nat
deriving DecidableEq, Repr

namespace PrivateKey

def Sound (k : PrivateKey) : Prop :=
  Prime.isProbablePrime k.p = true ∧ Prime.isProbablePrime k.q = true ∧
    k.p % 2 = 1 ∧ k.q % 2 = 1 ∧
    k.exponent % 2 = 1 ∧ 1 < k.exponent ∧
    k.modulus = k.p * k.q ∧
    k.secretExponent * k.exponent % Nat.lcm (k.p - 1) (k.q - 1) = 1 ∧
    k.secretModP = k.secretExponent % (k.p - 1) ∧
    k.secretModQ = k.secretExponent % (k.q - 1) ∧
    k.qInverse < k.p ∧ k.qInverse * k.q % k.p = 1

instance (k : PrivateKey) : Decidable k.Sound := by unfold Sound; infer_instance

def decoder : Der.Decoder PrivateKey := Der.record do
  let _ ← Der.naturalTo 0
  let modulus ← Der.natural
  let exponent ← Der.natural
  let secretExponent ← Der.natural
  let p ← Der.natural
  let q ← Der.natural
  let secretModP ← Der.natural
  let secretModQ ← Der.natural
  let qInverse ← Der.natural
  pure { modulus, exponent, secretExponent, p, q, secretModP, secretModQ, qInverse }

def ofDer? (bs : Bytes) : Option PrivateKey := do
  let key ← decoder.whole? bs
  if key.Sound then some key else none

end PrivateKey

def PublicKey.size (k : PublicKey) : Nat := (k.modulus.log2 + 8) / 8

def digestHeader : Bytes :=
  [0x30, 0x31, 0x30, 0x0D, 0x06, 0x09, 0x60, 0x86, 0x48, 0x01, 0x65, 0x03, 0x04, 0x02, 0x01, 0x05,
   0x00, 0x04, 0x20]

/-- The hash behind its header, filled up in front to the given size, which leaves room for eight
filling bytes at least. -/
def padded? (size : Nat) (message : Bytes) : Option Bytes :=
  let digest := digestHeader ++ Sha256.hash message
  if size < digest.length + 11 then none
  else
    some (0x00 :: 0x01 :: List.replicate (size - digest.length - 3) 0xFF ++ 0x00 :: digest)

def verify (k : PublicKey) (message signature : Bytes) : Bool :=
  signature.length == k.size &&
    match padded? k.size message with
    | some m => Prime.powMod (Der.natOfBytes signature) k.exponent k.modulus == Der.natOfBytes m
    | none => false

inductive SignFault where
  /-- Refused, with a reason to report. -/
  | refused (reason : String)
  | broken
deriving DecidableEq, Repr

def keyTooSmall : String :=
  "Digest or salt length too long for key size. Use a larger key or shorter salt length " ++
    "if you are specifying a PSS salt"

/-- A signature is checked under the public half before it is handed out. -/
def sign (k : PrivateKey) (message : Bytes) : Except SignFault Bytes :=
  match padded? k.size message with
  | none => .error (.refused keyTooSmall)
  | some m =>
    let signature :=
      Sha256.bigEndian k.size (Prime.powMod (Der.natOfBytes m) k.secretExponent k.modulus)
    if verify k.toPublicKey message signature then .ok signature else .error .broken

end StatusRelay.Rsa
