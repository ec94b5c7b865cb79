import StatusRelay.Crypto.EcKey
import StatusRelay.Crypto.Pem
import StatusRelay.Crypto.Rsa

namespace StatusRelay.PrivateKey

abbrev Bytes := List UInt8

def labels : List String :=
  ["PRIVATE KEY", "ENCRYPTED PRIVATE KEY", "RSA PRIVATE KEY", "EC PRIVATE KEY", "DSA PRIVATE KEY"]

inductive Holding where
  | curveKey
  | number
  | octets (size : Nat)
  /-- Octets that the key is made from, as the first of several ways to give it. -/
  | seed (size : Nat)
deriving DecidableEq, Repr

def otherKinds : List (Der.Identifier × String × Holding) :=
  [(Algorithm.ec, "ECPrivateKey", .curveKey),
   (Algorithm.dsa, "DSAPrivateKey", .number),
   (Algorithm.dh, "DHPrivateKey", .number),
   (Algorithm.dhSubgroup, "DHPrivateKey", .number),
   (Algorithm.x25519, "X25519PrivateKey", .octets 32),
   (Algorithm.x448, "X448PrivateKey", .octets 56),
   (Algorithm.ed25519, "Ed25519PrivateKey", .octets 32),
   (Algorithm.ed448, "Ed448PrivateKey", .octets 57),
   (Algorithm.mlDsa44, "MLDSA44PrivateKey", .seed 32),
   (Algorithm.mlDsa65, "MLDSA65PrivateKey", .seed 32),
   (Algorithm.mlDsa87, "MLDSA87PrivateKey", .seed 32),
   (Algorithm.mlKem768, "MLKEM768PrivateKey", .seed 64),
   (Algorithm.mlKem1024, "MLKEM1024PrivateKey", .seed 64)]

structure Wrapped where
  algorithm : Algorithm
  content : Bytes

def seedTag : UInt8 := 0x80

def attributeDecoder : Der.Decoder Unit := Der.record do
  let _ ← Der.identifier
  let _ ← Der.inside Der.setTag Der.value.members

def Wrapped.decoder : Der.Decoder Wrapped := Der.record do
  let _ ← Der.naturalTo 0
  let algorithm ← Algorithm.decoder
  let content ← Der.octets
  let _ ← Der.member? 0 attributeDecoder.members
  pure { algorithm, content }

def encryptedDecoder : Der.Decoder Unit := Der.record do
  let _ ← Algorithm.decoder
  let _ ← Der.octets

def ofRsaDer (bs : Bytes) : Except KeyFault Rsa.PrivateKey :=
  match Rsa.PrivateKey.ofDer? bs with
  | some key => .ok key
  | none => .error .unreadable

def readable (recognised : Bool) : Except KeyFault Unit :=
  if recognised then .ok () else .error .unreadable

def Holding.check (parameters bs : Bytes) : Holding → Except KeyFault Unit
  | .curveKey => EcKey.check (Algorithm.CurveChoice.decoder.whole? parameters) bs
  | .number => readable (Der.natural.whole? bs).isSome
  | .octets size =>
    match Der.octets.whole? bs with
    | some secret => if secret.length == size then .ok () else .error .wrongSize
    | none => .error .unreadable
  | .seed size => readable (((Der.tagged seedTag).whole? bs).any (·.length == size))

def named (kind : String) (checked : Except KeyFault Unit) : Except KeyFault Rsa.PrivateKey :=
  .error (match checked with | .ok () => .notRsa kind | .error fault => fault)

def ofWrapped (bs : Bytes) : Except KeyFault Rsa.PrivateKey :=
  match Wrapped.decoder.whole? bs with
  | none => .error .unreadable
  | some w =>
    if [Algorithm.rsa, Algorithm.rsaPss].contains w.algorithm.identifier then ofRsaDer w.content
    else
      match otherKinds.lookup w.algorithm.identifier with
      | some (kind, holding) => named kind (holding.check w.algorithm.parameters w.content)
      | none => .error .unsupported

def dsaDecoder : Der.Decoder Unit := Der.record do
  let _ ← Der.naturalTo 0
  let ns ← Der.natural.all
  Der.require (ns.length == 5)

def encryptionFault? (b : Pem.Block) : Option KeyFault :=
  match b.header? "Proc-Type" with
  | none => none
  | some mode =>
    let cipher := (b.header? "DEK-Info").getD ""
    if mode == "4,ENCRYPTED" && cipher.toList.contains ',' then some .encrypted
    else some .unreadable

def ofBlock (b : Pem.Block) : Except KeyFault Rsa.PrivateKey :=
  match encryptionFault? b with
  | some fault => .error fault
  | none =>
    if b.label == "ENCRYPTED PRIVATE KEY" then
      .error (if (encryptedDecoder.whole? b.content).isSome then .encrypted else .unreadable)
    else if b.label == "RSA PRIVATE KEY" then ofRsaDer b.content
    else if b.label == "EC PRIVATE KEY" then named "ECPrivateKey" (EcKey.check none b.content)
    else if b.label == "DSA PRIVATE KEY" then
      named "DSAPrivateKey" (readable (dsaDecoder.whole? b.content).isSome)
    else ofWrapped b.content

/-- The first private key of a text. Only RSA keys are of use; of others as much is read as it takes
to name them. -/
def ofPem (text : String) : Except KeyFault Rsa.PrivateKey :=
  match (Pem.blocks? text).bind (·.find? fun b ↦ labels.contains b.label) with
  | some b => ofBlock b
  | none => .error .unreadable

end StatusRelay.PrivateKey
