import StatusRelay.Crypto.Der

namespace StatusRelay

/-- A named algorithm. `parameters` is what stands behind the identifier, and is of its form. -/
structure Algorithm where
  identifier : Der.Identifier
  parameters : List UInt8
deriving DecidableEq, Repr

namespace Algorithm

open Der

def rsa : Identifier := [1, 2, 840, 113549, 1, 1, 1]

def rsaPss : Identifier := [1, 2, 840, 113549, 1, 1, 10]

def mask : Identifier := [1, 2, 840, 113549, 1, 1, 8]

def ec : Identifier := [1, 2, 840, 10045, 2, 1]

def dsa : Identifier := [1, 2, 840, 10040, 4, 1]

def dhSubgroup : Identifier := [1, 2, 840, 10046, 2, 1]

def dh : Identifier := [1, 2, 840, 113549, 1, 3, 1]

def x25519 : Identifier := [1, 3, 101, 110]

def x448 : Identifier := [1, 3, 101, 111]

def ed25519 : Identifier := [1, 3, 101, 112]

def ed448 : Identifier := [1, 3, 101, 113]

def mlDsa44 : Identifier := [2, 16, 840, 1, 101, 3, 4, 3, 17]

def mlDsa65 : Identifier := [2, 16, 840, 1, 101, 3, 4, 3, 18]

def mlDsa87 : Identifier := [2, 16, 840, 1, 101, 3, 4, 3, 19]

def mlKem768 : Identifier := [2, 16, 840, 1, 101, 3, 4, 4, 2]

def mlKem1024 : Identifier := [2, 16, 840, 1, 101, 3, 4, 4, 3]

def sha1 : Identifier := [1, 3, 14, 3, 2, 26]

inductive CurveChoice where
  | named (i : Identifier)
  /-- Left to an understanding between the parties. -/
  | implied
  /-- By its equation, in a sequence with the given content. -/
  | described (content : List UInt8)
deriving DecidableEq, Repr

inductive Form where
  | absent
  | nullIfAny
  | valueIfAny
  | curve
  | dsaGroup
  | dhGroup
  | dhSubgroup
  | paddingIfAny
  | vector (size : Nat)
deriving DecidableEq, Repr

def family (stem : Identifier) (last : List Nat) (form : Form) : List (Identifier × Form) :=
  last.map fun n ↦ (stem ++ [n], form)

def forms : List (Identifier × Form) :=
  [(rsa, .nullIfAny), (rsaPss, .paddingIfAny), (ec, .curve), (dsa, .dsaGroup), (dh, .dhGroup),
    (dhSubgroup, .dhSubgroup), (x25519, .absent), (x448, .absent), (ed25519, .absent),
    (ed448, .absent), (mlDsa44, .absent), (mlDsa65, .absent), (mlDsa87, .absent),
    (mlKem768, .absent), (mlKem1024, .absent)] ++
  family [2, 16, 840, 1, 101, 3, 4, 1] [2, 22, 42] (.vector 16) ++
  family [1, 2, 840, 113549, 3] [7] (.vector 8) ++
  family [1, 3, 14, 3, 2] [26, 29] .nullIfAny ++
  family [2, 16, 840, 1, 101, 3, 4, 2] [1, 2, 3, 4, 7, 8, 9, 10] .nullIfAny ++
  family [1, 2, 840, 113549, 2] [7, 8, 9, 10, 11] .nullIfAny ++
  family [1, 2, 840, 113549, 1, 1] [5, 11, 12, 13, 14] .nullIfAny ++
  family [1, 2, 840, 10040, 4] [3] .nullIfAny ++
  family [1, 2, 840, 10045, 4, 3] [1, 2, 3, 4] .nullIfAny ++
  family [2, 16, 840, 1, 101, 3, 4, 3] [1, 2, 3, 4, 13, 14, 15, 16] .nullIfAny ++
  family [2, 16, 840, 1, 101, 3, 4, 3] [9, 10, 11, 12] .absent

/-- Behind an identifier that is not known, any value is taken. -/
def formOf (i : Identifier) : Form := (forms.lookup i).getD .valueIfAny

def threeNumbers : Decoder Unit := record do
  let _ ← natural
  let _ ← natural
  let _ ← natural

def dhNumbers : Decoder Unit := record do
  let _ ← natural
  let _ ← natural
  let _ ← ifTagged integerTag (naturalTo 0xFFFFFFFF)

def dhSubgroupNumbers : Decoder Unit := record do
  let _ ← natural
  let _ ← natural
  let _ ← natural
  let _ ← ifTagged integerTag natural
  let _ ← ifTagged sequenceTag value

def sha1Null : Algorithm := ⟨sha1, [nullTag, 0]⟩

/-- The hash, its mask, the salt's length and the trailer. What is assumed where a member is missing
is never written. -/
def padding (algorithm : Decoder Algorithm) : Decoder Unit := record do
  let hash ← member? 0 algorithm
  let mask ← member? 1 (record do
    let i ← Der.identifier
    let a ← algorithm
    pure (i, a))
  let salt ← member? 2 (naturalTo 0xFFFF)
  let trailer ← member? 3 (naturalTo 0xFF)
  require (hash != some sha1Null && mask != some (Algorithm.mask, sha1Null) && salt != some 20 &&
    trailer != some 1)

def CurveChoice.decoder : Decoder CurveChoice := do
  match ← ifTagged identifierTag Der.identifier with
  | some i => pure (.named i)
  | none =>
    match ← ifTagged nullTag null with
    | some _ => pure .implied
    | none => .described <$> tagged sequenceTag

def Form.decoder (algorithm : Decoder Algorithm) : Form → Decoder Unit
  | .absent => pure ()
  | .nullIfAny => discard (ifTagged nullTag null)
  | .valueIfAny => fun bs ↦ if bs.isEmpty then some ((), []) else discard value bs
  | .curve => discard CurveChoice.decoder
  | .dsaGroup => threeNumbers
  | .dhGroup => dhNumbers
  | .dhSubgroup => dhSubgroupNumbers
  | .paddingIfAny => discard (ifTagged sequenceTag (padding algorithm))
  | .vector size => do
    let content ← octets
    require (content.length == size)

def decoderTo : Nat → Decoder Algorithm
  | 0 => failure
  | depth + 1 => record fun bs ↦ do
    let (i, parameters) ← Der.identifier bs
    ((formOf i).decoder (decoderTo depth)).whole? parameters
    some (⟨i, parameters⟩, [])

def decoder : Decoder Algorithm := fun bs ↦ decoderTo bs.length bs

end Algorithm
end StatusRelay
