
namespace StatusRelay.Der

abbrev Bytes := List UInt8

/-- Takes what it reads off the front of the bytes, and refuses what is not in the distinguished
encoding. Tags are of one byte. -/
abbrev Decoder := StateT Bytes Option

def require (condition : Bool) : Decoder Unit := if condition then pure () else failure

def integerTag : UInt8 := 0x02

def bitStringTag : UInt8 := 0x03

def octetsTag : UInt8 := 0x04

def nullTag : UInt8 := 0x05

def identifierTag : UInt8 := 0x06

def sequenceTag : UInt8 := 0x30

def setTag : UInt8 := 0x31

def memberTag (n : UInt8) : UInt8 := 0xA0 + n

def natOfBytes (bs : Bytes) : Nat := bs.foldl (fun n b ↦ n * 256 + b.toNat) 0

/-- A length: below 128 in one byte, else in the least number of bytes after their count. -/
def length? : Bytes → Option (Nat × Bytes)
  | [] => none
  | b :: rest =>
    if b < 0x80 then some (b.toNat, rest)
    else
      let count := b.toNat - 0x80
      let size := rest.take count
      let n := natOfBytes size
      if count == 0 || size.length != count || size.head? == some 0 || n < 0x80 then none
      else some (n, rest.drop count)

def value : Decoder (UInt8 × Bytes)
  | [] => none
  | tag :: rest =>
    match length? rest with
    | none => none
    | some (n, rest) =>
      if rest.length < n then none else some ((tag, rest.take n), rest.drop n)

def tagged (tag : UInt8) : Decoder Bytes := fun bs ↦
  match value bs with
  | some ((t, content), rest) => if t == tag then some (content, rest) else none
  | none => none

def Decoder.whole? {α : Type} (d : Decoder α) (bs : Bytes) : Option α :=
  match d bs with
  | some (a, []) => some a
  | _ => none

def inside {α : Type} (tag : UInt8) (d : Decoder α) : Decoder α := do
  let content ← tagged tag
  d.whole? content

def record {α : Type} (d : Decoder α) : Decoder α := inside sequenceTag d

def ifTagged {α : Type} (tag : UInt8) (d : Decoder α) : Decoder (Option α) := fun bs ↦
  if bs.head? == some tag then (d bs).map fun (a, rest) ↦ (some a, rest) else some (none, bs)

def member? {α : Type} (n : UInt8) (d : Decoder α) : Decoder (Option α) :=
  ifTagged (memberTag n) (inside (memberTag n) d)

def Decoder.upTo {α : Type} (d : Decoder α) : Nat → Decoder (List α)
  | 0 => fun bs ↦ if bs.isEmpty then some ([], []) else none
  | n + 1 => fun bs ↦
    if bs.isEmpty then some ([], [])
    else
      match d bs with
      | some (a, rest) => (d.upTo n rest).map fun (as, rest) ↦ (a :: as, rest)
      | none => none

def Decoder.all {α : Type} (d : Decoder α) : Decoder (List α) := fun bs ↦ d.upTo bs.length bs

/-- The number in the content of an integer; negative and padded ones are refused. -/
def natural? (content : Bytes) : Option Nat :=
  match content with
  | [] => none
  | [b] => if b < 0x80 then some b.toNat else none
  | b :: c :: _ =>
    if 0x80 ≤ b || (b == 0 && c < 0x80) then none else some (natOfBytes content)

def natural : Decoder Nat := do
  let content ← tagged integerTag
  natural? content

def naturalTo (limit : Nat) : Decoder Nat := do
  let n ← natural
  require (n ≤ limit)
  pure n

def octets : Decoder Bytes := tagged octetsTag

def bits? : Bytes → Option Bytes
  | [] => none
  | unused :: bs =>
    let last := (bs.getLast?.map (·.toNat)).getD 0
    if 7 < unused || (bs.isEmpty && unused != 0) || last % Nat.pow 2 unused.toNat != 0 then none
    else some bs

def bitString : Decoder Bytes := do
  let content ← tagged bitStringTag
  bits? content

def null : Decoder Unit := do
  let content ← tagged nullTag
  require content.isEmpty

abbrev Identifier := List Nat

/-- Numbers in groups of seven bits, of which `started` says whether one is under way, and `n` what
was read of it. No number starts with a group of zeros. -/
def groups? (started : Bool) (n : Nat) : Bytes → Option (List Nat)
  | [] => if started then none else some []
  | b :: bs =>
    if !started && b == 0x80 then none
    else
      let n := n * 128 + b.toNat % 128
      if b < 0x80 then (groups? false 0 bs).map (n :: ·) else groups? true n bs

def identifier? (content : Bytes) : Option Identifier :=
  match groups? false 0 content with
  | some (n :: rest) =>
    let first := min (n / 40) 2
    if content.length ≤ 63 then some (first :: (n - 40 * first) :: rest) else none
  | _ => none

def identifier : Decoder Identifier := do
  let content ← tagged identifierTag
  identifier? content

def raw : Decoder Bytes := fun bs ↦
  match value bs with
  | some (_, rest) => some (bs.take (bs.length - rest.length), rest)
  | none => none

def Decoder.members {α : Type} (d : Decoder α) : Decoder (List α) := do
  let encodings ← raw.all
  require (decide (encodings.Pairwise (· ≤ ·)))
  encodings.mapM fun e ↦ d.whole? e

end StatusRelay.Der
