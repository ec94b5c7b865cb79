
namespace StatusRelay.Base64

abbrev Bytes := List UInt8

/-- The two alphabets differ in the characters for 62 and 63. -/
structure Alphabet where
  c62 : Char
  c63 : Char
deriving DecidableEq, Repr

def standard : Alphabet := ⟨'+', '/'⟩

def url : Alphabet := ⟨'-', '_'⟩

variable (a : Alphabet)

def digit (n : Nat) : Char :=
  if n < 26 then Char.ofNat ('A'.toNat + n)
  else if n < 52 then Char.ofNat ('a'.toNat + (n - 26))
  else if n < 62 then Char.ofNat ('0'.toNat + (n - 52))
  else if n == 62 then a.c62
  else a.c63

def value? (c : Char) : Option Nat :=
  if 'A' ≤ c && c ≤ 'Z' then some (c.toNat - 'A'.toNat)
  else if 'a' ≤ c && c ≤ 'z' then some (c.toNat - 'a'.toNat + 26)
  else if '0' ≤ c && c ≤ '9' then some (c.toNat - '0'.toNat + 52)
  else if c == a.c62 then some 62
  else if c == a.c63 then some 63
  else none

/-- The bare form, which stops at the last character that carries bits. -/
def encode : Bytes → List Char
  | [] => []
  | [x] => [digit a (x.toNat / 4), digit a (x.toNat % 4 * 16)]
  | [x, y] =>
    [digit a (x.toNat / 4), digit a (x.toNat % 4 * 16 + y.toNat / 16),
      digit a (y.toNat % 16 * 4)]
  | x :: y :: z :: rest =>
    digit a (x.toNat / 4) :: digit a (x.toNat % 4 * 16 + y.toNat / 16) ::
      digit a (y.toNat % 16 * 4 + z.toNat / 64) :: digit a (z.toNat % 64) :: encode rest

/-- Only canonical text is decoded: bits that no byte uses are zero. -/
def bytes? : List Nat → Option Bytes
  | [] => some []
  | [_] => none
  | [p, q] => if q % 16 == 0 then some [.ofNat (p * 4 + q / 16)] else none
  | [p, q, r] =>
    if r % 4 == 0 then some [.ofNat (p * 4 + q / 16), .ofNat (q % 16 * 16 + r / 4)] else none
  | p :: q :: r :: s :: rest =>
    (bytes? rest).map fun bs ↦
      .ofNat (p * 4 + q / 16) :: .ofNat (q % 16 * 16 + r / 4) :: .ofNat (r % 4 * 64 + s) :: bs

def decode? (cs : List Char) : Option Bytes := (cs.mapM (value? a)).bind bytes?

def decodePadded? (cs : List Char) : Option Bytes :=
  let body := cs.takeWhile (· != '=')
  let padding := cs.dropWhile (· != '=')
  if padding.all (· == '=') && padding.length ≤ 2 && cs.length % 4 == 0 then decode? a body
  else none

end StatusRelay.Base64
