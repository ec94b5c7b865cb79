
namespace StatusRelay

abbrev CodeRanges := List (Nat × Nat)

def CodeRanges.contains (rs : CodeRanges) (c : Char) : Bool :=
  rs.any fun r ↦ r.1 ≤ c.toNat && c.toNat ≤ r.2

namespace Text

def whiteSpace : CodeRanges :=
  [(0x9, 0xD), (0x20, 0x20), (0x85, 0x85), (0xA0, 0xA0), (0x1680, 0x1680), (0x2000, 0x200A),
   (0x2028, 0x2029), (0x202F, 0x202F), (0x205F, 0x205F), (0x3000, 0x3000)]

def blank : CodeRanges := (0x1C, 0x1F) :: whiteSpace

def isWhiteSpace (c : Char) : Bool := whiteSpace.contains c

def isBlank (c : Char) : Bool := blank.contains c

def trimBy (p : Char → Bool) (cs : List Char) : List Char :=
  ((cs.dropWhile p).reverse.dropWhile p).reverse

def trimEndBy (p : Char → Bool) (cs : List Char) : List Char :=
  (cs.reverse.dropWhile p).reverse

end Text
end StatusRelay
