import StatusRelay.Crypto.Base64
import StatusRelay.Text.Blank

namespace StatusRelay.Pem

/-- A block of text armour: a label, header lines up to an empty line if there are any, and a body
in base64. Other text may stand around it. -/
structure Block where
  label : String
  headers : List (String × String)
  content : List UInt8
deriving DecidableEq, Repr

def Block.header? (b : Block) (name : String) : Option String := b.headers.reverse.lookup name

/-- Looks for a mark, of which `seen` was matched so far. The search never steps back: after a
character that does not match, it starts over behind that character. The result is the text before
the mark and after it. -/
def findMark (mark : List Char) (before seen : List Char) :
    List Char → List Char → Option (List Char × List Char)
  | [], cs => some (before.reverse, cs)
  | _, [] => none
  | m :: ms, c :: cs =>
    if c == m then findMark mark before (c :: seen) ms cs
    else findMark mark (c :: seen ++ before) [] mark cs

def splitAtMark (mark cs : List Char) : Option (List Char × List Char) :=
  findMark mark [] [] mark cs

structure Armour where
  opening : List Char
  body : List Char
  closing : List Char

def armour? (cs : List Char) : Option (Armour × List Char) := do
  let (_, cs) ← splitAtMark "-----BEGIN ".toList cs
  let (opening, cs) ← splitAtMark "-----".toList cs
  let (body, cs) ← splitAtMark "-----END ".toList cs
  let (closing, cs) ← splitAtMark "-----".toList cs
  some (⟨opening, body, closing⟩, cs)

def armours : Nat → List Char → List Armour
  | 0, _ => []
  | fuel + 1, cs =>
    match armour? cs with
    | some (a, rest) => a :: armours fuel rest
    | none => []

def dropSpace (cs : List Char) : List Char :=
  cs.dropWhile fun c ↦ c == ' ' || c == '\t' || c == '\n' || c == '\r'

def splitHeaders (body : List Char) : List Char × List Char :=
  match splitAtMark ['\n', '\n'] body with
  | some p => p
  | none => (splitAtMark ['\r', '\n', '\r', '\n'] body).getD ([], body)

def headerLine? (line : List Char) : Option (String × String) :=
  match line.span (· != ':') with
  | (name, _ :: v) =>
    some (String.ofList (Text.trimBy Text.isWhiteSpace name),
      String.ofList (Text.trimBy Text.isWhiteSpace v))
  | (_, []) => none

def lines (cs : List Char) : List (List Char) :=
  (String.ofList cs).splitOn "\n" |>.map (·.toList) |>.filter (!·.isEmpty)

def Armour.block? (a : Armour) : Option Block :=
  if a.opening.isEmpty || a.opening != a.closing then none
  else do
    let (head, body) := splitHeaders (dropSpace a.body)
    let headers ← (lines head).mapM headerLine?
    let content ← Base64.decodePadded? Base64.standard (body.filter (!Text.isWhiteSpace ·))
    some ⟨String.ofList a.opening, headers, content⟩

def blocks? (text : String) : Option (List Block) :=
  let cs := text.toList
  (armours cs.length cs).mapM Armour.block?

end StatusRelay.Pem
