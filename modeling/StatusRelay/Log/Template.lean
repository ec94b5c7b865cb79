import StatusRelay.Json.Display
import StatusRelay.Number.Shortest

namespace StatusRelay.Template

open Json (Value)

structure Flags where
  left : Bool
  zeros : Bool
  plus : Bool
  space : Bool
  alternate : Bool
deriving DecidableEq, Repr

/-- A directive starts with `%` and takes one argument. It may name a member of a single object
argument; a star stands for a width or a precision that is an argument itself. -/
structure Directive where
  flags : Flags
  width : Nat
  precision : Option Nat
  kind : Char
deriving DecidableEq, Repr

/-- Arguments by position, or the members of one object together with the argument that comes next:
the object itself at first, then whichever member was named. -/
inductive Arguments where
  | listed (values : List Value)
  | named (members : Json.Members) (next : Option Value)

namespace Arguments

/-- One object that is not empty stands for its members. -/
def ofList : List Value → Arguments
  | [.obj (m :: ms)] => .named (m :: ms) (some (.obj (m :: ms)))
  | values => .listed values

def take? : Arguments → Option (Value × Arguments)
  | .listed (v :: vs) => some (v, .listed vs)
  | .named ms (some v) => some (v, .named ms none)
  | _ => none

def select? (name : String) : Arguments → Option Arguments
  | .listed _ => none
  | .named ms _ => (ms.get? name).map fun v ↦ .named ms (some v)

def allUsed : Arguments → Bool
  | .listed vs => vs.isEmpty
  | .named _ _ => true

end Arguments

def pad {α : Type} (d : Directive) (blank : α) (cs : List α) : List α :=
  let fill := List.replicate (d.width - cs.length) blank
  if d.flags.left then cs ++ fill else fill ++ cs

def padNumber (d : Directive) (mark digits : List Char) : List Char :=
  if d.flags.zeros && !d.flags.left then
    mark ++ List.replicate (d.width - mark.length - digits.length) '0' ++ digits
  else pad d ' ' (mark ++ digits)

def signMark (d : Directive) (negative : Bool) : List Char :=
  if negative then ['-'] else if d.flags.plus then ['+'] else if d.flags.space then [' '] else []

def integer (d : Directive) (n : Int) (base : Nat) (mark : List Char) (upper : Bool) : List Char :=
  let digits := Nat.toDigits base n.natAbs
  let digits := if upper then digits.map Char.toUpper else digits
  let digits := List.replicate (d.precision.getD 0 - digits.length) '0' ++ digits
  padNumber d (signMark d (n < 0) ++ if d.flags.alternate then mark else []) digits

def quotient (x : Binary64) : Nat × Nat :=
  (x.significand * Nat.pow 2 x.scale.toNat, Nat.pow 2 (-x.scale).toNat)

def decimals (d : Directive) (fraction : List Char) : List Char :=
  if fraction.isEmpty && !d.flags.alternate then [] else '.' :: fraction

def fixedParts (places : Nat) (x : Binary64) : List Char × List Char :=
  let (num, den) := quotient x
  let scaled := Binary64.roundDiv (num * Nat.pow 10 places) den
  (Nat.toDigits 10 (scaled / Nat.pow 10 places),
    if places == 0 then []
    else FloatLayout.padLeft places (Nat.toDigits 10 (scaled % Nat.pow 10 places)))

def leadingExponent (num den : Nat) : Int :=
  let guess : Int := (Nat.toDigits 10 num).length - (Nat.toDigits 10 den).length
  if den * Nat.pow 10 guess.toNat ≤ num * Nat.pow 10 (-guess).toNat then guess else guess - 1

def significantDigits (count : Nat) (x : Binary64) : List Char × Int :=
  let (num, den) := quotient x
  if num == 0 then (List.replicate count '0', 0)
  else
    let e := leadingExponent num den
    let shift := (count : Int) - 1 - e
    let ds := Nat.toDigits 10
      (Binary64.roundDiv (num * Nat.pow 10 shift.toNat) (den * Nat.pow 10 (-shift).toNat))
    if count < ds.length then (ds.take count, e + 1) else (ds, e)

def exponentText (mark : Char) (e : Int) : List Char :=
  mark :: (if e < 0 then '-' else '+') :: FloatLayout.padLeft 2 (Nat.toDigits 10 e.natAbs)

def dropZeros (cs : List Char) : List Char := (cs.reverse.dropWhile (· == '0')).reverse

def scientificText (d : Directive) (mark : Char) (trim : Bool) (ds : List Char) (e : Int) :
    List Char :=
  let fraction := if trim then dropZeros ds.tail else ds.tail
  ds.take 1 ++ decimals d fraction ++ exponentText mark e

def generalText (d : Directive) (mark : Char) (x : Binary64) : List Char :=
  let count := max 1 (d.precision.getD 6)
  let trim := !d.flags.alternate
  let (ds, e) := significantDigits count x
  if -4 ≤ e && e < count then
    let (whole, fraction) := fixedParts ((count : Int) - 1 - e).toNat x
    whole ++ decimals d (if trim then dropZeros fraction else fraction)
  else scientificText d mark trim ds e

def realText (d : Directive) (upper : Bool) (size : Binary64 → List Char) (x : Binary64) :
    List Char :=
  let name (s : String) : List Char := (if upper then s.toUpper else s).toList
  let body := if x.isNaN then name "nan" else if x.isFinite then size x else name "inf"
  padNumber d (signMark d (x.negative && !x.isNaN)) body

def fixed (d : Directive) (x : Binary64) : List Char :=
  let (whole, fraction) := fixedParts (d.precision.getD 6) x
  whole ++ decimals d fraction

def scientific (d : Directive) (mark : Char) (x : Binary64) : List Char :=
  let (ds, e) := significantDigits (d.precision.getD 6 + 1) x
  scientificText d mark false ds e

def whole? : Value → Option Int
  | .int n => some n
  | .bool b => some (if b then 1 else 0)
  | _ => none

def truncated? : Value → Option Int
  | .float x =>
    if !x.isFinite then none
    else
      let size := x.significand * Nat.pow 2 x.scale.toNat / Nat.pow 2 (-x.scale).toNat
      some (if x.negative then -(size : Int) else size)
  | v => whole? v

/-- A whole number that no floating-point number comes near has no rendering as one. -/
def number? : Value → Option Binary64
  | .float x => some x
  | v => ((whole? v).map Binary64.ofInt).filter Binary64.isFinite

def asciiOnly (s : String) : String :=
  String.ofList (s.toList.flatMap fun c ↦
    if c.toNat < 0x80 then [c]
    else if c.toNat < 0x100 then '\\' :: 'x' :: Text.hex 2 c.toNat
    else if c.toNat < 0x10000 then '\\' :: 'u' :: Text.hex 4 c.toNat
    else '\\' :: 'U' :: Text.hex 8 c.toNat)

def text (d : Directive) (s : String) : List Char :=
  pad d ' ' (match d.precision with | some n => s.toList.take n | none => s.toList)

/-- A number may be that of half a pair, which is no character. -/
def point? : Value → Option Nat
  | .str s => match s.toList with | [c] => some c.toNat | _ => none
  | v => (whole? v).bind fun n ↦ if 0 ≤ n && n < 0x110000 then some n.toNat else none

def decimalKinds : List Char := ['s', 'r', 'a', 'd', 'i', 'u']

def Directive.text? (limits : Json.Limits) (d : Directive) (v : Value) : Option (List Char) :=
  if decimalKinds.contains d.kind && (limits.fault? v).isSome then none
  else
    match d.kind with
    | 's' => some (text d v.display)
    | 'r' => some (text d v.quoted)
    | 'a' => some (text d (asciiOnly v.quoted))
    | 'd' => (truncated? v).map fun n ↦ integer d n 10 [] false
    | 'i' => (truncated? v).map fun n ↦ integer d n 10 [] false
    | 'u' => (truncated? v).map fun n ↦ integer d n 10 [] false
    | 'x' => (whole? v).map fun n ↦ integer d n 16 ['0', 'x'] false
    | 'X' => (whole? v).map fun n ↦ integer d n 16 ['0', 'X'] true
    | 'o' => (whole? v).map fun n ↦ integer d n 8 ['0', 'o'] false
    | 'f' => (number? v).map (realText d false (fixed d))
    | 'F' => (number? v).map (realText d true (fixed d))
    | 'e' => (number? v).map (realText d false (scientific d 'e'))
    | 'E' => (number? v).map (realText d true (scientific d 'E'))
    | 'g' => (number? v).map (realText d false (generalText d 'e'))
    | 'G' => (number? v).map (realText d true (generalText d 'E'))
    | _ => none

def Directive.render? (limits : Json.Limits) (d : Directive) (v : Value) : Option (List Nat) :=
  if d.kind == 'c' then (point? v).map fun n ↦ pad d ' '.toNat [n]
  else (d.text? limits v).map (·.map Char.toNat)

def flag? (f : Flags) (c : Char) : Option Flags :=
  match c with
  | '-' => some { f with left := true }
  | '0' => some { f with zeros := true }
  | '+' => some { f with plus := true }
  | ' ' => some { f with space := true }
  | '#' => some { f with alternate := true }
  | _ => none

def flags (f : Flags) : List Char → Flags × List Char
  | [] => (f, [])
  | c :: cs =>
    match flag? f c with
    | some f' => flags f' cs
    | none => (f, c :: cs)

def isLengthMark (c : Char) : Bool := c == 'h' || c == 'l' || c == 'L'

/-- No width and no precision reaches this bound. -/
def sizeBound : Nat := Nat.pow 2 31

def size? (args : Arguments) (cs : List Char) : Option (Int × Arguments × List Char) := do
  let (n, args, rest) ←
    match cs with
    | '*' :: rest => do
      let (v, args) ← args.take?
      let n ← whole? v
      some (n, args, rest)
    | _ =>
      let (ds, rest) := cs.span (·.isDigit)
      some ((Nat.ofDigitChars 10 ds 0 : Int), args, rest)
  if n.natAbs < sizeBound then some (n, args, rest) else none

def precision? (args : Arguments) (cs : List Char) :
    Option (Option Nat × Arguments × List Char) :=
  match cs with
  | '.' :: rest => (size? args rest).map fun (n, args, rest) ↦ (some n.toNat, args, rest)
  | _ => some (none, args, cs)

def enclosed? (depth : Nat) : List Char → Option (List Char × List Char)
  | [] => none
  | ')' :: rest =>
    match depth with
    | 0 => some ([], rest)
    | depth + 1 => (enclosed? depth rest).map fun p ↦ (')' :: p.1, p.2)
  | '(' :: rest => (enclosed? (depth + 1) rest).map fun p ↦ ('(' :: p.1, p.2)
  | c :: rest => (enclosed? depth rest).map fun p ↦ (c :: p.1, p.2)

def selected? (args : Arguments) (cs : List Char) : Option (Arguments × List Char) :=
  match cs with
  | '(' :: rest => do
    let (name, rest) ← enclosed? 0 rest
    let args ← args.select? (String.ofList name)
    some (args, rest)
  | _ => some (args, cs)

/-- A directive after its mark. A width below zero asks for filling on the right. -/
def directive? (args : Arguments) (cs : List Char) :
    Option (Directive × Arguments × List Char) := do
  let (args, cs) ← selected? args cs
  let (f, cs) := flags ⟨false, false, false, false, false⟩ cs
  let (width, args, cs) ← size? args cs
  let (precision, args, cs) ← precision? args cs
  let cs := match cs with | c :: rest => if isLengthMark c then rest else cs | [] => []
  match cs with
  | kind :: rest =>
    some (⟨{ f with left := f.left || width < 0 }, width.natAbs, precision, kind⟩, args, rest)
  | [] => none

def renderFrom (limits : Json.Limits) : Nat → Arguments → List Char → Option (List Nat)
  | 0, _, _ => none
  | _ + 1, args, [] => if args.allUsed then some [] else none
  | fuel + 1, args, '%' :: '%' :: rest => (renderFrom limits fuel args rest).map ('%'.toNat :: ·)
  | fuel + 1, args, '%' :: rest => do
    let (d, args, rest) ← directive? args rest
    let (v, args) ← args.take?
    let here ← d.render? limits v
    let after ← renderFrom limits fuel args rest
    some (here ++ after)
  | fuel + 1, args, c :: rest => (renderFrom limits fuel args rest).map (c.toNat :: ·)

/-- The code points of the message of a template, halves of pairs among them. Without arguments the
template is the message. -/
def render? (limits : Json.Limits) (template : String) (args : List Value) : Option (List Nat) :=
  if args.isEmpty then some (template.toList.map Char.toNat)
  else renderFrom limits (template.length + 1) (.ofList args) template.toList

end StatusRelay.Template
