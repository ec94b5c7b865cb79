import StatusRelay.Time.Moment
import StatusRelay.Text.Digit

namespace StatusRelay.Rfc3339

/-- The pieces of a text that has the shape of a timestamp. It takes decimal digits of any script
and lets a line feed end the text; the numbers are read from ASCII alone. -/
structure Shape where
  year : List Char
  month : List Char
  day : List Char
  hour : List Char
  minute : List Char
  second : List Char
  fraction : List Char
  /-- Sign, hours and minutes of the offset; `none` stands for universal time. -/
  zone : Option (Char × List Char × List Char)
deriving DecidableEq, Repr

def takeDigits (n : Nat) (cs : List Char) : Option (List Char × List Char) :=
  let ds := cs.take n
  if ds.length == n && ds.all Text.isDecimalDigit then some (ds, cs.drop n) else none

def expect (p : Char → Bool) : List Char → Option (List Char)
  | c :: cs => if p c then some cs else none
  | [] => none

def takeFraction (cs : List Char) : List Char × List Char :=
  match cs with
  | '.' :: rest =>
    let (ds, after) := rest.span Text.isDecimalDigit
    if ds.isEmpty then ([], cs) else (ds, after)
  | _ => ([], cs)

def takeZone (cs : List Char) : Option (Option (Char × List Char × List Char) × List Char) :=
  match cs with
  | 'Z' :: rest => some (none, rest)
  | 'z' :: rest => some (none, rest)
  | sign :: rest =>
    if sign == '+' || sign == '-' then do
      let (hours, rest) ← takeDigits 2 rest
      let rest ← expect (· == ':') rest
      let (minutes, rest) ← takeDigits 2 rest
      some (some (sign, hours, minutes), rest)
    else none
  | [] => none

/-- The text ends here, or after one line feed. -/
def atEnd (cs : List Char) : Bool := cs == [] || cs == ['\n']

def shape? (cs : List Char) : Option Shape := do
  let (year, cs) ← takeDigits 4 cs
  let cs ← expect (· == '-') cs
  let (month, cs) ← takeDigits 2 cs
  let cs ← expect (· == '-') cs
  let (day, cs) ← takeDigits 2 cs
  let cs ← expect (fun c ↦ c == 'T' || c == 't') cs
  let (hour, cs) ← takeDigits 2 cs
  let cs ← expect (· == ':') cs
  let (minute, cs) ← takeDigits 2 cs
  let cs ← expect (· == ':') cs
  let (second, cs) ← takeDigits 2 cs
  let (fraction, cs) := takeFraction cs
  let (zone, cs) ← takeZone cs
  if atEnd cs then some ⟨year, month, day, hour, minute, second, fraction, zone⟩ else none

def number? (cs : List Char) : Option Nat :=
  if cs.all Text.isAsciiDigit then some (Nat.ofDigitChars 10 cs 0) else none

def microDigits (fraction : List Char) : List Char :=
  fraction.take 6 ++ List.replicate (6 - (fraction.take 6).length) '0'

/-- The offset in seconds. Its minutes may exceed 59 as long as the whole stays below a day. -/
def offset? (zone : Option (Char × List Char × List Char)) : Option Int :=
  match zone with
  | none => some 0
  | some (sign, hours, minutes) => do
    let h ← number? hours
    let m ← number? minutes
    let size := h * 3600 + m * 60
    if size < 86400 then some (if sign == '-' then -(size : Int) else size) else none

def Shape.moment? (s : Shape) : Option Moment := do
  let year ← number? s.year
  let month ← number? s.month
  let day ← number? s.day
  let hour ← number? s.hour
  let minute ← number? s.minute
  let second ← number? s.second
  let micro ← number? (microDigits s.fraction)
  let offset ← offset? s.zone
  let m : Moment := ⟨⟨year, month, day⟩, hour, minute, second, micro, offset⟩
  if m.Valid then some m else none

end StatusRelay.Rfc3339
