import StatusRelay.Time.Calendar
import StatusRelay.Number.Shortest

namespace StatusRelay

/-- A date and a time of day, read on a clock that differs from universal time by an offset. -/
structure Moment where
  date : Date
  hour : Nat
  minute : Nat
  second : Nat
  micro : Nat
  /-- Seconds by which the clock is ahead of universal time. -/
  offset : Int
deriving DecidableEq, Repr, Inhabited

namespace Moment

def Valid (m : Moment) : Prop :=
  m.date.Valid ∧ m.hour ≤ 23 ∧ m.minute ≤ 59 ∧ m.second ≤ 59 ∧ m.micro ≤ 999999 ∧
    m.offset.natAbs < 86400

instance (m : Moment) : Decidable m.Valid := by unfold Valid; infer_instance

def localSeconds (m : Moment) : Nat :=
  m.date.dayNumber * 86400 + m.hour * 3600 + m.minute * 60 + m.second

def seconds (m : Moment) : Int := m.localSeconds - m.offset

def instant (m : Moment) : Int := m.seconds * 1000000 + m.micro

def unixEpoch : Int := 62135596800

def unixSeconds (m : Moment) : Int := m.seconds - unixEpoch

def localLimit : Nat := 3652059 * 86400

/-- The moment at which a clock shows the given seconds; `none` outside the years 1 to 9999. -/
def ofLocalSeconds? (s : Int) (micro : Nat) (offset : Int) : Option Moment :=
  if 0 ≤ s ∧ s < localLimit then
    let n := s.toNat
    let time := n % 86400
    some ⟨Date.ofDayNumber (n / 86400), time / 3600, time / 60 % 60, time % 60, micro, offset⟩
  else none

def addSeconds? (m : Moment) (s : Int) : Option Moment :=
  ofLocalSeconds? (m.localSeconds + s) m.micro m.offset

def truncate (m : Moment) : Moment := { m with micro := 0 }

def toUtc? (m : Moment) : Option Moment := ofLocalSeconds? m.seconds m.micro 0

/-- The start of year 1 in universal time, the mark of a time that is not set. -/
def zero : Moment := ⟨⟨1, 1, 1⟩, 0, 0, 0, 0, 0⟩

def padded (width n : Nat) : List Char := FloatLayout.padLeft width (Nat.toDigits 10 n)

def clockText (m : Moment) : List Char :=
  padded 2 m.hour ++ ':' :: padded 2 m.minute ++ ':' :: padded 2 m.second

def dayText (m : Moment) : List Char :=
  '-' :: padded 2 m.date.month ++ '-' :: padded 2 m.date.day

def offsetText (offset : Int) : List Char :=
  let n := offset.natAbs
  (if offset < 0 then '-' else '+') :: padded 2 (n / 3600) ++ ':' :: padded 2 (n / 60 % 60) ++
    (if n % 60 == 0 then [] else ':' :: padded 2 (n % 60))

def isoText (m : Moment) : List Char :=
  padded 4 m.date.year ++ m.dayText ++ 'T' :: m.clockText ++
    (if m.micro == 0 then [] else '.' :: padded 6 m.micro) ++ offsetText m.offset

def iso (m : Moment) : String := String.ofList m.isoText

def stampText (m : Moment) : List Char :=
  Nat.toDigits 10 m.date.year ++ m.dayText ++ 'T' :: m.clockText ++ ['Z']

/-- The instant in whole seconds of universal time, the year without leading zeros; `none` where
universal time leaves the calendar. -/
def stamp? (m : Moment) : Option String :=
  m.toUtc?.map fun u ↦ String.ofList u.stampText

end Moment
end StatusRelay
