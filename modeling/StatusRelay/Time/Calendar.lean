
namespace StatusRelay

structure Date where
  year : Nat
  month : Nat
  day : Nat
deriving DecidableEq, Repr, Inhabited

namespace Date

def isLeap (year : Nat) : Bool := year % 4 == 0 && (year % 100 != 0 || year % 400 == 0)

def daysInMonth (year month : Nat) : Nat :=
  match month with
  | 2 => if isLeap year then 29 else 28
  | 4 => 30
  | 6 => 30
  | 9 => 30
  | 11 => 30
  | _ => 31

def Valid (d : Date) : Prop :=
  1 ≤ d.year ∧ d.year ≤ 9999 ∧ 1 ≤ d.month ∧ d.month ≤ 12 ∧
    1 ≤ d.day ∧ d.day ≤ daysInMonth d.year d.month

instance (d : Date) : Decidable d.Valid := by unfold Valid; infer_instance

def daysBeforeYear (year : Nat) : Nat :=
  let y := year - 1
  365 * y + y / 4 - y / 100 + y / 400

def daysBeforeMonth (year : Nat) : Nat → Nat
  | 0 => 0
  | 1 => 0
  | month + 1 => daysBeforeMonth year month + daysInMonth year month

def dayNumber (d : Date) : Nat :=
  daysBeforeYear d.year + daysBeforeMonth d.year d.month + (d.day - 1)

/-- The year that contains a day: whole cycles of 400, 100, 4 and 1 years are taken out. The last
day of a cycle would start a fifth part, hence the two bounds. -/
def yearOf (n : Nat) : Nat :=
  let n400 := n % 146097
  let c100 := min (n400 / 36524) 3
  let n100 := n400 - c100 * 36524
  let n4 := n100 % 1461
  let c1 := min (n4 / 365) 3
  400 * (n / 146097) + 100 * c100 + 4 * (n100 / 1461) + c1 + 1

def monthAndDay (year : Nat) : Nat → Nat → Nat → Nat × Nat
  | 0, month, rest => (month, rest + 1)
  | left + 1, month, rest =>
    if rest < daysInMonth year month then (month, rest + 1)
    else monthAndDay year left (month + 1) (rest - daysInMonth year month)

def ofDayNumber (n : Nat) : Date :=
  let year := yearOf n
  let (month, day) := monthAndDay year 11 1 (n - daysBeforeYear year)
  ⟨year, month, day⟩

end Date
end StatusRelay
