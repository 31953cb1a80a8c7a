/-!
# Sessions.Time.Date

Days of the calendar, counted from the first day of the year 1.
-/

namespace Sessions.Time

structure Date where
  year : Int
  month : Nat
  day : Nat
deriving DecidableEq, Repr, Inhabited

def isLeap (year : Int) : Bool :=
  year % 4 = 0 && (year % 100 ≠ 0 || year % 400 = 0)

/-- The number of days of a month; none for a number that is no month. -/
def monthLength (year : Int) (month : Nat) : Nat :=
  match month with
  | 1 | 3 | 5 | 7 | 8 | 10 | 12 => 31
  | 4 | 6 | 9 | 11 => 30
  | 2 => if isLeap year then 29 else 28
  | _ => 0

/-- The number of days before a year. -/
def daysBeforeYear (year : Int) : Int :=
  let n := year - 1
  365 * n + n / 4 - n / 100 + n / 400

/-- The number of days of the year before a month. -/
def daysBeforeMonth (year : Int) : Nat → Nat
  | 0 => 0
  | month + 1 => daysBeforeMonth year month + monthLength year month

namespace Date

/-- Whether there is such a day. -/
def isValid (d : Date) : Bool :=
  1 ≤ d.month && d.month ≤ 12 && 1 ≤ d.day && d.day ≤ monthLength d.year d.month

/-- The number of days before the day. -/
def toDays (d : Date) : Int :=
  daysBeforeYear d.year + daysBeforeMonth d.year d.month + (d.day - 1 : Int)

/-- The year of a day. -/
def yearOfDays (n : Int) : Int :=
  let guess := n * 400 / 146097 + 1
  if daysBeforeYear (guess + 1) ≤ n then guess + 1
  else if n < daysBeforeYear guess then guess - 1
  else guess

/-- Goes from a month to the month of a day, given by its number in the year; `left` months are
still to come. -/
def monthOfDay (year : Int) : (left month : Nat) → Nat → Nat × Nat
  | 0, month, n => (month, n)
  | left + 1, month, n =>
    if n < monthLength year month then (month, n)
    else monthOfDay year left (month + 1) (n - monthLength year month)

def ofDays (n : Int) : Date :=
  let year := yearOfDays n
  let (month, rest) := monthOfDay year 11 1 (n - daysBeforeYear year).toNat
  ⟨year, month, rest + 1⟩

/-- The day of the week; 0 is Sunday. -/
def weekday (d : Date) : Nat :=
  ((d.toDays + 1) % 7).toNat

end Date

end Sessions.Time
