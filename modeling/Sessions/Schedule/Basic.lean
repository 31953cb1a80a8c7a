import Sessions.Schedule.Field
import Sessions.Time.Date

/-!
# Sessions.Schedule.Basic

Schedules that say at which times something is to be done, field by field: minutes, hours, days of
the month, months, days of the week, with years behind and seconds in front if there are more
fields. A day is one of the schedule if it fits the days of the month or the days of the week; a
side that allows every day has no say unless both do.
-/

namespace Sessions

open Time

/-- The days of the month that a schedule names. -/
structure Schedule.MonthDays where
  /-- Whether the field leaves days out. -/
  restricted : Bool := true
  days : List Nat := []
  /-- Days that give way to the nearest day from Monday to Friday. -/
  workdays : List Nat := []
  last : Bool := false
  lastWorkday : Bool := false
deriving DecidableEq, Repr, Inhabited

/-- The days of the week that a schedule names. -/
structure Schedule.WeekDays where
  restricted : Bool := true
  days : List Nat := []
  /-- Days of the week in a given week of the month, which is counted from zero. -/
  inWeek : List (Nat × Nat) := []
  /-- Days of the week in the last seven days of the month. -/
  inLastWeek : List Nat := []
deriving DecidableEq, Repr, Inhabited

structure Schedule where
  seconds : List Nat
  minutes : List Nat
  hours : List Nat
  monthDays : Schedule.MonthDays
  months : List Nat
  weekDays : Schedule.WeekDays
  years : List Nat
deriving DecidableEq, Repr, Inhabited

namespace Schedule

/-- The text without its last character, if that is the given one. -/
def withoutLast? (c : Char) (s : String) : Option String :=
  match s.toList.reverse with
  | d :: rest => if d = c then some (String.ofList rest.reverse) else none
  | [] => none

def MonthDays.add (m : MonthDays) : Entry → Except Error MonthDays
  | .all => .ok { m with restricted := false, days := allValues .dayOfMonth ++ m.days }
  | .one n => .ok { m with days := n :: m.days }
  | .span first last step => .ok { m with days := spanValues first last step ++ m.days }
  | .other text =>
    let t := Text.lower text
    if t = "l" then .ok { m with last := true }
    else if t = "lw" then .ok { m with lastWorkday := true }
    else
      match (withoutLast? 'w' t).bind (TimeUnit.value? .dayOfMonth) with
      | some n => .ok { m with workdays := n :: m.workdays }
      | none => .error (.badEntry .dayOfMonth text)

/-- Adds an entry to the days of the week. A range up to Sunday ends with the week. -/
def WeekDays.add (w : WeekDays) : Entry → Except Error WeekDays
  | .all => .ok { w with restricted := false, days := allValues .dayOfWeek ++ w.days }
  | .one n => .ok { w with days := n :: w.days }
  | .span first last step =>
    .ok { w with days := spanValues first (if last = 0 then 6 else last) step ++ w.days }
  | .other text =>
    let t := Text.lower text
    match (withoutLast? 'l' t).bind (TimeUnit.value? .dayOfWeek) with
    | some n => .ok { w with inLastWeek := n :: w.inLastWeek }
    | none =>
      let inWeek? : Option (Nat × Nat) := do
        let (day, week) ← splitOnce? '#' t
        let day ← TimeUnit.value? .dayOfWeek day
        let week ← (TimeUnit.number? 1 week).filter fun n => 1 ≤ n && n ≤ 5
        return (day, week - 1)
      match inWeek? with
      | some e => .ok { w with inWeek := e :: w.inWeek }
      | none => .error (.badEntry .dayOfWeek text)

def readMonthDays (text : String) : Except Error MonthDays := do
  let entries ← readEntries .dayOfMonth text
  entries.foldlM MonthDays.add {}

def readWeekDays (text : String) : Except Error WeekDays := do
  let entries ← readEntries .dayOfWeek text
  entries.foldlM WeekDays.add {}

/-- Names for common schedules, with the schedules they stand for. -/
def shorthands : List (String × String) :=
  [("@yearly", "0 0 0 1 1 * *"), ("@annually", "0 0 0 1 1 * *"), ("@monthly", "0 0 0 1 * * *"),
   ("@weekly", "0 0 0 * * 0 *"), ("@daily", "0 0 0 * * * *"), ("@hourly", "0 0 * * * * *")]

/-- Writes out the names of common schedules wherever they stand. -/
def expand (text : String) : String :=
  shorthands.foldl (fun t s => s.2.intercalate (t.splitOn s.1)) text

def isSeparator (c : Char) : Bool :=
  c == ' ' || c == '\t' || c == '\n' || c == '\r' || c == '\x0c'

/-- The fields of a text: what stands between blanks. -/
def fieldsOf (text : String) : List String :=
  (text.splitToList isSeparator).filter (· ≠ "")

/-- Reads a schedule; fields after the seventh are passed over. -/
def parse (text : String) : Except Error Schedule := do
  let build (second minute hour dom month dow : String) (year : Option String) :
      Except Error Schedule := do
    let seconds ← readValues .second second
    let minutes ← readValues .minute minute
    let hours ← readValues .hour hour
    let monthDays ← readMonthDays dom
    let months ← readValues .month month
    let weekDays ← readWeekDays dow
    let years ← match year with
      | some y => readValues .year y
      | none => .ok (allValues .year)
    return { seconds, minutes, hours, monthDays, months, weekDays, years }
  match fieldsOf (expand text) with
  | second :: minute :: hour :: dom :: month :: dow :: year :: _ =>
    build second minute hour dom month dow (some year)
  | [minute, hour, dom, month, dow, year] => build "0" minute hour dom month dow (some year)
  | [minute, hour, dom, month, dow] => build "0" minute hour dom month dow none
  | _ => .error .missingFields

/-- The day from Monday to Friday nearest to a day, in the same month. -/
def nearestWorkday (year : Int) (month day : Nat) : Nat :=
  match (Date.mk year month day).weekday with
  | 6 => if 1 < day then day - 1 else day + 2
  | 0 => if day < monthLength year month then day + 1 else day - 2
  | _ => day

/-- The days of a month that the field for days of the month names. -/
def MonthDays.within (m : MonthDays) (year : Int) (month : Nat) : List Nat :=
  let length := monthLength year month
  (if m.last then [length] else []) ++
    (if m.lastWorkday then [nearestWorkday year month length] else []) ++
    m.days.filter (· ≤ length) ++
    (m.workdays.filter (· ≤ length)).map (nearestWorkday year month)

/-- The days of a month that the field for days of the week names. -/
def WeekDays.within (w : WeekDays) (year : Int) (month : Nat) : List Nat :=
  let length := monthLength year month
  let first := (Date.mk year month 1).weekday
  let origin := length - 6
  let lastFirst := (Date.mk year month origin).weekday
  let from1 (week day : Nat) : Nat := 1 + 7 * week + (7 - first + day) % 7
  ((List.range 5).flatMap (fun week => w.days.map (from1 week)) ++
    w.inWeek.map (fun e => from1 e.2 e.1) ++
    w.inLastWeek.map (fun day => origin + (7 - lastFirst + day) % 7)).filter (· ≤ length)

/-- The days of a month on which the schedule has times, in order. -/
def daysIn (s : Schedule) (year : Int) (month : Nat) : List Nat :=
  if !s.monthDays.restricted && !s.weekDays.restricted then
    (List.range (monthLength year month)).map (· + 1)
  else
    sortedValues
      ((if s.monthDays.restricted then s.monthDays.within year month else []) ++
        (if s.weekDays.restricted then s.weekDays.within year month else []))

end Schedule

end Sessions
