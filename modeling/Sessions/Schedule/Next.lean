import Sessions.Schedule.Basic
import Sessions.Time.Instant

/-!
# Sessions.Schedule.Next

The next time of a schedule. The fields count like a clock: the smallest field that can go on goes
on, and those below it start over.
-/

namespace Sessions.Schedule

open Time

/-- The next time of a schedule. A schedule with an empty field for the time of day or for the month
has no first time to start over from: asked for it, the answer is undefined. -/
inductive NextTime where
  | never
  | moment (t : Instant)
  | undefined
deriving DecidableEq, Repr

/-- The first value above a bound. -/
def above? (n : Nat) (ns : List Nat) : Option Nat :=
  ns.find? (n < ·)

/-- The instant of a day at the first time of day. -/
def onDay (s : Schedule) (d : Date) : NextTime :=
  match s.hours, s.minutes, s.seconds with
  | h :: _, m :: _, sec :: _ => .moment (.ofClock d h m sec 0)
  | _, _, _ => .undefined

/-- The months of the schedule after a given one. The month before the first is the last one of the
year before. -/
def monthsAfter (s : Schedule) (year month : Nat) : List (Nat × Nat) :=
  (s.months.filter (month < ·)).map (year, ·) ++
    (s.years.filter (year < ·)).flatMap fun y =>
      s.months.map fun m => if m = 0 then (y - 1, 12) else (y, m)

/-- The first time in one of some months. -/
def inMonths (s : Schedule) (months : List (Nat × Nat)) : NextTime :=
  match months.findSome? fun (y, m) => (s.daysIn y m).head?.map fun d => Date.mk y m d with
  | some d => s.onDay d
  | none => if s.hours.isEmpty || s.minutes.isEmpty || s.seconds.isEmpty then .undefined else .never

/-- The first time in a month after a given one. -/
def afterMonth (s : Schedule) (year month : Nat) : NextTime :=
  match s.monthsAfter year month with
  | [] => if s.months.isEmpty && s.years.any (year < ·) then .undefined else .never
  | months => s.inMonths months

/-- The first time on a day after a given one. -/
def afterDay (s : Schedule) (year month day : Nat) : NextTime :=
  match above? day (s.daysIn year month) with
  | some d => s.onDay ⟨year, month, d⟩
  | none => s.afterMonth year month

/-- The first time in an hour after a given one. -/
def afterHour (s : Schedule) (year month day hour : Nat) : NextTime :=
  match above? hour s.hours, s.minutes, s.seconds with
  | some h, m :: _, sec :: _ => .moment (.ofClock ⟨year, month, day⟩ h m sec 0)
  | some _, _, _ => .undefined
  | none, _, _ => s.afterDay year month day

/-- The first time in a minute after a given one. -/
def afterMinute (s : Schedule) (year month day hour minute : Nat) : NextTime :=
  match above? minute s.minutes, s.seconds with
  | some m, sec :: _ => .moment (.ofClock ⟨year, month, day⟩ hour m sec 0)
  | some _, [] => .undefined
  | none, _ => s.afterHour year month day hour

/-- The first time after an instant. -/
def next (s : Schedule) (now : Instant) : NextTime :=
  let year := now.date.year.toNat
  let month := now.date.month
  let day := now.date.day
  if s.years.all (· < year) then .never
  else if !s.years.contains year then s.afterMonth year 12
  else if !s.months.contains month then s.afterMonth year month
  else if !(s.daysIn year month).contains day then s.afterDay year month day
  else if !s.hours.contains now.hour then s.afterHour year month day now.hour
  else if !s.minutes.contains now.minute then s.afterMinute year month day now.hour now.minute
  else
    match above? now.second s.seconds with
    | some sec => .moment (.ofClock ⟨year, month, day⟩ now.hour now.minute sec 0)
    | none => s.afterMinute year month day now.hour now.minute

/-- The longest wait that is counted, about 292 years. -/
def longestWait : Int := Int.pow 2 63 - 1

/-- The nanoseconds from an instant to the next time: none if there is no next time, and nothing at
all if the schedule has no answer. -/
def wait? (s : Schedule) (now : Instant) : Option (Option Int) :=
  if now = .zero then some none
  else
    match s.next now with
    | .undefined => none
    | .never => some none
    | .moment t => some (some (min (t.nanoseconds - now.nanoseconds) longestWait))

end Sessions.Schedule
