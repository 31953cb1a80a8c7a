import Sessions.Time.Date

/-!
# Sessions.Time.Instant

Points in time to the nanosecond, and their text in universal time.
-/

namespace Sessions.Time

/-- A point in time, in nanoseconds from the start of the year 1. -/
structure Instant where
  nanoseconds : Int
deriving DecidableEq, Repr, Inhabited

namespace Instant

def nanosPerSecond : Int := 1000000000

def secondsPerDay : Int := 86400

/-- The number of whole seconds before the instant. -/
def seconds (t : Instant) : Int :=
  t.nanoseconds / nanosPerSecond

def date (t : Instant) : Date :=
  Date.ofDays (t.seconds / secondsPerDay)

/-- The seconds of the day before the instant. -/
def secondOfDay (t : Instant) : Nat :=
  (t.seconds % secondsPerDay).toNat

def hour (t : Instant) : Nat := t.secondOfDay / 3600

def minute (t : Instant) : Nat := t.secondOfDay / 60 % 60

def second (t : Instant) : Nat := t.secondOfDay % 60

/-- The nanoseconds after the last whole second. -/
def fraction (t : Instant) : Nat :=
  (t.nanoseconds % nanosPerSecond).toNat

/-- The instant of a day and a time of it. -/
def ofClock (d : Date) (hour minute second fraction : Nat) : Instant :=
  ⟨(d.toDays * secondsPerDay + (hour * 3600 + minute * 60 + second : Nat)) * nanosPerSecond +
    (fraction : Int)⟩

/-- The start of the year 1. -/
def zero : Instant := ⟨0⟩

/-- A number with at least the given count of digits. -/
def padded (width n : Nat) : String :=
  let digits := toString n
  String.ofList (List.replicate (width - digits.length) '0') ++ digits

/-- Day and time to the second, as in `2024-03-01T12:00:00`. -/
def toSecondsText (t : Instant) : String :=
  let d := t.date
  padded 4 d.year.toNat ++ "-" ++ padded 2 d.month ++ "-" ++ padded 2 d.day ++ "T" ++
    padded 2 t.hour ++ ":" ++ padded 2 t.minute ++ ":" ++ padded 2 t.second

/-- The text of the instant, with as many digits of the fraction as it needs. -/
def render (t : Instant) : String :=
  let digits := ((padded 9 t.fraction).toList.reverse.dropWhile (· = '0')).reverse
  t.toSecondsText ++ (if digits.isEmpty then "" else "." ++ String.ofList digits) ++ "Z"

/-- The text of the instant with all nine digits of the fraction, so that texts sort as the
instants do. -/
def renderFull (t : Instant) : String :=
  t.toSecondsText ++ "." ++ padded 9 t.fraction ++ "Z"

/-- Whether the year has at most four digits. -/
def hasShortYear (t : Instant) : Bool :=
  0 ≤ t.date.year && t.date.year ≤ 9999

/-- Reads a number of exactly so many digits. -/
def digits? (width : Nat) (cs : List Char) : Option (Nat × List Char) :=
  let ds := cs.take width
  if ds.length = width && ds.all Char.isDigit then
    some (ds.foldl (fun n c => 10 * n + (c.toNat - '0'.toNat)) 0, cs.drop width)
  else none

/-- Reads a number of one or two digits. -/
def short? (cs : List Char) : Option (Nat × List Char) :=
  match digits? 2 cs with
  | some r => some r
  | none => digits? 1 cs

/-- Reads one given character. -/
def expect? (c : Char) : List Char → Option (List Char)
  | d :: rest => if d = c then some rest else none
  | [] => none

/-- Reads a fraction of a second, after a point or a comma, if there is one; digits after the ninth
are passed over. -/
def readFraction (cs : List Char) : Nat × List Char :=
  let ds := cs.tail.takeWhile Char.isDigit
  if (cs.head? = some '.' || cs.head? = some ',') && !ds.isEmpty then
    let nine := ds.take 9 ++ List.replicate (9 - ds.length) '0'
    (nine.foldl (fun n c => 10 * n + (c.toNat - '0'.toNat)) 0, cs.tail.dropWhile Char.isDigit)
  else (0, cs)

/-- Reads the offset from universal time, in minutes. -/
def offset? (cs : List Char) : Option Int :=
  match cs with
  | ['Z'] => some 0
  | sign :: rest => do
    let (hours, rest) ← digits? 2 rest
    let rest ← expect? ':' rest
    let (minutes, rest) ← digits? 2 rest
    let n : Int := hours * 60 + minutes
    if !rest.isEmpty || 24 < hours || 60 < minutes then none
    else if sign = '+' then some n
    else if sign = '-' then some (-n)
    else none
  | [] => none

/-- Reads a time of the day: hours, minutes, seconds and a fraction. -/
def clock? (cs : List Char) : Option ((Nat × Nat × Nat × Nat) × List Char) := do
  let (hour, cs) ← short? cs
  let cs ← expect? ':' cs
  let (minute, cs) ← digits? 2 cs
  let cs ← expect? ':' cs
  let (second, cs) ← digits? 2 cs
  let (fraction, cs) := readFraction cs
  if 24 ≤ hour || 60 ≤ minute || 60 ≤ second then none
  return ((hour, minute, second, fraction), cs)

/-- Reads an instant from its text, as in `2024-03-01T12:00:00.5-05:00`. -/
def parse? (text : String) : Option Instant := do
  let (year, cs) ← digits? 4 text.toList
  let cs ← expect? '-' cs
  let (month, cs) ← digits? 2 cs
  let cs ← expect? '-' cs
  let (day, cs) ← digits? 2 cs
  let cs ← expect? 'T' cs
  let ((hour, minute, second, fraction), cs) ← clock? cs
  let offset ← offset? cs
  let d : Date := ⟨year, month, day⟩
  if !d.isValid then none
  let t := ofClock d hour minute second fraction
  return ⟨t.nanoseconds - offset * 60 * nanosPerSecond⟩

end Instant

end Sessions.Time
