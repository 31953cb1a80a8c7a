import Sessions.Time.Instant

/-!
# Sessions.Time.Timestamp

Texts that look like a point in time: a day, perhaps with a time of it. Months, days and the parts
of the time may be written with one digit.
-/

namespace Sessions.Time

open Instant

/-- Reads a day whose month and day may have one digit. -/
def day? (cs : List Char) : Option (List Char) := do
  let (year, cs) ← digits? 4 cs
  let cs ← expect? '-' cs
  let (month, cs) ← short? cs
  let cs ← expect? '-' cs
  let (day, cs) ← short? cs
  if (Date.mk year month day).isValid then some cs else none

/-- Reads a time of the day whose parts may have one digit. -/
def shortClock? (cs : List Char) : Option (List Char) := do
  let (hour, cs) ← short? cs
  let cs ← expect? ':' cs
  let (minute, cs) ← short? cs
  let cs ← expect? ':' cs
  let (second, cs) ← short? cs
  if 24 ≤ hour || 60 ≤ minute || 60 ≤ second then none else some (readFraction cs).2

/-- Whether a text is a day; a day and a time after blanks; or a day, the letter T, a time and its
offset from universal time. -/
def isTimestamp (text : String) : Bool :=
  match day? text.toList with
  | none => false
  | some [] => true
  | some (c :: rest) =>
    if c = 'T' || c = 't' then ((shortClock? rest).bind offset?).isSome
    else c = ' ' && shortClock? (rest.dropWhile (· = ' ')) = some []

end Sessions.Time
