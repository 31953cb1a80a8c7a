import Sessions.Text.Lower

/-!
# Sessions.Schedule.Field

The fields of a schedule. A field is a list of entries with commas between them; an entry names one
value, a range of values or all of them, and may ask for every so many. What counts as a value and
which values there are depends on the field.
-/

namespace Sessions.Schedule

/-- What a field stands for. -/
inductive TimeUnit where
  | second
  | minute
  | hour
  | dayOfMonth
  | month
  | dayOfWeek
  | year
deriving DecidableEq, Repr

namespace TimeUnit

def name : TimeUnit → String
  | .second => "second"
  | .minute => "minute"
  | .hour => "hour"
  | .dayOfMonth => "day-of-month"
  | .month => "month"
  | .dayOfWeek => "day-of-week"
  | .year => "year"

def least : TimeUnit → Nat
  | .dayOfMonth | .month => 1
  | .year => 1970
  | _ => 0

def most : TimeUnit → Nat
  | .second | .minute => 59
  | .hour => 23
  | .dayOfMonth => 31
  | .month => 12
  | .dayOfWeek => 6
  | .year => 2099

def months : List String :=
  ["january", "february", "march", "april", "may", "june", "july", "august", "september",
   "october", "november", "december"]

def weekdays : List String :=
  ["sunday", "monday", "tuesday", "wednesday", "thursday", "friday", "saturday"]

/-- The place of a name in a list, in full or by its first three letters. -/
def named? (names : List String) (text : String) : Option Nat :=
  names.findIdx? fun n => n == text || String.ofList (n.toList.take 3) == text

/-- The number that a text of so many digits at most writes. -/
def number? (digits : Nat) (text : String) : Option Nat :=
  if text.length ≤ digits && !text.isEmpty && text.toList.all Char.isDigit then text.toNat? else none

/-- The value that a text names. Sunday is the first day of the week and also the seventh. Months and
days of the week are named without a zero in front: with one, they are zero. -/
def value? (u : TimeUnit) (text : String) : Option Nat :=
  let within (n : Option Nat) (most : Nat) : Option Nat :=
    n.filter fun n => u.least ≤ n && n ≤ most
  let unpadded (n : Nat) : Nat := if text.length = 2 && n < 10 then 0 else n
  match u with
  | .year => within (number? 4 text) u.most
  | .month => (within (number? 2 text) u.most).map unpadded <|> (named? months text).map (· + 1)
  | .dayOfWeek =>
    (within (number? 2 text) 7).map (fun n => unpadded n % 7) <|> named? weekdays text
  | _ => within (number? 2 text) u.most

end TimeUnit

/-- An entry of a field. -/
inductive Entry where
  | all
  | one (n : Nat)
  | span (first last step : Nat)
  /-- An entry that only some fields understand. -/
  | other (text : String)
deriving DecidableEq, Repr

/-- What is wrong with a schedule. -/
inductive Error where
  | missingFields
  | missingEntry (u : TimeUnit)
  | badInterval (text : String)
  | badEntry (u : TimeUnit) (text : String)
deriving DecidableEq, Repr

def Error.message : Error → String
  | .missingFields => "missing field(s)"
  | .missingEntry u => u.name ++ " field: missing directive"
  | .badInterval t => "invalid interval " ++ t
  | .badEntry u t => "syntax error in " ++ u.name ++ " field: '" ++ t ++ "'"

/-- The parts of a text before and after the only one of a character. -/
def splitOnce? (c : Char) (s : String) : Option (String × String) :=
  match s.splitOn (String.singleton c) with
  | [a, b] => some (a, b)
  | _ => none

/-- A value or a range, without an interval. -/
def range? (u : TimeUnit) (text : String) : Option (Nat × Option Nat) :=
  match u.value? text with
  | some n => some (n, none)
  | none => do
    let (a, b) ← splitOnce? '-' text
    let first ← u.value? a
    let last ← u.value? b
    return (first, some last)

/-- The length of an interval; one that is not a small number is zero. -/
def interval (text : String) : Nat :=
  match TimeUnit.number? 2 text with
  | some n => if n < 60 then n else 0
  | none => ((TimeUnit.number? 4 text).filter fun n => 1970 ≤ n && n ≤ 2099).getD 0

/-- Reads an entry. -/
def readEntry (u : TimeUnit) (written : String) : Except Error Entry :=
  let text := Text.lower written
  if text = "*" || text = "?" then .ok .all
  else
    match splitOnce? '/' text with
    | none =>
      match range? u text with
      | some (n, none) => .ok (.one n)
      | some (first, some last) => .ok (.span first last 1)
      | none => .ok (.other written)
    | some (a, b) =>
      let bounds : Option (Nat × Nat) :=
        if a = "*" then some (u.least, u.most)
        else (range? u a).map fun r => (r.1, r.2.getD u.most)
      if b.isEmpty || !b.toList.all Char.isDigit then .ok (.other written)
      else
        match bounds with
        | none => .ok (.other written)
        | some (first, last) =>
          let step := interval b
          if step < 1 || u.most < step then .error (.badInterval text)
          else .ok (.span first last step)

/-- The entries of a field. -/
def readEntries (u : TimeUnit) (text : String) : Except Error (List Entry) :=
  let texts := (text.splitOn ",").filter (· ≠ "")
  if texts.isEmpty then .error (.missingEntry u) else texts.mapM (readEntry u)

/-- The values from one to another, every so many. -/
def spanValues (first last step : Nat) : List Nat :=
  (List.range (last + 1)).filter fun n => first ≤ n && (n - first) % step == 0

def allValues (u : TimeUnit) : List Nat :=
  spanValues u.least u.most 1

/-- The values in order, each once. -/
def sortedValues (ns : List Nat) : List Nat :=
  (ns.mergeSort fun a b => a ≤ b).eraseDups

/-- The values of the entries of a field that names values only. -/
def valuesOf (u : TimeUnit) : List Nat → List Entry → Except Error (List Nat)
  | ns, [] => .ok (sortedValues ns)
  | _, .all :: _ => .ok (allValues u)
  | ns, .one n :: rest => valuesOf u (n :: ns) rest
  | ns, .span first last step :: rest => valuesOf u (spanValues first last step ++ ns) rest
  | _, .other text :: _ => .error (.badEntry u text)

/-- Reads a field that names values only. -/
def readValues (u : TimeUnit) (text : String) : Except Error (List Nat) := do
  let entries ← readEntries u text
  valuesOf u [] entries

end Sessions.Schedule
