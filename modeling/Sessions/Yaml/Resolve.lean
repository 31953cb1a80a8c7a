import Sessions.Datum
import Sessions.Decimal.Word
import Sessions.Time.Timestamp

/-!
# Sessions.Yaml.Resolve

What a plain scalar means: nothing, a truth value, a number or a text.
-/

namespace Sessions.Yaml

/-- The words for nothing and for the truth values, and the numbers beyond the finite ones. -/
def words : List (String × Datum) :=
  ((["", "~", "null", "Null", "NULL"].map fun w => (w, Datum.null)) ++
   (["y", "Y", "yes", "Yes", "YES", "true", "True", "TRUE", "on", "On", "ON"].map
     fun w => (w, Datum.bool true)) ++
   (["n", "N", "no", "No", "NO", "false", "False", "FALSE", "off", "Off", "OFF"].map
     fun w => (w, Datum.bool false)) ++
   ([".nan", ".NaN", ".NAN"].map fun w => (w, Datum.float Double.nan)) ++
   ([".inf", ".Inf", ".INF", "+.inf", "+.Inf", "+.INF"].map
     fun w => (w, Datum.float (Double.infinity false))) ++
   (["-.inf", "-.Inf", "-.INF"].map fun w => (w, Datum.float (Double.infinity true))))

def digitValue? (base : Nat) (c : Char) : Option Nat :=
  let n? : Option Nat :=
    if c.isDigit then some (c.toNat - '0'.toNat)
    else if 'a' ≤ c && c ≤ 'f' then some (c.toNat - 'a'.toNat + 10)
    else if 'A' ≤ c && c ≤ 'F' then some (c.toNat - 'A'.toNat + 10)
    else none
  n?.filter (· < base)

/-- The number that digits write in a base; no digits write none. -/
def digitsIn? (base : Nat) (cs : List Char) : Option Nat :=
  if cs.isEmpty then none
  else (cs.mapM (digitValue? base)).map fun ds => ds.foldl (fun n d => base * n + d) 0

/-- A natural number, its base told by what it starts with: `0x`, `0b`, `0o`, a zero for octal. -/
def natural? : List Char → Option Nat
  | '0' :: 'x' :: rest => digitsIn? 16 rest
  | '0' :: 'X' :: rest => digitsIn? 16 rest
  | '0' :: 'b' :: rest => digitsIn? 2 rest
  | '0' :: 'B' :: rest => digitsIn? 2 rest
  | '0' :: 'o' :: rest => digitsIn? 8 rest
  | '0' :: 'O' :: rest => digitsIn? 8 rest
  | ['0'] => some 0
  | '0' :: rest => digitsIn? 8 rest
  | cs => digitsIn? 10 cs

/-- An integer of 64 bits, with a sign or, if it has none written, without. -/
def integer? (cs : List Char) : Option Int :=
  let (negative, signed, body) : Bool × Bool × List Char := match cs with
    | '-' :: rest => (true, true, rest)
    | '+' :: rest => (false, true, rest)
    | cs => (false, false, cs)
  (natural? body).bind fun n =>
    let v : Int := if negative then -(n : Int) else n
    if -Int.pow 2 63 ≤ v && v < (if signed then Int.pow 2 63 else Int.pow 2 64) then some v
    else none

/-- A binary number whose sign stands after its mark, such as `0b-101`. A sign before the mark
counts too. -/
def signedBinary? (cs : List Char) : Option Int :=
  let magnitude? (cs : List Char) : Option Int := do
    let (negative, body) ← match cs with
      | '-' :: rest => some (true, rest)
      | '+' :: rest => some (false, rest)
      | _ => none
    let n ← digitsIn? 2 body
    let v : Int := if negative then -(n : Int) else n
    if -Int.pow 2 63 ≤ v && v < Int.pow 2 63 then some v else none
  match cs with
  | '0' :: 'b' :: rest => magnitude? rest
  | '-' :: '0' :: 'b' :: rest => (magnitude? rest).map fun v => wrap64 (-v)
  | _ => none

/-- The digits before and after the point, and the exponent. -/
structure FloatText where
  negative : Bool
  whole : List Char
  fraction : List Char
  exponent : Int

def FloatText.value (f : FloatText) : Double :=
  let digits := f.whole ++ f.fraction
  Double.ofDecimal f.negative (digits.foldl (fun n d => 10 * n + (d.toNat - '0'.toNat)) 0)
    (f.exponent - f.fraction.length)

/-- An exponent with its mark and a sign; `optional` lets the sign be missing. -/
def exponent? (optional : Bool) (cs : List Char) : Option Int :=
  let unsigned (negative : Bool) (ds : List Char) : Option Int :=
    (digitsIn? 10 ds).map fun n => if negative then -(n : Int) else n
  match cs with
  | [] => some 0
  | c :: rest =>
    if c = 'e' || c = 'E' then
      match rest with
      | '+' :: ds => unsigned false ds
      | '-' :: ds => unsigned true ds
      | ds => if optional then unsigned false ds else none
    else none

/-- A number with digits and perhaps a point. The strict form ends with a digit before the exponent
and writes the sign of the exponent; the lax one does neither. -/
def float? (lax : Bool) (cs : List Char) : Option FloatText := do
  let (negative, cs) := match cs with
    | '-' :: rest => (true, rest)
    | '+' :: rest => (false, rest)
    | cs => (false, cs)
  let whole := cs.takeWhile Char.isDigit
  let cs := cs.dropWhile Char.isDigit
  let (point, fraction, cs) := match cs with
    | '.' :: rest => (true, rest.takeWhile Char.isDigit, rest.dropWhile Char.isDigit)
    | cs => (false, [], cs)
  if whole.isEmpty && fraction.isEmpty then none
  else if point && fraction.isEmpty && !lax then none
  else
    let e ← exponent? lax cs
    return ⟨negative, whole, fraction, e⟩

/-- Whether every underscore stands between two digits; `afterDigit` says what came just before. -/
def separatesDigits : (afterDigit : Bool) → List Char → Bool
  | _, [] => true
  | afterDigit, c :: rest =>
    if c = '_' then
      afterDigit && (rest.head?.map Char.isDigit).getD false && separatesDigits false rest
    else separatesDigits c.isDigit rest

/-- The meaning of a plain scalar. -/
def resolve (text : String) : Datum :=
  match words.lookup text with
  | some d => d
  | none =>
    match text.toList with
    | [] => .null
    | c :: rest =>
      if c = '.' then
        match float? true ((c :: rest).filter (· ≠ '_')) with
        | some f =>
          if separatesDigits false rest && f.value.isFinite then .float f.value else .text text
        | none => .text text
      else if c.isDigit || c = '-' || c = '+' then
        let plain := (c :: rest).filter (· ≠ '_')
        match integer? plain with
        | some n => .int n
        | none =>
          match float? false plain with
          | some f => if f.value.isFinite then .float f.value else .text text
          | none =>
            match signedBinary? plain with
            | some n => .int n
            | none => .text text
      else .text text

/-- Whether a text looks like a number in base sixty, such as `1:30`. -/
def isSexagesimal (text : String) : Bool :=
  let cs := match text.toList with
    | '-' :: rest => rest
    | '+' :: rest => rest
    | cs => cs
  let (body, fraction) := (cs.takeWhile (· ≠ '.'), cs.dropWhile (· ≠ '.'))
  let parts := ((String.ofList body).splitOn ":").map String.toList
  let isPart (p : List Char) : Bool := match p with
    | [d] => d.isDigit
    | [a, b] => '0' ≤ a && a ≤ '5' && b.isDigit
    | _ => false
  (match parts with
   | first :: second :: rest =>
     (match first with
      | d :: ds => d.isDigit && ds.all fun c => c.isDigit || c = '_'
      | [] => false) && (second :: rest).all isPart
   | _ => false) &&
  fraction.tail.all fun c => c.isDigit || c = '_'

/-- Whether a text, written plain, would be taken for something else than a text. -/
def isTaken (text : String) : Bool :=
  isSexagesimal text ||
    match resolve text with
    | .text _ => false
    | _ => true

/-- Whether a text, written plain, would be taken for something else than a text by readers that
know points in time too, and numbers such as `1e3` and `5.`. -/
def isTakenWidely (text : String) : Bool :=
  isTaken text || Time.isTimestamp text ||
    match float? true (text.toList.filter (· ≠ '_')) with
    | some f => f.value.isFinite && (text.toList.head?.map fun c => c ≠ '_' && c ≠ '.').getD false
    | none => false

end Sessions.Yaml
