import Sessions.Datum
import Sessions.Text.Bytes

/-!
# Sessions.Json.Reader

Reading JSON text into a value. The reader is the plain grammar: a value, then nothing but white
space. What a number means is a parameter: `Number.exact` keeps whole numbers of 64 bits as
integers, `Number.real` makes every number a floating point one.
-/

namespace Sessions.Json

/-- A number as it was written. -/
structure Number where
  negative : Bool
  whole : List Char
  fraction : List Char
  exponent : Option Int
deriving Repr

namespace Number

/-- The number that decimal digits write. -/
def digitsValue (ds : List Char) : Nat :=
  ds.foldl (fun n d => 10 * n + (d.toNat - '0'.toNat)) 0

/-- Whether the number was written as an integer, with neither point nor exponent. -/
def isWhole (n : Number) : Bool :=
  n.fraction.isEmpty && n.exponent.isNone

def toInt (n : Number) : Int :=
  let m : Int := digitsValue n.whole
  if n.negative then -m else m

def toDouble (n : Number) : Double :=
  Double.ofDecimal n.negative (digitsValue (n.whole ++ n.fraction))
    (n.exponent.getD 0 - n.fraction.length)

/-- Whole numbers of 64 bits, signed or not, stay integers; all others are floating point. -/
def exact (n : Number) : Option Datum :=
  if n.isWhole && -Int.pow 2 63 ≤ n.toInt && n.toInt < Int.pow 2 64 then some (.int n.toInt)
  else some (.float n.toDouble)

/-- Every number is floating point; one beyond the finite range is refused. -/
def real (n : Number) : Option Datum :=
  if n.toDouble.isFinite then some (.float n.toDouble) else none

end Number

def isSpace (c : Char) : Bool :=
  c == ' ' || c == '\t' || c == '\n' || c == '\r'

def skipSpace (cs : List Char) : List Char :=
  cs.dropWhile isSpace

def hexValue? (c : Char) : Option Nat :=
  if c.isDigit then some (c.toNat - '0'.toNat)
  else if 'a' ≤ c && c ≤ 'f' then some (c.toNat - 'a'.toNat + 10)
  else if 'A' ≤ c && c ≤ 'F' then some (c.toNat - 'A'.toNat + 10)
  else none

def hex4? (a b c d : Char) : Option Nat := do
  let a ← hexValue? a
  let b ← hexValue? b
  let c ← hexValue? c
  let d ← hexValue? d
  return ((a * 16 + b) * 16 + c) * 16 + d

def isHigh (n : Nat) : Bool := 0xD800 ≤ n && n < 0xDC00

def isLow (n : Nat) : Bool := 0xDC00 ≤ n && n < 0xE000

/-- The rest of a quoted text, after its opening quote: the text and what follows its closing
quote. Half a surrogate pair is the replacement character. -/
def stringBody : List Char → List Char → Option (String × List Char)
  | _, [] => none
  | acc, '"' :: rest => some (String.ofList (acc.reverse.flatMap Text.kept), rest)
  | acc, '\\' :: 'u' :: a :: b :: c :: d :: rest =>
    match hex4? a b c d with
    | none => none
    | some n =>
      if isHigh n then
        match rest with
        | '\\' :: 'u' :: a' :: b' :: c' :: d' :: rest' =>
          match hex4? a' b' c' d' with
          | none => none
          | some m =>
            if isLow m then
              stringBody (Char.ofNat (0x10000 + (n - 0xD800) * 0x400 + (m - 0xDC00)) :: acc) rest'
            else stringBody (Text.replacement :: acc) ('\\' :: 'u' :: a' :: b' :: c' :: d' :: rest')
        | rest => stringBody (Text.replacement :: acc) rest
      else if isLow n then stringBody (Text.replacement :: acc) rest
      else stringBody (Char.ofNat n :: acc) rest
  | acc, '\\' :: e :: rest =>
    match e with
    | '"' => stringBody ('"' :: acc) rest
    | '\\' => stringBody ('\\' :: acc) rest
    | '/' => stringBody ('/' :: acc) rest
    | 'b' => stringBody ('\x08' :: acc) rest
    | 'f' => stringBody ('\x0c' :: acc) rest
    | 'n' => stringBody ('\n' :: acc) rest
    | 'r' => stringBody ('\r' :: acc) rest
    | 't' => stringBody ('\t' :: acc) rest
    | _ => none
  | acc, c :: rest => if c.toNat < 0x20 || c = '\\' then none else stringBody (c :: acc) rest
termination_by _ cs => cs.length

/-- Digits from the front of the text, at least one. -/
def digits1 (cs : List Char) : Option (List Char × List Char) :=
  match cs.takeWhile Char.isDigit with
  | [] => none
  | ds => some (ds, cs.dropWhile Char.isDigit)

/-- The fraction of a number, if one stands here. -/
def fraction (cs : List Char) : Option (List Char × List Char) :=
  match cs with
  | '.' :: rest => digits1 rest
  | _ => some ([], cs)

/-- The exponent of a number, if one stands here. -/
def exponent (cs : List Char) : Option (Option Int × List Char) :=
  let unsigned (negative : Bool) (rest : List Char) : Option (Option Int × List Char) := do
    let (ds, rest) ← digits1 rest
    let n : Int := Number.digitsValue ds
    return (some (if negative then -n else n), rest)
  match cs with
  | c :: rest =>
    if c = 'e' || c = 'E' then
      match rest with
      | '+' :: rest => unsigned false rest
      | '-' :: rest => unsigned true rest
      | rest => unsigned false rest
    else some (none, cs)
  | [] => some (none, [])

/-- A number from the front of the text; a leading zero stands alone. -/
def number (cs : List Char) : Option (Number × List Char) := do
  let (negative, cs) := match cs with
    | '-' :: rest => (true, rest)
    | cs => (false, cs)
  let (whole, cs) ← match cs with
    | '0' :: rest => some (['0'], rest)
    | cs => digits1 cs
  let (frac, cs) ← fraction cs
  let (expo, cs) ← exponent cs
  return (⟨negative, whole, frac, expo⟩, cs)

mutual

/-- A value from the front of the text. The bound is on the number of steps; the length of the
text is enough. -/
def value (num : Number → Option Datum) : Nat → List Char → Option (Datum × List Char)
  | 0, _ => none
  | bound + 1, cs =>
    match skipSpace cs with
    | '\x7b' :: rest =>
      match skipSpace rest with
      | '\x7d' :: rest => some (.map [], rest)
      | rest => members num bound [] rest
    | '[' :: rest =>
      match skipSpace rest with
      | ']' :: rest => some (.list [], rest)
      | rest => elements num bound [] rest
    | '"' :: rest => (stringBody [] rest).map fun (s, rest) => (.text s, rest)
    | 't' :: 'r' :: 'u' :: 'e' :: rest => some (.bool true, rest)
    | 'f' :: 'a' :: 'l' :: 's' :: 'e' :: rest => some (.bool false, rest)
    | 'n' :: 'u' :: 'l' :: 'l' :: rest => some (.null, rest)
    | cs => do
      let (n, rest) ← number cs
      let d ← num n
      return (d, rest)

/-- The items of a list up to its closing bracket; those read already come in reverse. -/
def elements (num : Number → Option Datum) :
    Nat → List Datum → List Char → Option (Datum × List Char)
  | 0, _, _ => none
  | bound + 1, acc, cs =>
    match value num bound cs with
    | none => none
    | some (d, rest) =>
      match skipSpace rest with
      | ',' :: rest => elements num bound (d :: acc) rest
      | ']' :: rest => some (.list (d :: acc).reverse, rest)
      | _ => none

/-- The members of an object up to its closing brace; a later member of one name replaces an
earlier one. -/
def members (num : Number → Option Datum) :
    Nat → Entries → List Char → Option (Datum × List Char)
  | 0, _, _ => none
  | bound + 1, acc, cs =>
    match skipSpace cs with
    | '"' :: rest =>
      match stringBody [] rest with
      | none => none
      | some (key, rest) =>
        match skipSpace rest with
        | ':' :: rest =>
          match value num bound rest with
          | none => none
          | some (d, rest) =>
            match skipSpace rest with
            | ',' :: rest => members num bound (acc.put key d) rest
            | '\x7d' :: rest => some (.map (acc.put key d), rest)
            | _ => none
        | _ => none
    | _ => none

end

/-- The value that a whole JSON text writes. -/
def read (num : Number → Option Datum) (text : String) : Option Datum :=
  let cs := Text.characters text
  match value num (cs.length + 1) cs with
  | some (d, rest) => if (skipSpace rest).isEmpty then some d else none
  | none => none

end Sessions.Json
