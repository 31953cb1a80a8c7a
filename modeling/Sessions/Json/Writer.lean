import Sessions.Datum
import Sessions.Text.Bytes
import Sessions.Text.Quoted

/-!
# Sessions.Json.Writer

JSON text of a value, on one line or indented by two spaces. The characters that would end a
script element or a line of script are written as escapes, so that the text can stand inside a
page.
-/

namespace Sessions.Json

/-- How one character stands in JSON text. -/
def escapedChar (c : Char) : List Char :=
  if c = '"' || c = '\\' then ['\\', c]
  else if c = '\n' then ['\\', 'n']
  else if c = '\r' then ['\\', 'r']
  else if c = '\t' then ['\\', 't']
  else if c = '\x08' then ['\\', 'b']
  else if c = '\x0c' then ['\\', 'f']
  else if c.toNat < 0x20 || c = '<' || c = '>' || c = '&' || c.toNat = 0x2028 || c.toNat = 0x2029
    then '\\' :: 'u' :: Text.hex 4 c.toNat
  else [c]

/-- How a piece of a text stands in JSON text: a byte that belongs to no character is the escape of
the replacement character. -/
def escapedPiece : Text.Piece → List Char
  | .char c => escapedChar c
  | .stray _ => "\\ufffd".toList

/-- A text in JSON quotes. -/
def string (s : String) : String :=
  String.ofList ('"' :: ((Text.pieces s).flatMap escapedPiece ++ ['"']))

/-- The JSON text of a scalar. -/
def scalar : Datum → String
  | .bool b => if b then "true" else "false"
  | .int n => toString n
  | .float x => Decimal.render .json x
  | .text s => string s
  | _ => "null"

mutual

/-- JSON text on one line, entries in the order of the map. -/
def compact : Datum → String
  | .list xs => "[" ++ ",".intercalate (compactItems xs) ++ "]"
  | .map es => "\x7b" ++ ",".intercalate (compactEntries es) ++ "\x7d"
  | d => scalar d

def compactItems : List Datum → List String
  | [] => []
  | x :: rest => compact x :: compactItems rest

def compactEntries : List (String × Datum) → List String
  | [] => []
  | (k, v) :: rest => (string k ++ ":" ++ compact v) :: compactEntries rest

end

/-- The items of a container, one a line, inside its brackets. -/
def block (depth : Nat) (opening closing : String) (items : List String) : String :=
  let margin (n : Nat) := "\n" ++ String.ofList (List.replicate (2 * n) ' ')
  if items.isEmpty then opening ++ closing
  else opening ++ ",".intercalate (items.map (margin (depth + 1) ++ ·)) ++ margin depth ++ closing

mutual

/-- JSON text with one item a line, indented by two spaces a level. -/
def indented (depth : Nat) : Datum → String
  | .list xs => block depth "[" "]" (indentedItems (depth + 1) xs)
  | .map es => block depth "\x7b" "\x7d" (indentedEntries (depth + 1) es)
  | d => scalar d

def indentedItems (depth : Nat) : List Datum → List String
  | [] => []
  | x :: rest => indented depth x :: indentedItems depth rest

def indentedEntries (depth : Nat) : List (String × Datum) → List String
  | [] => []
  | (k, v) :: rest => (string k ++ ": " ++ indented depth v) :: indentedEntries depth rest

end

/-- Indented JSON text of a whole value. -/
def pretty (d : Datum) : String :=
  indented 0 d

mutual

/-- Whether JSON has a text for the value: it has none for infinities and for what is not a
number. -/
def representable : Datum → Bool
  | .float x => x.isFinite
  | .list xs => representableItems xs
  | .map es => representableEntries es
  | _ => true

def representableItems : List Datum → Bool
  | [] => true
  | x :: rest => representable x && representableItems rest

def representableEntries : List (String × Datum) → Bool
  | [] => true
  | (_, v) :: rest => representable v && representableEntries rest

end

end Sessions.Json
