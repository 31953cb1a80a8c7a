import Sessions.Digest.Base64
import Sessions.Text.Bytes
import Sessions.Text.Quoted
import Sessions.Yaml.Resolve
import Sessions.Yaml.Scanner

/-!
# Sessions.Yaml.Writer

YAML text of a value, in block style. Maps are indented by two spaces; a list under a key is not
indented any further. A text is written plain if it would be read back as itself, else in single
quotes, else in double quotes; a text of several lines is a literal block, and one with bytes that
belong to no character is written as its bytes. Long texts are folded at a space once their line is
longer than eighty columns. Which texts would be read as something else
depends on the reader, so the writer is told (`taken`).
-/

namespace Sessions.Yaml

/-- How a scalar can be written. -/
structure Analysis where
  plainAllowed : Bool
  singleAllowed : Bool
  blockAllowed : Bool
deriving DecidableEq, Repr

/-- Characters that can stand in a scalar without an escape. -/
def isPlainChar (c : Char) : Bool :=
  let n := c.toNat
  n = 0x0A || (0x20 ≤ n && n ≤ 0x7E) || (0xA0 ≤ n && n ≤ 0xD7FF) ||
  (0xE000 ≤ n && n ≤ 0xFFFD && n ≠ 0xFEFF)

/-- Whether a character in the middle of a plain scalar would be taken for a mark of a block. -/
def isMarkInside (previous c : Char) (rest : List Char) : Bool :=
  let followed := (rest.head?.map isBlankChar).getD true
  (c = ':' && followed) ||
  (c = '#' && (isBlankChar previous || isBreak previous))

def hasMarkInside : Char → List Char → Bool
  | _, [] => false
  | previous, c :: rest => isMarkInside previous c rest || hasMarkInside c rest

/-- Whether a plain scalar would be taken for something else because of how it starts. -/
def hasMarkInFront (cs : List Char) : Bool :=
  ['-', '-', '-'].isPrefixOf cs || ['.', '.', '.'].isPrefixOf cs ||
  (match cs with
   | [] => false
   | c :: rest =>
     let followed := (rest.head?.map isBlankChar).getD true
     "#,[]\x7b\x7d&*!|>'\"%@".toList.contains c || c.toNat = 0x60 ||
     ((c = '?' || c = ':' || c = '-') && followed))

/-- Whether one of the first class is followed at once by one of the second. -/
def hasPair (p q : Char → Bool) : List Char → Bool
  | a :: b :: rest => (p a && q b) || hasPair p q (b :: rest)
  | _ => false

def analyze (text : String) : Analysis :=
  let cs := Text.characters text
  let isSpace (c : Char) : Bool := c = ' '
  let edge (p : Char → Bool) : Bool :=
    (cs.head?.map p).getD false || (cs.getLast?.map p).getD false
  let special := cs.any fun c => !isPlainChar c
  let spaceBreak := hasPair isSpace isBreak cs
  let breakSpace := hasPair isBreak isSpace cs
  let marked := hasMarkInFront cs || (match cs with
    | [] => false
    | c :: rest => hasMarkInside c rest)
  { plainAllowed := !(edge isSpace || edge isBreak || breakSpace || spaceBreak || special ||
      cs.any isBreak || marked)
    singleAllowed := !(breakSpace || spaceBreak || special)
    blockAllowed := !((cs.getLast?.map isSpace).getD false || spaceBreak || special || cs.isEmpty) }

/-- Where a folded line goes on. -/
def foldMargin (indent : Nat) : List Char :=
  '\n' :: List.replicate indent ' '

/-- The columns after which a line is folded. -/
def bestWidth : Nat := 80

/-- Writes the characters of a plain scalar from a column on, folding at single spaces. `spaces` says
that a space came just before. -/
def foldPlain (indent : Nat) : (column : Nat) → (spaces : Bool) → List Char → List Char
  | _, _, [] => []
  | column, spaces, c :: rest =>
    if c = ' ' then
      if !spaces && bestWidth < column && rest.head? ≠ some ' ' then
        foldMargin indent ++ foldPlain indent indent true rest
      else c :: foldPlain indent (column + 1) true rest
    else c :: foldPlain indent (column + 1) false rest

/-- Writes the characters between single quotes; a quote is doubled, and a line that was broken goes
on at the indent. `first` says that nothing came before. -/
def foldSingle (indent : Nat) : (column : Nat) → (spaces first broken : Bool) → List Char → List Char
  | _, _, _, _, [] => []
  | column, spaces, first, broken, c :: rest =>
    if c = ' ' then
      if !spaces && bestWidth < column && !first && !rest.isEmpty && rest.head? ≠ some ' ' then
        foldMargin indent ++ foldSingle indent indent true false broken rest
      else c :: foldSingle indent (column + 1) true false broken rest
    else if isBreak c then c :: foldSingle indent 0 spaces false true rest
    else
      let margin := if broken then List.replicate (indent - column) ' ' else []
      let written := if c = '\x27' then [c, c] else [c]
      margin ++ written ++
        foldSingle indent (column + margin.length + written.length) false false false rest

/-- The escape of a character in double quotes, if it needs one; `every` character may need one. -/
def doubleEscape? (every : Bool) (c : Char) : Option (List Char) :=
  let upper (width n : Nat) : List Char := (Text.hex width n).map Char.toUpper
  let n := c.toNat
  if !every && isPlainChar c && !isBreak c && c ≠ '"' && c ≠ '\\' then none
  else some ('\\' :: (
    if n = 0 then ['0']
    else if n = 7 then ['a']
    else if n = 8 then ['b']
    else if n = 9 then ['t']
    else if n = 10 then ['n']
    else if n = 11 then ['v']
    else if n = 12 then ['f']
    else if n = 13 then ['r']
    else if n = 0x1B then ['e']
    else if c = '"' || c = '\\' then [c]
    else if n = 0x85 then ['N']
    else if n = 0xA0 then ['_']
    else if n = 0x2028 then ['L']
    else if n = 0x2029 then ['P']
    else if n ≤ 0xFF then 'x' :: upper 2 n
    else if n ≤ 0xFFFF then 'u' :: upper 4 n
    else 'U' :: upper 8 n))

/-- Writes the characters between double quotes. -/
def foldDouble (every : Bool) (indent : Nat) :
    (column : Nat) → (spaces first : Bool) → List Char → List Char
  | _, _, _, [] => []
  | column, spaces, first, c :: rest =>
    match doubleEscape? every c with
    | some e => e ++ foldDouble every indent (column + e.length) false false rest
    | none =>
      if c = ' ' then
        if !spaces && bestWidth < column && !first && !rest.isEmpty then
          let guarded := if rest.head? = some ' ' then ['\\'] else []
          foldMargin indent ++ guarded ++
            foldDouble every indent (indent + guarded.length) true false rest
        else c :: foldDouble every indent (column + 1) true false rest
      else c :: foldDouble every indent (column + 1) false false rest

/-- Writes the characters of a literal block; a line starts at the indent unless it is empty. -/
def literalLines (indent : Nat) : (broken : Bool) → List Char → List Char
  | _, [] => []
  | broken, c :: rest =>
    if isBreak c then c :: literalLines indent true rest
    else (if broken then List.replicate indent ' ' else []) ++ c :: literalLines indent false rest

/-- A text of several lines as a literal block, without the break of its last line. -/
def literalBlock (indent : Nat) (cs : List Char) : List Char :=
  let hint := if (cs.head?.map fun c => c = ' ' || isBreak c).getD false then ['2'] else []
  let chomp := match cs.reverse with
    | [] => ['-']
    | [_] => ['+']
    | a :: b :: _ => if !isBreak a then ['-'] else if isBreak b then ['+'] else []
  let cs := if cs.getLast? = some '\n' then cs.dropLast else cs
  '|' :: hint ++ chomp ++ '\n' :: literalLines indent true cs

/-- Characters with a line break after every seventy and after the last. -/
def brokenLines : (column : Nat) → List Char → List Char
  | _, [] => ['\n']
  | column, c :: rest =>
    if column = 70 then '\n' :: c :: brokenLines 1 rest else c :: brokenLines (column + 1) rest

/-- Bytes as a scalar, on one line if they have less than seventy characters. -/
def binaryText (indent : Nat) (bytes : List UInt8) : List Char :=
  let cs := Digest.base64Chars bytes
  "!!binary ".toList ++
    if cs.length < 70 then cs else literalBlock indent (brokenLines 0 cs)

/-- The text of a scalar that starts at a column; folded lines go on at the indent. In double quotes a
text that starts with a byte order mark has every character escaped. -/
def scalarText (taken : String → Bool) (indent column : Nat) (text : String) : List Char :=
  let a := analyze text
  let cs := Text.characters text
  let every := cs.head? = some '\uFEFF'
  let double := '"' :: foldDouble every indent (column + 1) false true cs ++ ['"']
  if !Text.isWellFormed text then binaryText indent (Text.bytes text)
  else if taken text then double
  else if cs.contains '\n' then
    if a.blockAllowed then literalBlock indent cs else double
  else if a.plainAllowed then foldPlain indent column false cs
  else if a.singleAllowed then
    '\x27' :: foldSingle indent (column + 1) false true false cs ++ ['\x27']
  else double

/-- The text of any scalar. -/
def scalarDatum (taken : String → Bool) (indent column : Nat) : Datum → List Char
  | .text s => scalarText taken indent column s
  | .bool b => if b then "true".toList else "false".toList
  | .int n => (toString n).toList
  | .float x => (Decimal.render .general x).toList
  | .list _ => ['[', ']']
  | .map _ => ['\x7b', '\x7d']
  | .null => "null".toList

mutual

/-- The entries of a map at an indent. The first line has no margin: it stands where the caller is. -/
def mapBody (taken : String → Bool) (indent : Nat) : List (String × Datum) → List Char
  | [] => []
  | (k, v) :: rest =>
    let key := scalarText taken indent indent k
    let margin := List.replicate indent ' '
    let tail := match rest with
      | [] => []
      | _ => '\n' :: margin ++ mapBody taken indent rest
    key ++ ':' :: mapValue taken indent (indent + key.length + 1) v ++ tail

/-- The value of an entry, after its colon. -/
def mapValue (taken : String → Bool) (indent column : Nat) : Datum → List Char
  | .map (e :: es) => '\n' :: List.replicate (indent + 2) ' ' ++ mapBody taken (indent + 2) (e :: es)
  | .list (d :: ds) => '\n' :: List.replicate indent ' ' ++ listBody taken indent (d :: ds)
  | d => ' ' :: scalarDatum taken (indent + 2) (column + 1) d

/-- The items of a list at an indent. -/
def listBody (taken : String → Bool) (indent : Nat) : List Datum → List Char
  | [] => []
  | d :: rest =>
    let tail := match rest with
      | [] => []
      | _ => '\n' :: List.replicate indent ' ' ++ listBody taken indent rest
    '-' :: ' ' :: listItem taken indent d ++ tail

def listItem (taken : String → Bool) (indent : Nat) : Datum → List Char
  | .map (e :: es) => mapBody taken (indent + 2) (e :: es)
  | .list (d :: ds) => listBody taken (indent + 2) (d :: ds)
  | d => scalarDatum taken (indent + 2) (indent + 2) d

end

/-- The YAML text of a value. -/
def write (taken : String → Bool) (d : Datum) : String :=
  let body := match d with
    | .map (e :: es) => mapBody taken 0 (e :: es)
    | .list (d :: ds) => listBody taken 0 (d :: ds)
    | d => scalarDatum taken 2 0 d
  String.ofList (body ++ ['\n'])

end Sessions.Yaml
