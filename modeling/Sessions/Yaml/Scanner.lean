import Sessions.Text.Bytes
import Sessions.Yaml.Token

/-!
# Sessions.Yaml.Scanner

From a YAML text to its tokens. The scanner goes through the text once. Whether a scalar is a key is
known only when the colon after it is met, so the scanner remembers where a key could start
(`Candidate`) and puts the key token there afterwards. `Scanner.scan` is total: a text that can
not be read ends with an `invalid` token.
-/

namespace Sessions.Yaml

def isBreak (c : Char) : Bool :=
  c = '\n' || c = '\r' || c.toNat = 0x85 || c.toNat = 0x2028 || c.toNat = 0x2029

def isBlankChar (c : Char) : Bool :=
  c = ' ' || c = '\t'

/-- Whether a blank, a line break or the end stands at the front. -/
def atGap : List Char → Bool
  | [] => true
  | c :: _ => isBlankChar c || isBreak c

/-- Whether a line break or the end stands at the front. -/
def atLineEnd : List Char → Bool
  | [] => true
  | c :: _ => isBreak c

/-- Characters that may stand in a YAML text. -/
def isAllowed (c : Char) : Bool :=
  let n := c.toNat
  n = 0x09 || n = 0x0A || n = 0x0D || (0x20 ≤ n && n ≤ 0x7E) || n = 0x85 ||
  (0xA0 ≤ n && n ≤ 0xD7FF) || (0xE000 ≤ n && n ≤ 0xFFFD) || 0x10000 ≤ n

/-- Where the scanner stands: the text that is left and the column of its first character. -/
structure Cursor where
  rest : List Char
  column : Nat := 0
  line : Nat := 0
  index : Nat := 0
deriving Inhabited

namespace Cursor

/-- Past one character of the current line. -/
def advance (c : Cursor) : Cursor :=
  { c with rest := c.rest.tail, column := c.column + 1, index := c.index + 1 }

def advanceBy : Nat → Cursor → Cursor
  | 0, c => c
  | n + 1, c => advanceBy n c.advance

/-- Past a line break. -/
def nextLine (c : Cursor) : Cursor :=
  match c.rest with
  | '\r' :: '\n' :: rest => ⟨rest, 0, c.line + 1, c.index + 2⟩
  | _ :: rest => ⟨rest, 0, c.line + 1, c.index + 1⟩
  | [] => c

/-- What a line break at the cursor contributes to a scalar. -/
def lineBreak (c : Cursor) : List Char :=
  match c.rest with
  | ch :: _ => if ch.toNat = 0x2028 || ch.toNat = 0x2029 then [ch] else ['\n']
  | [] => []

/-- Past the characters of the line that satisfy a test. -/
def skipWhile (p : Char → Bool) (c : Cursor) : Cursor :=
  advanceBy (c.rest.takeWhile p).length c

/-- Past a comment, up to the end of the line. -/
def skipComment (c : Cursor) : Cursor :=
  if c.rest.head? == some '#' then c.skipWhile (fun ch => !isBreak ch) else c

/-- Whether a document mark stands at the cursor. -/
def atDocumentMark (c : Cursor) : Bool :=
  c.column == 0 &&
  (match c.rest with
   | '-' :: '-' :: '-' :: rest => atGap rest
   | '.' :: '.' :: '.' :: rest => atGap rest
   | _ => false)

end Cursor

/-- A token that may turn out to start a key. -/
structure Candidate where
  /-- How many tokens come before it. -/
  position : Nat
  column : Nat
  line : Nat
  index : Nat
  /-- Nothing but a key can stand here. -/
  required : Bool
deriving Inhabited

/-- The state of the scanner. `tokens` holds the newest token first. The lists of candidates and of
indents have the innermost level first. -/
structure Scanner where
  cursor : Cursor
  tokens : List Token := []
  flowLevel : Nat := 0
  indent : Int := -1
  indents : List Int := []
  keyAllowed : Bool := true
  candidate : Option Candidate := none
  outerCandidates : List (Option Candidate) := []
  done : Bool := false
deriving Inhabited

namespace Scanner

def push (s : Scanner) (t : Token) : Scanner :=
  { s with tokens := t :: s.tokens }

/-- Puts a token where `position` tokens come before it. -/
def insertAt (s : Scanner) (position : Nat) (t : Token) : Scanner :=
  let after := s.tokens.length - position
  { s with tokens := s.tokens.take after ++ t :: s.tokens.drop after }

/-- Stops with an error. -/
def refuse (s : Scanner) (e : Error) : Scanner :=
  { s with tokens := .invalid e :: s.tokens, done := true }

/-- Gives up the current candidate; one that has to be a key is an error. -/
def dropCandidate (s : Scanner) : Except Error Scanner :=
  match s.candidate with
  | some k => if k.required then .error .missingColon else .ok { s with candidate := none }
  | none => .ok s

/-- A candidate is too old once its line is over or it is very long. -/
def isStale (c : Cursor) (k : Candidate) : Bool :=
  k.line < c.line || k.index + 1024 < c.index

/-- Gives up the candidates that are too old. -/
def dropStale (s : Scanner) : Except Error Scanner :=
  let stale (k : Option Candidate) : Bool := (k.map (isStale s.cursor)).getD false
  let keep (k : Option Candidate) : Option Candidate := if stale k then none else k
  if (s.candidate :: s.outerCandidates).any fun k => stale k && (k.map (·.required)).getD false then
    .error .missingColon
  else .ok { s with candidate := keep s.candidate, outerCandidates := s.outerCandidates.map keep }

/-- Notes that a key may start here. -/
def saveCandidate (s : Scanner) : Except Error Scanner :=
  if s.keyAllowed then do
    let s ← s.dropCandidate
    let c := s.cursor
    let k : Candidate :=
      { position := s.tokens.length, column := c.column, line := c.line, index := c.index,
        required := s.flowLevel == 0 && s.indent == c.column }
    return { s with candidate := some k }
  else .ok s

/-- Opens a block collection at a column that is further in; `position` says where its token goes,
the end if it is missing. -/
def rollIndent (s : Scanner) (column : Nat) (position : Option Nat) (t : Token) : Scanner :=
  if s.flowLevel == 0 && s.indent < column then
    let s := { s with indents := s.indent :: s.indents, indent := column }
    match position with
    | some p => s.insertAt p t
    | none => s.push t
  else s

def unrollWith : List Int → Scanner → Int → Scanner
  | [], s, _ => s
  | outer :: rest, s, column =>
    if column < s.indent then
      unrollWith rest
        { s with tokens := .blockEnd :: s.tokens, indent := outer, indents := rest } column
    else s

/-- Closes the block collections that are further in than a column. -/
def unrollIndent (s : Scanner) (column : Int) : Scanner :=
  if s.flowLevel == 0 then unrollWith s.indents s column else s

/-- Past white space, comments and line breaks. In a block, a new line may start a key. -/
def skipGaps : Nat → Scanner → Scanner
  | 0, s => s
  | bound + 1, s =>
    let c := if s.cursor.index == 0 && s.cursor.rest.head? == some '\uFEFF' then s.cursor.advance
      else s.cursor
    let c := c.skipWhile fun ch => ch = ' ' || ((0 < s.flowLevel || !s.keyAllowed) && ch = '\t')
    let c := c.skipComment
    match c.rest with
    | ch :: _ =>
      if isBreak ch then
        skipGaps bound { s with cursor := c.nextLine, keyAllowed := s.keyAllowed || s.flowLevel == 0 }
      else { s with cursor := c }
    | [] => { s with cursor := c }

/-! ## Scalars -/

/-- Line breaks and blanks met inside a scalar: the blanks of the line, the first break, and the
further breaks. -/
structure Gap where
  blanks : List Char := []
  first : List Char := []
  further : List Char := []
  broken : Bool := false

/-- What a gap contributes: blanks stay, one line break becomes a space, more become fewer. -/
def Gap.fold (g : Gap) : List Char :=
  if g.broken then
    if g.first = ['\n'] then (if g.further.isEmpty then [' '] else g.further)
    else g.first ++ g.further
  else g.blanks

/-- Reads blanks and line breaks. `checked` is the column below which a tab is an error. -/
def readGap (checked : Int) : Nat → Gap → Cursor → Except Error (Gap × Cursor)
  | 0, g, c => .ok (g, c)
  | bound + 1, g, c =>
    match c.rest with
    | [] => .ok (g, c)
    | ch :: _ =>
      if isBlankChar ch then
        if g.broken then
          if ch = '\t' && c.column < checked then .error .tabInIndentation
          else readGap checked bound g c.advance
        else readGap checked bound { g with blanks := g.blanks ++ [ch] } c.advance
      else if isBreak ch then
        if g.broken then
          readGap checked bound { g with further := g.further ++ c.lineBreak } c.nextLine
        else
          readGap checked bound { g with blanks := [], first := c.lineBreak, broken := true }
            c.nextLine
      else .ok (g, c)

def isFlowMark (c : Char) : Bool :=
  c = ',' || c = ':' || c = '?' || c = '[' || c = ']' || c = '\x7b' || c = '\x7d'

/-- Reads the characters of a plain scalar up to a gap or a mark; the text comes in reverse. -/
def plainRun (inFlow : Bool) : Nat → List Char → Cursor → Except Error (List Char × Cursor)
  | 0, acc, c => .ok (acc, c)
  | bound + 1, acc, c =>
    match c.rest with
    | [] => .ok (acc, c)
    | ch :: rest =>
      if atGap c.rest then .ok (acc, c)
      else if inFlow && ch = ':' && !atGap rest then .error .unexpectedColon
      else if (ch = ':' && atGap rest) || (inFlow && isFlowMark ch) then .ok (acc, c)
      else plainRun inFlow bound (ch :: acc) c.advance

/-- Reads a plain scalar; the text comes in reverse. The flag says that it ended after a line
break. -/
def plainScalar (inFlow : Bool) (indent : Int) :
    Nat → List Char → Gap → Cursor → Except Error (List Char × Bool × Cursor)
  | 0, acc, g, c => .ok (acc, g.broken, c)
  | bound + 1, acc, g, c =>
    if c.atDocumentMark || c.rest.head? == some '#' then .ok (acc, g.broken, c)
    else do
      let (run, c) ← plainRun inFlow (c.rest.length + 1) [] c
      let (acc, g) := if run.isEmpty then (acc, g) else (run ++ g.fold.reverse ++ acc, {})
      match c.rest with
      | ch :: _ =>
        if isBlankChar ch || isBreak ch then do
          let (g, c) ← readGap indent (c.rest.length + 1) g c
          if !inFlow && c.column < indent then return (acc, g.broken, c)
          else plainScalar inFlow indent bound acc g c
        else return (acc, g.broken, c)
      | [] => return (acc, g.broken, c)

def hexDigit? (c : Char) : Option Nat :=
  if c.isDigit then some (c.toNat - '0'.toNat)
  else if 'a' ≤ c && c ≤ 'f' then some (c.toNat - 'a'.toNat + 10)
  else if 'A' ≤ c && c ≤ 'F' then some (c.toNat - 'A'.toNat + 10)
  else none

/-- The character with a code that is written in hexadecimal. -/
def hexChar? (ds : List Char) (width : Nat) : Option Char := do
  if ds.length < width then none
  else
    let digits ← ds.mapM hexDigit?
    let n := digits.foldl (fun n d => 16 * n + d) 0
    if (0xD800 ≤ n && n ≤ 0xDFFF) || 0x10FFFF < n then none else some (Char.ofNat n)

/-- The character that an escape stands for, and how many characters the escape has. -/
def escape? : List Char → Option (Char × Nat)
  | '0' :: _ => some ('\x00', 1)
  | 'a' :: _ => some ('\x07', 1)
  | 'b' :: _ => some ('\x08', 1)
  | 't' :: _ => some ('\t', 1)
  | '\t' :: _ => some ('\t', 1)
  | 'n' :: _ => some ('\n', 1)
  | 'v' :: _ => some ('\x0b', 1)
  | 'f' :: _ => some ('\x0c', 1)
  | 'r' :: _ => some ('\r', 1)
  | 'e' :: _ => some ('\x1b', 1)
  | ' ' :: _ => some (' ', 1)
  | '"' :: _ => some ('"', 1)
  | '\x27' :: _ => some ('\x27', 1)
  | '\\' :: _ => some ('\\', 1)
  | 'N' :: _ => some (Char.ofNat 0x85, 1)
  | '_' :: _ => some (Char.ofNat 0xA0, 1)
  | 'L' :: _ => some (Char.ofNat 0x2028, 1)
  | 'P' :: _ => some (Char.ofNat 0x2029, 1)
  | 'x' :: rest => (hexChar? (rest.take 2) 2).map (·, 3)
  | 'u' :: rest => (hexChar? (rest.take 4) 4).map (·, 5)
  | 'U' :: rest => (hexChar? (rest.take 8) 8).map (·, 9)
  | _ => none

/-- Reads the characters of a quoted scalar up to a gap or the closing quote; the text comes in
reverse. The flag says that an escaped line break ended the run. -/
def quotedRun (single : Bool) : Nat → List Char → Cursor → Except Error (List Char × Bool × Cursor)
  | 0, acc, c => .ok (acc, false, c)
  | bound + 1, acc, c =>
    match c.rest with
    | [] => .ok (acc, false, c)
    | ch :: rest =>
      if atGap c.rest then .ok (acc, false, c)
      else if single then
        if ch = '\x27' then
          if rest.head? == some '\x27' then quotedRun single bound ('\x27' :: acc) c.advance.advance
          else .ok (acc, false, c)
        else quotedRun single bound (ch :: acc) c.advance
      else if ch = '"' then .ok (acc, false, c)
      else if ch = '\\' then
        if !rest.isEmpty && atLineEnd rest then .ok (acc, true, c.advance.nextLine)
        else
          match escape? rest with
          | some (e, n) =>
            quotedRun single bound ((Text.kept e).reverse ++ acc) (c.advance.advanceBy n)
          | none => .error .badEscape
      else quotedRun single bound (ch :: acc) c.advance

/-- Reads a quoted scalar after its opening quote; the text comes in reverse. -/
def quotedScalar (single : Bool) : Nat → List Char → Cursor → Except Error (List Char × Cursor)
  | 0, _, _ => .error .unclosedQuote
  | bound + 1, acc, c =>
    if c.atDocumentMark then .error .documentMark
    else do
      let (acc, escapedBreak, c) ← quotedRun single (c.rest.length + 1) acc c
      match c.rest with
      | [] => .error .unclosedQuote
      | ch :: _ =>
        if ch = (if single then '\x27' else '"') then
          return (acc, c.advance)
        else do
          let start : Gap := if escapedBreak then { broken := true } else {}
          let (g, c) ← readGap 0 (c.rest.length + 1) start c
          quotedScalar single bound (g.fold.reverse ++ acc) c

/-- Leading blank lines of a block scalar: the line breaks, the cursor after the indentation, and
the deepest column seen. -/
def blockBreaks (indent : Nat) :
    Nat → Nat → List Char → Cursor → Except Error (List Char × Nat × Cursor)
  | 0, deepest, acc, c => .ok (acc, deepest, c)
  | bound + 1, deepest, acc, c =>
    let room := if indent = 0 then c.rest.length else indent - c.column
    let c := c.advanceBy (min room (c.rest.takeWhile (· = ' ')).length)
    let deepest := max deepest c.column
    match c.rest with
    | ch :: _ =>
      if ch = '\t' && (indent = 0 || c.column < indent) then .error .tabInIndentation
      else if isBreak ch then
        blockBreaks indent bound deepest (acc ++ c.lineBreak) c.nextLine
      else .ok (acc, deepest, c)
    | [] => .ok (acc, deepest, c)

/-- The lines of a block scalar; the text comes in reverse. -/
def blockLines (literal : Bool) (indent : Nat) : Nat → List Char → (leadingBlank : Bool) →
    (first further : List Char) → Cursor →
    Except Error (List Char × List Char × List Char × Cursor)
  | 0, acc, _, first, further, c => .ok (acc, first, further, c)
  | bound + 1, acc, leadingBlank, first, further, c =>
    match c.rest with
    | [] => .ok (acc, first, further, c)
    | ch :: _ =>
      if c.column ≠ indent then .ok (acc, first, further, c)
      else do
        let blank := isBlankChar ch
        let joint :=
          if !literal && !leadingBlank && !blank && first = ['\n'] then
            (if further.isEmpty then [' '] else [])
          else first
        let line := c.rest.takeWhile fun ch => !isBreak ch
        let acc := line.reverse ++ (joint ++ further).reverse ++ acc
        let c := c.advanceBy line.length
        let newFirst := c.lineBreak
        let c := c.nextLine
        let (newFurther, _, c) ← blockBreaks indent (c.rest.length + 1) 0 [] c
        blockLines literal indent bound acc blank newFirst newFurther c

/-- The header of a block scalar: how its end is chomped and how far it is indented, if it says. -/
def blockHeader (c : Cursor) : Except Error (Option Bool × Nat × Cursor) := do
  let chomp (c : Cursor) : Option Bool × Cursor :=
    match c.rest with
    | '+' :: _ => (some true, c.advance)
    | '-' :: _ => (some false, c.advance)
    | _ => (none, c)
  let digit (c : Cursor) : Except Error (Nat × Cursor) :=
    match c.rest with
    | d :: _ =>
      if d = '0' then .error .badBlockHeader
      else if d.isDigit then .ok (d.toNat - '0'.toNat, c.advance) else .ok (0, c)
    | [] => .ok (0, c)
  let (keep, c) := chomp c
  let (increment, c) ← digit c
  let (keep, c) := if keep.isNone then chomp c else (keep, c)
  let c := (c.skipWhile isBlankChar).skipComment
  if atLineEnd c.rest then return (keep, increment, c.nextLine) else .error .badBlockHeader

/-- Reads a block scalar after its mark. -/
def blockScalar (literal : Bool) (parent : Int) (c : Cursor) : Except Error (String × Cursor) := do
  let (keep, increment, c) ← blockHeader c
  let stated : Nat :=
    if increment = 0 then 0 else if 0 ≤ parent then parent.toNat + increment else increment
  let (further, deepest, c) ← blockBreaks stated (c.rest.length + 1) 0 [] c
  let indent := if stated = 0 then max (max deepest (parent + 1).toNat) 1 else stated
  let (acc, first, further, c) ←
    blockLines literal indent (c.rest.length + 1) [] false [] further c
  let tail := match keep with
    | some false => []
    | none => first
    | some true => first ++ further
  return (String.ofList (acc.reverse ++ tail), c)

/-! ## Tokens -/

def isAnchorChar (c : Char) : Bool :=
  c.isAlphanum || c = '_' || c = '-'

def isTagChar (c : Char) : Bool :=
  isAnchorChar c || ";/?:@&=+$,.!~*'()[]%".toList.contains c

/-- A mark that may follow an anchor at once. -/
def closesAnchor (cs : List Char) : Bool :=
  atGap cs || (match cs with
    | ch :: _ => "?:,]\x7d%@".toList.contains ch || ch.toNat = 0x60
    | [] => true)

/-- How many bytes the character has that starts with a byte; a byte that starts none has zero. -/
def byteWidth (n : Nat) : Nat :=
  if n < 0x80 then 1
  else if 0xC0 ≤ n && n < 0xE0 then 2
  else if 0xE0 ≤ n && n < 0xF0 then 3
  else if 0xF0 ≤ n && n < 0xF8 then 4
  else 0

/-- The bytes of a tag, with its escapes undone. An escaped character of several bytes is escaped as
a whole; `pending` of its bytes are still to come. -/
def tagBytes : (pending : Nat) → List Char → Except Error (List UInt8)
  | 0, [] => .ok []
  | _ + 1, [] => .error .badTag
  | pending, '%' :: a :: b :: rest =>
    match hexDigit? a, hexDigit? b with
    | some x, some y =>
      let n := 16 * x + y
      let width := byteWidth n
      if pending = 0 && width = 0 then .error .badTag
      else if 0 < pending && !(0x80 ≤ n && n < 0xC0) then .error .badTag
      else (tagBytes (if pending = 0 then width - 1 else pending - 1) rest).map (UInt8.ofNat n :: ·)
    | _, _ => .error .badTag
  | 0, c :: rest =>
    if c = '%' then .error .badTag
    else (tagBytes 0 rest).map (Text.charBytes c ++ ·)
  | _ + 1, _ :: _ => .error .badTag

/-- Reads the text of a tag, which goes on from what was read already. -/
def tagText (soFar : List Char) (c : Cursor) : Except Error (String × Cursor) := do
  let run := c.rest.takeWhile isTagChar
  if soFar.isEmpty && run.isEmpty then .error .badTag
  else
    let bytes ← tagBytes 0 run
    return (String.ofList soFar.tail ++ Text.ofBytes bytes, c.advanceBy run.length)

/-- Reads what may be the handle of a tag: an exclamation mark, a word, and perhaps another mark. -/
def tagHandle (c : Cursor) : Except Error (List Char × Cursor) :=
  match c.rest with
  | '!' :: rest =>
    let name := '!' :: rest.takeWhile isAnchorChar
    let c := c.advanceBy name.length
    if c.rest.head? == some '!' then .ok (name ++ ['!'], c.advance) else .ok (name, c)
  | _ => .error .badTag

/-- Reads a tag: `!<text>`, or a handle and the rest. A lone exclamation mark is a tag without a
handle. -/
def tagParts (c : Cursor) : Except Error (String × String × Cursor) :=
  match c.rest with
  | '!' :: '<' :: _ => do
    let (text, c) ← tagText [] (c.advanceBy 2)
    if c.rest.head? == some '>' then return ("", text, c.advance) else .error .badTag
  | _ => do
    let (handle, c) ← tagHandle c
    if 1 < handle.length && handle.getLast? == some '!' then do
      let (text, c) ← tagText [] c
      return (String.ofList handle, text, c)
    else do
      let (text, c) ← tagText handle c
      return if text = "" then ("", "!", c) else ("!", text, c)

/-- Ends with a token for the end of each open collection. -/
def finish (s : Scanner) : Except Error Scanner := do
  let s := s.unrollIndent (-1)
  let s ← s.dropCandidate
  return { s with done := true }

/-- A document mark. -/
def documentMark (s : Scanner) (t : Token) : Except Error Scanner := do
  let s := s.unrollIndent (-1)
  let s ← s.dropCandidate
  return ({ s with cursor := s.cursor.advanceBy 3, keyAllowed := false } : Scanner).push t

/-- A number of one or two digits. -/
def versionNumber (c : Cursor) : Except Error (Nat × Cursor) :=
  let digits := c.rest.takeWhile Char.isDigit
  if digits.isEmpty || 2 < digits.length then .error .badDirective
  else .ok (digits.foldl (fun n d => 10 * n + (d.toNat - '0'.toNat)) 0, c.advanceBy digits.length)

/-- What stands after the name of a version directive. -/
def versionDirective (c : Cursor) : Except Error (Token × Cursor) := do
  let (major, c) ← versionNumber (c.skipWhile isBlankChar)
  if c.rest.head? != some '.' then .error .badDirective
  else
    let (minor, c) ← versionNumber c.advance
    return (.version major minor, c)

/-- What stands after the name of a directive that declares a handle. -/
def handleDirective (c : Cursor) : Except Error (Token × Cursor) := do
  let (name, c) ← tagHandle (c.skipWhile isBlankChar)
  if name.getLast? != some '!' || !(c.rest.head?.map isBlankChar).getD false then
    .error .badDirective
  else
    let (base, c) ← tagText [] (c.skipWhile isBlankChar)
    if atGap c.rest then return (.handle (String.ofList name) base, c) else .error .badDirective

/-- A directive, with the line that it stands on. -/
def directive (s : Scanner) : Except Error Scanner := do
  let s := s.unrollIndent (-1)
  let s ← s.dropCandidate
  let name := s.cursor.rest.tail.takeWhile isAnchorChar
  let c := s.cursor.advanceBy (name.length + 1)
  if !atGap c.rest then .error .badDirective
  else
    let (t, c) ← match String.ofList name with
      | "YAML" => versionDirective c
      | "TAG" => handleDirective c
      | _ => .error .badDirective
    let c := (c.skipWhile isBlankChar).skipComment
    if !atLineEnd c.rest then .error .badDirective
    else return ({ s with cursor := c.nextLine, keyAllowed := false } : Scanner).push t

def flowStart (s : Scanner) (t : Token) : Except Error Scanner := do
  let s ← s.saveCandidate
  return ({ s with
    cursor := s.cursor.advance
    flowLevel := s.flowLevel + 1
    outerCandidates := s.candidate :: s.outerCandidates
    candidate := none
    keyAllowed := true } : Scanner).push t

def flowEnd (s : Scanner) (t : Token) : Except Error Scanner := do
  let s ← s.dropCandidate
  return ({ s with
    cursor := s.cursor.advance
    flowLevel := s.flowLevel - 1
    candidate := if s.flowLevel = 0 then none else (s.outerCandidates.head?.getD none)
    outerCandidates := if s.flowLevel = 0 then s.outerCandidates else s.outerCandidates.tail
    keyAllowed := false } : Scanner).push t

def flowEntry (s : Scanner) : Except Error Scanner := do
  let s ← s.dropCandidate
  return ({ s with cursor := s.cursor.advance, keyAllowed := true } : Scanner).push .flowEntry

def blockEntry (s : Scanner) : Except Error Scanner := do
  if s.flowLevel == 0 && !s.keyAllowed then .error .entryContext
  else
    let s := s.rollIndent s.cursor.column none .blockSequenceStart
    let s ← s.dropCandidate
    return ({ s with cursor := s.cursor.advance, keyAllowed := true } : Scanner).push .blockEntry

def explicitKey (s : Scanner) : Except Error Scanner := do
  if s.flowLevel == 0 && !s.keyAllowed then .error .keyContext
  else
    let s := s.rollIndent s.cursor.column none .blockMappingStart
    let s ← s.dropCandidate
    return ({ s with cursor := s.cursor.advance, keyAllowed := s.flowLevel == 0 } : Scanner).push .key

def mapValue (s : Scanner) : Except Error Scanner := do
  match s.candidate with
  | some k =>
    let s := s.insertAt k.position .key
    let s := s.rollIndent k.column (some k.position) .blockMappingStart
    return ({ s with
      cursor := s.cursor.advance, candidate := none, keyAllowed := false } : Scanner).push .value
  | none =>
    if s.flowLevel == 0 && !s.keyAllowed then .error .valueContext
    else
      let s := s.rollIndent s.cursor.column none .blockMappingStart
      return ({ s with
        cursor := s.cursor.advance, keyAllowed := s.flowLevel == 0 } : Scanner).push .value

/-- An anchor or an alias. -/
def anchorToken (s : Scanner) (make : String → Token) : Except Error Scanner := do
  let s ← s.saveCandidate
  let name := s.cursor.rest.tail.takeWhile isAnchorChar
  let c := s.cursor.advanceBy (name.length + 1)
  if name.isEmpty || !closesAnchor c.rest then .error .badAnchor
  else return ({ s with cursor := c, keyAllowed := false } : Scanner).push (make (String.ofList name))

def tagToken (s : Scanner) : Except Error Scanner := do
  let s ← s.saveCandidate
  let (handle, suffix, c) ← tagParts s.cursor
  if atGap c.rest then
    return ({ s with cursor := c, keyAllowed := false } : Scanner).push (.tag handle suffix)
  else .error .badTag

def blockScalarToken (s : Scanner) (literal : Bool) : Except Error Scanner := do
  let s ← s.dropCandidate
  let (text, c) ← blockScalar literal s.indent s.cursor.advance
  return ({ s with cursor := c, keyAllowed := true } : Scanner).push (.scalar text false)

def quotedToken (s : Scanner) (single : Bool) : Except Error Scanner := do
  let s ← s.saveCandidate
  let (acc, c) ← quotedScalar single (s.cursor.rest.length + 1) [] s.cursor.advance
  return ({ s with cursor := c, keyAllowed := false } : Scanner).push
    (.scalar (String.ofList acc.reverse) false)

def plainToken (s : Scanner) : Except Error Scanner := do
  let s ← s.saveCandidate
  let (acc, broken, c) ←
    plainScalar (0 < s.flowLevel) (s.indent + 1) (s.cursor.rest.length + 1) [] {} s.cursor
  return ({ s with cursor := c, keyAllowed := broken } : Scanner).push
    (.scalar (String.ofList acc.reverse) true)

/-- Characters that can not start a plain scalar. -/
def isIndicator (c : Char) : Bool :=
  "-?:,[]\x7b\x7d#&*!|>'\"%@".toList.contains c || c.toNat = 0x60

/-- Whether a plain scalar starts here. -/
def startsPlain (inFlow : Bool) : List Char → Bool
  | [] => false
  | c :: rest =>
    !(isIndicator c || atGap (c :: rest)) ||
    (c = '-' && !(rest.head?.map isBlankChar).getD false) ||
    (!inFlow && (c = '?' || c = ':') && !atGap rest)

/-- Reads the next token. -/
def step (s : Scanner) : Except Error Scanner := do
  let s := skipGaps (s.cursor.rest.length + 1) s
  let s ← s.dropStale
  let s := s.unrollIndent s.cursor.column
  let inFlow := 0 < s.flowLevel
  match s.cursor.rest with
  | [] => s.finish
  | c :: rest =>
    if c = '%' && s.cursor.column == 0 then s.directive
    else if s.cursor.atDocumentMark then
      s.documentMark (if c = '-' then .documentStart else .documentEnd)
    else if c = '[' then s.flowStart .flowSequenceStart
    else if c = '\x7b' then s.flowStart .flowMappingStart
    else if c = ']' then s.flowEnd .flowSequenceEnd
    else if c = '\x7d' then s.flowEnd .flowMappingEnd
    else if c = ',' then s.flowEntry
    else if c = '-' && atGap rest then s.blockEntry
    else if c = '?' && (inFlow || atGap rest) then s.explicitKey
    else if c = ':' && (inFlow || atGap rest) then s.mapValue
    else if c = '*' then s.anchorToken .alias
    else if c = '&' then s.anchorToken .anchor
    else if c = '!' then s.tagToken
    else if c = '|' && !inFlow then s.blockScalarToken true
    else if c = '>' && !inFlow then s.blockScalarToken false
    else if c = '\x27' then s.quotedToken true
    else if c = '"' then s.quotedToken false
    else if startsPlain inFlow (c :: rest) then s.plainToken
    else .error .strayCharacter

/-- Reads tokens to the end, or up to an error. -/
def run : Nat → Scanner → Scanner
  | 0, s => s.refuse .tooDeep
  | bound + 1, s =>
    if s.done then s
    else
      match s.step with
      | .ok s => run bound s
      | .error e => s.refuse e

/-- The tokens of a text. A byte order mark in front is not part of it. -/
def scan (text : String) : List Token :=
  let cs := match text.toList with
    | '\uFEFF' :: rest => rest
    | cs => cs
  if !Text.isWellFormed text then [.invalid .notCharacters]
  else if cs.all isAllowed then (run (cs.length + 2) { cursor := ⟨cs, 0, 0, 0⟩ }).tokens.reverse
  else [.invalid .controlCharacter]

end Scanner

end Sessions.Yaml
