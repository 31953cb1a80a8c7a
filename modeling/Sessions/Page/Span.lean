import Sessions.Text.Kind

/-!
# Sessions.Page.Span

The pieces of a line of Markdown, and how a line is read into them. `Span.read` goes through a line
from left to right; at each character that may start something it asks what is there (`at?`), and
whatever is nothing of the kind stays plain text.
-/

namespace Sessions.Page

open Text (isGap isPunctuation)

/-- A piece of a line. -/
inductive Span where
  | plain (s : String)
  | code (s : String)
  | emphasis (inner : List Span)
  | strong (inner : List Span)
  | struck (inner : List Span)
  | link (target title : String) (inner : List Span)
  | image (source title alt : String)
  /-- A tag, which goes into the page as it is. -/
  | tag (s : String)
  | lineBreak
deriving Repr, Inhabited

namespace Span

/-- What stands at the front of a text: how many characters it takes, and what it shows, if it shows
anything. -/
structure Taken where
  size : Nat
  span : Option Span

/-- The character that encloses code. -/
def tick : Char := '\x60'

/-! ## Emphasis -/

/-- Where a character first stands in a text whose own place is given. -/
def placeOf? (sought : Char) (start : Nat) (cs : List Char) : Option Nat :=
  (cs.findIdx? (· = sought)).map (start + ·)

/-- The place of the next mark that is neither escaped nor inside code or a link. A mark inside code
or a link that is not closed counts. -/
def markFrom? (mark : Char) :
    (bound place : Nat) → (previous : Option Char) → List Char → Option Nat
  | 0, _, _, _ => none
  | _ + 1, _, _, [] => none
  | bound + 1, i, previous, c :: rest =>
    if (c ≠ mark && c ≠ tick && c ≠ '[') || previous = some '\\' then
      markFrom? mark bound (i + 1) (some c) rest
    else if c = mark then some i
    else if c = tick then
      let inner := rest.takeWhile (· ≠ tick)
      match rest.drop inner.length with
      | [] => placeOf? mark (i + 1) inner
      | _ :: more => markFrom? mark bound (i + inner.length + 2) (some tick) more
    else
      let inner := rest.takeWhile (· ≠ ']')
      let hidden := placeOf? mark (i + 1) inner
      let after := rest.drop (inner.length + 1)
      let gap := after.takeWhile fun c => c = ' ' || c = '\n'
      let j := i + inner.length + 2 + gap.length
      match after.drop gap.length with
      | [] => hidden
      | d :: more =>
        if d ≠ '[' && d ≠ '(' then
          match hidden with
          | some h => some h
          | none => markFrom? mark bound j (some ']') (d :: more)
        else
          let target := more.takeWhile (· ≠ d)
          match hidden, placeOf? mark (j + 1) target with
          | none, some h => some h
          | _, _ =>
            match more.drop target.length with
            | [] => hidden
            | _ :: more => markFrom? mark bound (j + target.length + 2) (some d) more

/-- The place of the next mark, unless it is the very first character. -/
def mark? (mark : Char) (cs : List Char) : Option Nat :=
  (markFrom? mark (cs.length + 1) 0 none cs).filter (· ≠ 0)

/-- Whether a gap stands before a place. -/
def gapBefore (cs : List Char) (i : Nat) : Bool :=
  ((cs[i - 1]?).map isGap).getD true

/-- Where a text after a single mark ends. The mark that ends it is followed by no word. -/
def singleEnd? (mark : Char) (cs : List Char) : Option Nat :=
  (mark? mark cs).filter fun i =>
    !gapBefore cs i && cs[i + 1]? ≠ some mark && Text.isBoundary cs[i + 1]?

/-- Where a text after two marks ends, from a place on. -/
def doubleEnd? (mark : Char) (cs : List Char) : (bound place : Nat) → Option Nat
  | 0, _ => none
  | bound + 1, i =>
    match mark? mark (cs.drop i) with
    | none => none
    | some n =>
      if cs[i + n + 1]? = some mark && !gapBefore cs (i + n) then some (i + n)
      else doubleEnd? mark cs bound (i + n + 1)

/-- Where a text after three marks ends. -/
def tripleEnd? (mark : Char) (cs : List Char) : Option Nat :=
  (mark? mark cs).filter fun i =>
    !gapBefore cs i && cs[i + 1]? = some mark && cs[i + 2]? = some mark

/-- A text between marks. One mark emphasises, two are stronger, three are both; two tildes strike
out. -/
def emphasis? (read : List Char → List Span) (mark : Char) (cs : List Char) : Option Taken :=
  match (cs.takeWhile (· = mark)).length, cs.dropWhile (· = mark) with
  | n, c :: rest =>
    let text := c :: rest
    if isGap c || rest.isEmpty then none
    else
      match n with
      | 1 =>
        if mark = '~' then none
        else (singleEnd? mark text).map fun i => ⟨i + 2, some (.emphasis (read (text.take i)))⟩
      | 2 =>
        (doubleEnd? mark text (text.length + 1) 0).map fun i =>
          let inner := read (text.take i)
          ⟨i + 4, some (if mark = '~' then .struck inner else .strong inner)⟩
      | 3 =>
        if mark = '~' then none
        else
          (tripleEnd? mark text).map fun i =>
            ⟨i + 6, some (.strong [.emphasis (read (text.take i))])⟩
      | _ => none
  | _, [] => none

/-! ## Code -/

/-- The place after the next run of so many ticks. -/
def codeEnd? (ticks : Nat) : (run place : Nat) → List Char → Option Nat
  | run, i, [] => if run = ticks then some i else none
  | run, i, c :: rest =>
    if run = ticks then some i
    else codeEnd? ticks (if c = tick then run + 1 else 0) (i + 1) rest

/-- Code between runs of ticks of one length; blanks at its ends do not show. -/
def code? (cs : List Char) : Option Taken :=
  let ticks := (cs.takeWhile (· = tick)).length
  (codeEnd? ticks 0 ticks (cs.drop ticks)).map fun stop =>
    let text := (cs.drop ticks).take (stop - 2 * ticks)
    let text := ((text.dropWhile (· = ' ')).reverse.dropWhile (· = ' ')).reverse
    ⟨stop, if text.isEmpty then none else some (.code (String.ofList text))⟩

/-! ## Links -/

/-- A text with the backslashes before its characters removed. -/
def unescaped : List Char → List Char
  | [] => []
  | '\\' :: c :: rest => c :: unescaped rest
  | ['\\'] => []
  | c :: rest => c :: unescaped rest

/-- The text up to the bracket that closes one already open, and what follows it. -/
def bracketed? : (level : Nat) → (escaped : Bool) → List Char → Option (List Char × List Char)
  | _, _, [] => none
  | level, escaped, c :: rest =>
    if c = ']' && !escaped && level = 0 then some ([], rest)
    else
      let level :=
        if escaped then level
        else if c = '[' then level + 1
        else if c = ']' then level - 1
        else level
      (bracketed? level (c = '\\' && !escaped) rest).map fun (inner, rest) => (c :: inner, rest)

/-- The target of a link up to a closing parenthesis or a quote, which starts what follows. -/
def target : List Char → List Char × List Char
  | [] => ([], [])
  | '\\' :: c :: rest =>
    let (t, rest) := target rest
    ('\\' :: c :: t, rest)
  | c :: rest =>
    if c = ')' || c = '\x27' || c = '"' then ([], c :: rest)
    else
      let (t, rest) := target rest
      (c :: t, rest)

/-- The title of a link up to the parenthesis that closes it. A parenthesis counts only after the
quote that opened the title has come again. -/
def title? (quote : Char) : (closed : Bool) → List Char → Option (List Char × List Char)
  | _, [] => none
  | closed, '\\' :: c :: rest =>
    (title? quote closed rest).map fun (t, rest) => ('\\' :: c :: t, rest)
  | closed, c :: rest =>
    if closed && c = ')' then some ([], rest)
    else (title? quote (closed || c = quote) rest).map fun (t, rest) => (c :: t, rest)

def trimEnd (cs : List Char) : List Char :=
  (cs.reverse.dropWhile isGap).reverse

/-- A target without the angle brackets around it. -/
def withoutAngles (cs : List Char) : List Char :=
  let cs := match cs with
    | '<' :: rest => rest
    | cs => cs
  match cs.reverse with
  | '>' :: rest => rest.reverse
  | _ => cs

/-- The target and the title of a link, after its opening parenthesis. -/
def destination? (cs : List Char) : Option ((List Char × List Char) × List Char) :=
  let (t, rest) := target (cs.dropWhile isGap)
  match rest with
  | [] => none
  | ')' :: rest => some ((withoutAngles (trimEnd t), []), rest)
  | quote :: rest =>
    (title? quote false rest).map fun (text, after) =>
      match (trimEnd text).reverse with
      | c :: title =>
        if c = '\x27' || c = '"' then ((withoutAngles (trimEnd t), title.reverse), after)
        else ((withoutAngles (trimEnd (t ++ quote :: text)), []), after)
      | [] => ((withoutAngles (trimEnd (t ++ quote :: text)), []), after)

/-- A link or, after an exclamation mark, an image; the text starts after the opening bracket. -/
def link? (read : List Char → List Span) (isImage : Bool) (cs : List Char) : Option Taken := do
  let (text, rest) ← bracketed? 0 false cs
  match rest.dropWhile isGap with
  | '(' :: rest =>
    let ((t, title), rest) ← destination? rest
    let t := unescaped t
    let size := cs.length - rest.length
    if t.isEmpty then none
    else if isImage then
      some ⟨size + 2, some (.image (String.ofList t) (String.ofList title) (String.ofList text))⟩
    else if text.isEmpty then none
    else some ⟨size + 1, some (.link (String.ofList t) (String.ofList title) (read text))⟩
  | _ => none

/-- The beginnings of addresses that are links even if nothing says so. -/
def schemes : List String := ["http://", "https://", "ftp://", "mailto://"]

/-- Whether a text starts with an address. -/
def startsAddress (cs : List Char) : Bool :=
  schemes.any fun s =>
    (cs.take s.length).map Char.toLower = s.toList && ((cs[s.length]?).map Char.isAlphanum).getD false

/-- Whether a reversed text starts with the end of a named character. -/
def endsName : List Char → Bool
  | ';' :: rest =>
    let name := rest.takeWhile Char.isLower
    2 ≤ name.length && name.length ≤ 5 && rest[name.length]? = some '&'
  | _ => false

/-- How many more brackets close than open in a reversed text, until all of them are open; whether
that happens at all. -/
def opensBefore (opening closing : Char) : (level : Nat) → List Char → Bool
  | 0, _ => true
  | _ + 1, [] => false
  | level + 1, c :: rest =>
    if c = '\n' then false
    else
      let level := if c = closing then level + 2 else level + 1
      opensBefore opening closing (if c = opening then level - 1 else level) rest

/-- The reversed text of an address without the punctuation that ends the sentence around it;
`before` is the reversed text before the address. -/
def withoutEnd (before : List Char) (address : List Char) : List Char :=
  let strip (p : Char → Bool) (cs : List Char) : List Char :=
    match cs with
    | c :: d :: rest => if p c && d ≠ '\\' then d :: rest else cs
    | cs => cs
  let cs := strip (fun c => c = '.' || c = ',') address
  let cs := if endsName cs then cs else strip (· = ';') cs
  match cs with
  | c :: rest =>
    let closes (opening : Char) : Bool := opensBefore opening c 1 (rest ++ before)
    if (c = ')' && closes '(') || (c = ']' && closes '[') || (c = '\x7d' && closes '\x7b') then rest
    else cs
  | [] => []

/-- An address that stands in the text, not directly after a letter. -/
def address? (before cs : List Char) : Option Taken :=
  if ((before.head?).map Char.isAlpha).getD false || !startsAddress cs then none
  else
    let run := cs.takeWhile fun c => !isGap c && c ≠ '<'
    let address := (withoutEnd before run.reverse).reverse
    let shown := String.ofList (unescaped address)
    some ⟨address.length, if shown = "" then none else some (.link shown "" [.plain shown])⟩

/-! ## Tags -/

/-- The length of the rest of a mail address in angle brackets, from its at sign to the closing
bracket. -/
def mailEnd? (cs : List Char) : Option Nat :=
  let run := cs.takeWhile fun c => c.isAlphanum || c = '@' || c = '-' || c = '.' || c = '_'
  if run.count '@' = 1 && cs[run.length]? = some '>' then some (run.length + 1) else none

/-- The length of an address up to a closing angle bracket, a quote or a gap. -/
def addressRun : List Char → Nat
  | [] => 0
  | '\\' :: _ :: rest => addressRun rest + 2
  | c :: rest =>
    if c = '>' || c = '\x27' || c = '"' || isGap c then 0 else addressRun rest + 1

/-- What angle brackets enclose. -/
inductive Angle where
  | markup
  | address
  | mail
deriving DecidableEq, Repr

/-- The length of a tag, an address or a mail address in angle brackets. A tag that is not closed
ends after its name. -/
def angleSize (cs : List Char) : Angle × Nat :=
  let start := if cs[1]? = some '/' then 2 else 1
  if cs.length < 3 || !((cs[start]?).map Char.isAlphanum).getD false then (.markup, 0)
  else
    let name := (cs.drop start).takeWhile fun c =>
      c.isAlphanum || c = '.' || c = '+' || c = '-'
    let i := start + name.length
    let rest := cs.drop i
    let markup (i : Nat) : Angle × Nat :=
      (.markup, i + (((cs.drop i).findIdx? (· = '>')).map (· + 1)).getD 0)
    match rest with
    | '@' :: _ =>
      match mailEnd? rest with
      | some j => (.mail, i + j)
      | none => markup i
    | ':' :: rest =>
      if i ≤ 2 then markup i
      else if rest.isEmpty then markup (i + 1)
      else
        let n := addressRun rest
        if rest.length ≤ n then (.address, 0)
        else if 0 < n && rest[n]? = some '>' then (.address, i + n + 2)
        else markup (i + 1 + n)
    | _ => markup i

/-- The length of a comment. -/
def commentSize (cs : List Char) : Nat :=
  let rec find (n : Nat) : List Char → Nat
    | '-' :: '-' :: '>' :: _ => n + 3
    | _ :: rest => find (n + 1) rest
    | [] => 0
  if "<!--".toList.isPrefixOf cs then find 3 (cs.drop 3) else 0

/-- A mail address without the scheme before it. -/
def withoutScheme (cs : List Char) : List Char :=
  if "mailto://".toList.isPrefixOf cs then cs.drop 9
  else if "mailto:".toList.isPrefixOf cs then cs.drop 7
  else cs

/-- Whatever starts with an angle bracket. -/
def angle? (cs : List Char) : Option Taken :=
  let (kind, size) := angleSize cs
  let comment := commentSize cs
  let size := if 0 < comment then comment else size
  if size = 0 then none
  else if size ≤ 2 then some ⟨size, none⟩
  else
    let inside := unescaped ((cs.take (size - 1)).drop 1)
    match kind with
    | .markup => some ⟨size, some (.tag (String.ofList (cs.take size)))⟩
    | .address =>
      let shown := String.ofList (withoutScheme inside)
      some ⟨size, some (.link (String.ofList inside) "" [.plain shown])⟩
    | .mail =>
      let shown := String.ofList (withoutScheme inside)
      some ⟨size, some (.link ("mailto:" ++ String.ofList inside) "" [.plain shown])⟩

/-! ## Single characters -/

/-- A named or numbered character. -/
def entity? (cs : List Char) : Option Taken :=
  let rest := cs.drop 1
  let lead := if rest.head? = some '#' then 1 else 0
  let name := (rest.drop lead).takeWhile Char.isAlphanum
  let size := 1 + lead + name.length
  if cs[size]? = some ';' then
    let text := String.ofList (cs.take (size + 1))
    some ⟨size + 1, some (.plain (if text = "&amp;" then "&" else text))⟩
  else none

/-- The characters that a backslash can make plain. -/
def escapable : List Char := "\\\x60*_\x7b\x7d[]()#+-.!:|&<>~".toList

/-- A character after a backslash. At the end of a line it breaks the line. -/
def escape? : List Char → Option Taken
  | _ :: c :: _ =>
    if c = '\n' then some ⟨2, some .lineBreak⟩
    else if escapable.contains c then some ⟨2, some (.plain (String.singleton c))⟩
    else none
  | _ => some ⟨2, none⟩

/-- Blanks at the end of a line: two of them break the line. -/
def blanks? (cs : List Char) : Option Taken :=
  let n := (cs.takeWhile (· = ' ')).length
  if cs[n]? ≠ some '\n' then none
  else if 2 ≤ n then some ⟨n + 1, some .lineBreak⟩
  else some ⟨n, none⟩

/-! ## Lines -/

/-- What starts at a character, if anything does; `before` is the reversed text before it. -/
def at? (read : Bool → List Char → List Span) (insideLink : Bool) (before cs : List Char) :
    Option Taken :=
  let link (isImage : Bool) (rest : List Char) : Option Taken :=
    if insideLink && (before.head? = some '[' || rest.head? = some '^') then none
    else link? (read true) isImage rest
  match cs with
  | [] => none
  | c :: rest =>
    match c with
    | ' ' => blanks? cs
    | '*' => emphasis? (read insideLink) '*' cs
    | '_' => emphasis? (read insideLink) '_' cs
    | '~' => emphasis? (read insideLink) '~' cs
    | '\x60' => code? cs
    | '[' => link false rest
    | '!' => if rest.head? = some '[' then link true (rest.drop 1) else none
    | '<' => angle? cs
    | '\\' => escape? cs
    | '&' => entity? cs
    | _ =>
      if insideLink || !"hmf".toList.contains c.toLower then none else address? before cs

/-- Reads a text from a place on. `pending` is the reversed plain text that is not yet a span. -/
def walk (read : Bool → List Char → List Span) (insideLink : Bool) :
    (bound : Nat) → (before pending rest : List Char) → List Span
  | 0, _, _, _ => []
  | _ + 1, _, pending, [] =>
    let text := match pending with
      | '\n' :: more => more
      | _ => pending
    if text.isEmpty then [] else [.plain (String.ofList text.reverse)]
  | bound + 1, before, pending, c :: rest =>
    match at? read insideLink before (c :: rest) with
    | some ⟨size + 1, span⟩ =>
      let text := if pending.isEmpty then [] else [.plain (String.ofList pending.reverse)]
      let taken := (c :: rest).take (size + 1)
      text ++ span.toList ++
        walk read insideLink bound (taken.reverse ++ before) [] (rest.drop size)
    | _ => walk read insideLink bound (c :: before) (c :: pending) rest

/-- Reads a text in which spans stand inside each other to a given depth; what is deeper is lost. -/
def readWithin : (depth : Nat) → (insideLink : Bool) → List Char → List Span
  | 0, _, _ => []
  | depth + 1, insideLink, cs =>
    walk (readWithin depth) insideLink (cs.length + 1) [] [] cs

/-- Reads a line of Markdown. -/
def read (line : String) : List Span :=
  readWithin 16 false line.toList

end Span

end Sessions.Page
