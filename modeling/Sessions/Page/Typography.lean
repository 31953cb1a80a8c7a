import Sessions.Text.Entity
import Sessions.Text.Kind
import Sessions.Text.Markup

/-!
# Sessions.Page.Typography

Plain text as it stands on a page: characters of markup are escaped, and quotes, dashes, dots and
fractions are set the way a printer would set them. Whether a quote opens or closes depends on the
characters around it and, where these say nothing, on the quotes so far (`Quotes`).
-/

namespace Sessions.Page

open Text (isGap isPunctuation isBoundary)

/-! ## Escapes -/

/-- How one character stands in the text of a page. -/
def pageChar (c : Char) : List Char :=
  if c = '"' then "&quot;".toList else Text.markupChar c

/-- A text with every character of markup escaped. -/
def escapeAll (s : String) : String :=
  String.ofList (s.toList.flatMap pageChar)

/-- Whether the text after an ampersand is the name of a character and a semicolon. -/
def startsEntity (cs : List Char) : Bool :=
  let name := cs.takeWhile Char.isAlphanum
  cs[name.length]? = some ';' && Text.isEntityName (String.ofList name)

/-- A text with the characters of markup escaped; named characters stay what they are. -/
def escapeChars : List Char → List Char
  | [] => []
  | c :: rest =>
    if c = '&' && startsEntity rest then c :: escapeChars rest
    else pageChar c ++ escapeChars rest

def escapeText (s : String) : String :=
  String.ofList (escapeChars s.toList)

/-! ## Quotes -/

/-- Which quotes are open. -/
structure Quotes where
  single : Bool := false
  double : Bool := false
deriving DecidableEq, Repr

/-- The neighbour of a quote. -/
inductive Neighbour where
  | edge
  | gap
  | punctuation
  | word
deriving DecidableEq, Repr

def Neighbour.of : Option Char → Neighbour
  | none => .edge
  | some c => if isGap c then .gap else if isPunctuation c then .punctuation else .word

/-- Whether a quote between two neighbours opens. Between neighbours of one kind it does what the
last one did not. -/
def opens (isOpen : Bool) : Neighbour → Neighbour → Bool
  | .edge, .edge => !isOpen
  | .gap, .gap => !isOpen
  | .punctuation, .punctuation => !isOpen
  | .gap, .edge => true
  | .gap, .punctuation => true
  | .edge, .word => true
  | .gap, .word => true
  | .punctuation, .word => true
  | _, _ => false

def quoteMark (isOpen : Bool) (kind : Char) : List Char :=
  ['&', if isOpen then 'l' else 'r', kind] ++ "quo;".toList

/-- A double quote between two characters. -/
def doubleQuote (q : Quotes) (previous next : Option Char) : List Char × Quotes :=
  let isOpen := opens q.double (.of previous) (.of next)
  (quoteMark isOpen 'd', { q with double := isOpen })

/-- A single quote between two characters. -/
def singleQuote (q : Quotes) (previous next : Option Char) : List Char × Quotes :=
  let isOpen := opens q.single (.of previous) (.of next)
  (quoteMark isOpen 's', { q with single := isOpen })

/-- The ends of words that are written after an apostrophe. -/
def contractions : List (List Char) := ["s", "t", "m", "d", "re", "ll", "ve"].map String.toList

def isContraction (cs : List Char) : Bool :=
  contractions.any fun e =>
    (cs.take e.length).map Char.toLower = e && isBoundary cs[e.length]?

/-! ## Setting -/

/-- The fraction that a text starts with: how long it is, and how it is set. The digits of a date are
no fraction. -/
def fraction? (cs : List Char) : Option (Nat × List Char) :=
  let above := cs.takeWhile Char.isDigit
  match cs.drop above.length with
  | slash :: rest =>
    let below := rest.takeWhile Char.isDigit
    let next := rest[below.length]?
    if (slash = '/' || slash = '⁄') && !below.isEmpty && isBoundary next && next ≠ some '/' then
      some (above.length + 1 + below.length,
        "<sup>".toList ++ above ++ "</sup>&frasl;<sub>".toList ++ below ++ "</sub>".toList)
    else none
  | [] => none

/-- What a text starts with that is set in a way of its own: how many characters it has, how it is
set, and which quotes are open after it. -/
def sign? (q : Quotes) (previous : Option Char) (cs : List Char) :
    Option (Nat × List Char × Quotes) :=
  let fixed (n : Nat) (s : String) : Option (Nat × List Char × Quotes) := some (n, s.toList, q)
  let quote (n : Nat) : Option (Nat × List Char × Quotes) := some (n, doubleQuote q previous cs[n]?)
  match cs with
  | '&' :: rest =>
    if "quot;".toList.isPrefixOf rest then quote 6
    else if "#0;".toList.isPrefixOf rest then fixed 4 ""
    else none
  | '\x27' :: '\x27' :: _ => quote 2
  | '\x27' :: rest =>
    if isContraction rest then fixed 1 "&rsquo;" else some (1, singleQuote q previous rest.head?)
  | '\x60' :: '\x60' :: _ => quote 2
  | '(' :: a :: ')' :: _ =>
    if a.toLower = 'c' then fixed 3 "&copy;"
    else if a.toLower = 'r' then fixed 3 "&reg;"
    else none
  | '(' :: a :: b :: ')' :: _ =>
    if a.toLower = 't' && b.toLower = 'm' then fixed 4 "&trade;" else none
  | '-' :: '-' :: '-' :: _ => fixed 3 "&mdash;"
  | '-' :: '-' :: _ => fixed 2 "&ndash;"
  | '.' :: '.' :: '.' :: _ => fixed 3 "&hellip;"
  | '.' :: ' ' :: '.' :: ' ' :: '.' :: _ => fixed 5 "&hellip;"
  | c :: _ =>
    if '1' ≤ c && c ≤ '9' && isBoundary previous && previous ≠ some '/' then
      (fraction? cs).map fun (n, set) => (n, set, q)
    else none
  | [] => none

/-- Sets an escaped text. -/
def setChars : (bound : Nat) → Quotes → (previous : Option Char) → List Char → List Char × Quotes
  | 0, q, _, _ => ([], q)
  | _ + 1, q, _, [] => ([], q)
  | bound + 1, q, previous, c :: rest =>
    match sign? q previous (c :: rest) with
    | some (n, set, q) =>
      let (more, q) := setChars bound q (c :: rest)[n - 1]? ((c :: rest).drop n)
      (set ++ more, q)
    | none =>
      let (more, q) := setChars bound q (some c) rest
      (c :: more, q)

/-- Escapes and sets a plain text. -/
def setText (q : Quotes) (s : String) : String × Quotes :=
  let cs := escapeChars s.toList
  let (set, q) := setChars (cs.length + 1) q none cs
  (String.ofList set, q)

end Sessions.Page
