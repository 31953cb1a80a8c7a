/-!
# Sessions.Document.Version

Versions of the document format, such as `1.2.3-beta+build`, and their order. A version with a tag
after a hyphen is preliminary and stands before the finished version with the same numbers; build
data after a plus sign counts for nothing.
-/

namespace Sessions.Document

/-- A version. Parts that were not written are zero; a finished version has no tag. -/
structure Version where
  major : Nat
  minor : Nat
  patch : Nat
  tag : List String
deriving DecidableEq, Repr

namespace Version

def isTagChar (c : Char) : Bool :=
  c.isAlphanum || c = '-'

/-- The dot-separated parts of a tag; each is non-empty and has only letters, digits and hyphens. -/
def tagParts? (cs : List Char) : Option (List String) :=
  let parts := (String.ofList cs).splitOn "."
  if parts.all fun p => !p.isEmpty && p.toList.all isTagChar then some parts else none

/-- Numbers in the tag of a preliminary version have no leading zero. -/
def isPreliminaryPart (part : String) : Bool :=
  let p := part.toList
  !(p.all Char.isDigit && 1 < p.length && p.head? == some '0')

def digitsValue (ds : List Char) : Nat :=
  ds.foldl (fun n d => 10 * n + (d.toNat - '0'.toNat)) 0

/-- A number of 64 bits from the front of the text. -/
def number? (cs : List Char) : Option (Nat × List Char) :=
  let ds := cs.takeWhile Char.isDigit
  if ds.isEmpty || Nat.pow 2 64 ≤ digitsValue ds then none
  else some (digitsValue ds, cs.dropWhile Char.isDigit)

/-- A further part of a version, if a dot announces one. -/
def part? (cs : List Char) : Option (Nat × List Char) :=
  match cs with
  | '.' :: rest => number? rest
  | _ => some (0, cs)

/-- What may end a version: nothing, or build data. -/
def build? (cs : List Char) : Option Unit :=
  match cs with
  | [] => some ()
  | '+' :: rest => (tagParts? rest).map fun _ => ()
  | _ => none

/-- The tag after the numbers of a version, and whatever follows it. -/
def tag? (cs : List Char) : Option (List String) :=
  match cs with
  | '-' :: rest => do
    let parts ← tagParts? (rest.takeWhile (· ≠ '+'))
    let _ ← build? (rest.dropWhile (· ≠ '+'))
    if parts.all isPreliminaryPart then some parts else none
  | _ => (build? cs).map fun _ => []

/-- Reads a version; a letter `v` may stand before it. -/
def parse? (text : String) : Option Version := do
  let cs := match text.toList with
    | 'v' :: rest => rest
    | cs => cs
  let (major, cs) ← number? cs
  let (minor, cs) ← part? cs
  let (patch, cs) ← part? cs
  let tag ← tag? cs
  return ⟨major, minor, patch, tag⟩

/-! ## Order -/

/-- The number that a part of a tag is, if it is one. -/
def partNumber? (part : String) : Option Nat :=
  match number? part.toList with
  | some (n, []) => some n
  | _ => none

/-- The order of two parts of a tag: numbers by value and before words, words by their letters. -/
def comparePart (p q : String) : Ordering :=
  match partNumber? p, partNumber? q with
  | some m, some n => compare m n
  | some _, none => .lt
  | none, some _ => .gt
  | none, none => compare p q

/-- The order of two tags: by the first parts that differ, and a tag before the longer ones that
start with it. -/
def compareTag : List String → List String → Ordering
  | [], [] => .eq
  | [], _ => .lt
  | _, [] => .gt
  | p :: ps, q :: qs => (comparePart p q).then (compareTag ps qs)

/-- Whether a version is a preliminary one. -/
def isPreliminary (v : Version) : Bool :=
  !v.tag.isEmpty

/-- The order of versions: by their numbers, and then a preliminary one before the finished one. -/
def order (v w : Version) : Ordering :=
  (compare v.major w.major).then <| (compare v.minor w.minor).then <|
    (compare v.patch w.patch).then <|
      (compare w.isPreliminary v.isPreliminary).then (compareTag v.tag w.tag)

end Version

end Sessions.Document
