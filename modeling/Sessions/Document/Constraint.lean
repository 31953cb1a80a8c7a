import Sessions.Document.Version

/-!
# Sessions.Document.Constraint

Constraints on versions. A constraint is a list of alternatives between bars (`^1.2 || ~3.4`), an
alternative a list of comparisons that all have to hold (`>=1.2, <2`), and a comparison a relation
before a version. Parts of that version may be left open, by leaving them out or by writing a star
or an `x`. Two versions with a hyphen between them stand for the range from one to the other.

A preliminary version is accepted only by comparisons with a preliminary version.
-/

namespace Sessions.Document

inductive Relation where
  | equal
  | unequal
  | above
  | below
  | atLeast
  | atMost
  /-- At least the version, and different from it in open parts or the patch number only. -/
  | near
  /-- At least the version, and not different in its left-most part that is not zero. -/
  | compatible
deriving DecidableEq, Repr

/-- The relations by their signs; no sign means equality. -/
def Relation.signs : List (String × Relation) :=
  [("", .equal), ("=", .equal), ("!=", .unequal), (">", .above), ("<", .below), (">=", .atLeast),
   ("=>", .atLeast), ("<=", .atMost), ("=<", .atMost), ("~", .near), ("~>", .near),
   ("^", .compatible)]

/-- From which part on a version in a comparison is open. -/
inductive Openness where
  | closed
  | patch
  | minor
  | major
deriving DecidableEq, Repr

/-- A relation to a version, whose open parts are zero. -/
structure Comparison where
  relation : Relation
  version : Version
  openness : Openness
deriving DecidableEq, Repr

/-- Alternatives, in each of which all comparisons have to hold. -/
structure Constraint where
  alternatives : List (List Comparison)
deriving DecidableEq, Repr

/-! ## Meaning -/

namespace Comparison

/-- Whether a version is at least the one of the comparison and differs from it in open parts or the
patch number only. Nothing but zeros is near everything. -/
def isNear (c : Comparison) (v : Version) : Bool :=
  let w := c.version
  v.order w ≠ .lt &&
    ((w.major == 0 && w.minor == 0 && w.patch == 0 &&
        (c.openness == .closed || c.openness == .major)) ||
      (v.major == w.major && (v.minor == w.minor || c.openness == .minor)))

/-- Whether a version adds to the one of the comparison without breaking it. -/
def isCompatible (c : Comparison) (v : Version) : Bool :=
  let w := c.version
  if v.order w = .lt then false
  else if 0 < w.major || c.openness = .minor then v.major == w.major
  else if 0 < v.major then false
  else if 0 < w.minor || c.openness = .patch then v.minor == w.minor
  else v.minor == 0 && v.patch == w.patch

/-- Whether a version is above the one of the comparison in the parts that are not open. -/
def isAbove (c : Comparison) (v : Version) : Bool :=
  let w := c.version
  match c.openness with
  | .minor => w.major < v.major
  | .patch => w.major < v.major || (v.major == w.major && w.minor < v.minor)
  | .closed => v.order w == .gt
  | .major => w.major < v.major || (v.major == w.major && v.order w == .gt)

/-- Whether a version is not above the one of the comparison in the parts that are not open. -/
def isAtMost (c : Comparison) (v : Version) : Bool :=
  let w := c.version
  if c.openness = .closed then v.order w != .gt
  else
    v.major ≤ w.major && !(v.major == w.major && w.minor < v.minor && c.openness != .minor)

/-- Whether a version differs from the one of the comparison in the parts that are not open, or in
its tag if only the patch number is. -/
def isUnequal (c : Comparison) (v : Version) : Bool :=
  let w := c.version
  match c.openness with
  | .minor => v.major != w.major
  | .patch => v.major != w.major || v.minor != w.minor || v.tag != w.tag
  | _ => v.order w != .eq

/-- Whether a version satisfies the comparison. -/
def admits (c : Comparison) (v : Version) : Bool :=
  if v.isPreliminary && !c.version.isPreliminary &&
      !(c.relation = .unequal && c.openness = .closed) then false
  else
    match c.relation with
    | .equal => if c.openness = .closed then v.order c.version == .eq else c.isNear v
    | .unequal => c.isUnequal v
    | .above => c.isAbove v
    | .below => v.order c.version == .lt
    | .atLeast => v.order c.version != .lt
    | .atMost => c.isAtMost v
    | .near => c.isNear v
    | .compatible => c.isCompatible v

end Comparison

/-- Whether a version is one that the constraint allows. -/
def Constraint.allows (c : Constraint) (v : Version) : Bool :=
  c.alternatives.any fun comparisons => comparisons.all fun c => c.admits v

/-! ## Reading -/

/-- Why a constraint can not be read. -/
inductive ConstraintFault where
  /-- An alternative that is no list of comparisons. -/
  | improper (alternative : String)
  /-- A comparison with something that is no version. -/
  | noVersion
deriving DecidableEq, Repr

def ConstraintFault.message : ConstraintFault → String
  | .improper a => "improper constraint: " ++ a
  | .noVersion => "constraint Parser Error"

namespace Constraint

def isGap (c : Char) : Bool :=
  c = ' ' || c = '\t' || c = '\n' || c = '\x0c' || c = '\r'

def isSign (c : Char) : Bool :=
  c = '=' || c = '!' || c = '<' || c = '>' || c = '~' || c = '^'

/-- The characters of a number that may be open. A single bar counts among them, and no version can
be read from it. -/
def isPartChar (c : Char) : Bool :=
  c.isDigit || c = 'x' || c = 'X' || c = '*' || c = '|'

/-- A version as it is written in a constraint. -/
structure Pattern where
  text : List Char
  major : List Char
  minor : List Char
  patch : List Char
  /-- The tag with the hyphen before it. -/
  tag : List Char

/-- A non-empty run of characters after a given one. -/
def runAfter? (first : Char) (p : Char → Bool) (cs : List Char) : Option (List Char × List Char) :=
  match cs with
  | c :: rest =>
    if c = first && !(rest.takeWhile p).isEmpty then some (rest.takeWhile p, rest.dropWhile p)
    else none
  | [] => none

/-- Further parts of a tag, a dot before each. -/
def moreParts : (bound : Nat) → List Char → List Char
  | 0, _ => []
  | bound + 1, cs =>
    match runAfter? '.' Version.isTagChar cs with
    | some (run, rest) => '.' :: run ++ moreParts bound rest
    | none => []

/-- The text of a tag after a given character, with that character; empty if there is none. -/
def tagText (first : Char) (cs : List Char) : List Char :=
  match runAfter? first Version.isTagChar cs with
  | some (run, rest) => first :: run ++ moreParts rest.length rest
  | none => []

/-- A version with open parts from the front of the text. -/
def pattern? (cs : List Char) : Option (Pattern × List Char) :=
  let body := match cs with
    | 'v' :: rest => rest
    | _ => cs
  let major := body.takeWhile isPartChar
  if major.isEmpty then none
  else
    let rest := body.dropWhile isPartChar
    let (minor, rest) := (runAfter? '.' isPartChar rest).getD ([], rest)
    let (patch, rest) :=
      if minor.isEmpty then ([], rest) else (runAfter? '.' isPartChar rest).getD ([], rest)
    let tag := tagText '-' rest
    let rest := rest.drop tag.length
    let rest := rest.drop (tagText '+' rest).length
    some (⟨cs.take (cs.length - rest.length), major, minor, patch, tag⟩, rest)

/-- Whether a part is left open. -/
def isOpen (part : List Char) : Bool :=
  part.isEmpty || part = ['x'] || part = ['X'] || part = ['*']

/-- The version of a pattern and from where on it is open. -/
def Pattern.version? (p : Pattern) : Option (Version × Openness) :=
  let zeros (parts : List (List Char)) : String :=
    String.ofList ((parts.intersperse ['.']).flatten ++ p.tag)
  if isOpen p.major then
    (Version.parse? (zeros [['0'], ['0'], ['0']])).map fun v => (v, .major)
  else if isOpen p.minor then
    (Version.parse? (zeros [p.major, ['0'], ['0']])).map fun v => (v, .minor)
  else if isOpen p.patch then
    (Version.parse? (zeros [p.major, p.minor, ['0']])).map fun v => (v, .patch)
  else (Version.parse? (String.ofList p.text)).map fun v => (v, .closed)

/-- A relation and a pattern from the front of the text. -/
def related? (cs : List Char) : Option ((Relation × Pattern) × List Char) := do
  let relation ← Relation.signs.lookup (String.ofList (cs.takeWhile isSign))
  let (p, rest) ← pattern? ((cs.dropWhile isSign).dropWhile isGap)
  return ((relation, p), rest)

/-- Comparisons up to the end of the text; gaps or a comma divide them. -/
def relatedAll? : (bound : Nat) → List Char → Option (List (Relation × Pattern))
  | 0, _ => none
  | bound + 1, cs =>
    match related? cs with
    | none => none
    | some (r, rest) =>
      match rest.dropWhile isGap with
      | [] => some [r]
      | ',' :: more => (relatedAll? bound (more.dropWhile isGap)).map (r :: ·)
      | more =>
        if more.length < rest.length then (relatedAll? bound more).map (r :: ·) else none

/-- Reads one alternative. -/
def alternative (text : String) : Except ConstraintFault (List Comparison) :=
  match relatedAll? (text.length + 1) (text.toList.dropWhile isGap) with
  | none => .error (.improper text)
  | some related => related.mapM fun (relation, p) =>
      match p.version? with
      | some (v, openness) => .ok ⟨relation, v, openness⟩
      | none => .error .noVersion

/-! ## Ranges -/

/-- A range from the front of the text: two versions with a hyphen in gaps between them. The gaps
around a range belong to it. -/
def range? (cs : List Char) : Option ((List Char × List Char) × List Char) := do
  let (least, rest) ← pattern? (cs.dropWhile isGap)
  let (_, rest) ← runAfter? '-' isGap (rest.dropWhile isGap) |>.filter fun _ =>
    (rest.head?.map isGap).getD false
  let (greatest, rest) ← pattern? rest
  return ((least.text, greatest.text), rest.dropWhile isGap)

/-- The ranges in a text from left to right: how each is written, and its ends. -/
def ranges : (bound : Nat) → List Char → List (List Char × List Char × List Char)
  | 0, _ => []
  | _ + 1, [] => []
  | bound + 1, c :: cs =>
    match range? (c :: cs) with
    | some ((least, greatest), rest) =>
      ((c :: cs).take (cs.length + 1 - rest.length), least, greatest) :: ranges bound rest
    | none => ranges bound cs

/-- A text with the first occurrence of another replaced. -/
def replaceFirst (sought replacement : List Char) : List Char → List Char
  | [] => []
  | c :: cs =>
    if sought.isPrefixOf (c :: cs) then replacement ++ (c :: cs).drop sought.length
    else c :: replaceFirst sought replacement cs

/-- A constraint with each range written as the two comparisons that it stands for. -/
def withoutRanges (text : String) : String :=
  let cs := text.toList
  String.ofList <| (ranges cs.length cs).foldl
    (fun cs (written, least, greatest) =>
      replaceFirst written (">= ".toList ++ least ++ ", <= ".toList ++ greatest ++ [' ']) cs) cs

/-- Reads a constraint; the first fault from the left is the answer. -/
def parse (text : String) : Except ConstraintFault Constraint :=
  (((withoutRanges text).splitOn "||").mapM alternative).map Constraint.mk

end Constraint

end Sessions.Document
