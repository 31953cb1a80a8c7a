import Sessions.Json.Reader
import Sessions.Text.Blank
import Sessions.Text.Bytes

/-!
# Sessions.Script.Pattern

Patterns of text: what stands between slashes in a script. `Pattern.parse?` reads one, and
`Pattern.search?` finds the first place in a text where it matches, trying alternatives from left to
right and repetitions as often as they say.
-/

namespace Sessions.Script

/-- Characters from one code to another, both included. -/
abbrev Range := Nat × Nat

inductive Pattern where
  | empty
  /-- One character that is in a range, or one that is in none. -/
  | one (outside : Bool) (ranges : List Range)
  | both (a b : Pattern)
  | either (a b : Pattern)
  | repeated (least : Nat) (most : Option Nat) (greedy : Bool) (p : Pattern)
  | start
  | finish
  /-- A place where a word starts or ends, or where none does. -/
  | edge (outside : Bool)
  /-- A place before something, or not before it. -/
  | ahead (outside : Bool) (p : Pattern)
deriving Repr, Inhabited

namespace Pattern

/-! ## Characters -/

def single (c : Char) : Range := (c.toNat, c.toNat)

def digits : List Range := [(0x30, 0x39)]

def wordChars : List Range := [(0x30, 0x39), (0x41, 0x5a), (0x5f, 0x5f), (0x61, 0x7a)]

def gaps : List Range :=
  [(9, 13), (0x20, 0x20), (0xA0, 0xA0), (0x1680, 0x1680), (0x2000, 0x200A), (0x2028, 0x2029),
   (0x202F, 0x202F), (0x205F, 0x205F), (0x3000, 0x3000), (0xFEFF, 0xFEFF)]

def lineEnds : List Range := [(0x0A, 0x0A), (0x0D, 0x0D), (0x2028, 0x2029)]

/-- The characters between sorted ranges. -/
def complement : (start : Nat) → List Range → List Range
  | n, [] => [(n, 0x10FFFF)]
  | n, (a, b) :: rest =>
    let after := complement (b + 1) rest
    if n < a then (n, a - 1) :: after else after

def inRanges (ranges : List Range) (c : Char) : Bool :=
  ranges.any fun (a, b) => a ≤ c.toNat && c.toNat ≤ b

/-! ## Reading -/

/-- The character that hexadecimal digits write; half a pair stands for no character. -/
def hexChar? (digits : List Char) : Option Char :=
  (digits.mapM Json.hexValue?).bind fun ns =>
    let n := ns.foldl (fun n d => 16 * n + d) 0
    if digits.isEmpty || 0x10FFFF < n then none
    else if n.isValidChar then some (Char.ofNat n)
    else some Text.replacement

/-- What a letter after a backslash stands for, if it is a set of characters. -/
def setEscape? : Char → Option (List Range)
  | 'd' => some digits
  | 'D' => some (complement 0 digits)
  | 'w' => some wordChars
  | 'W' => some (complement 0 wordChars)
  | 's' => some gaps
  | 'S' => some (complement 0 gaps)
  | _ => none

/-- A single character after a backslash. -/
def charEscape? : List Char → Option (Char × List Char)
  | 'n' :: rest => some ('\n', rest)
  | 't' :: rest => some ('\t', rest)
  | 'r' :: rest => some ('\r', rest)
  | 'f' :: rest => some ('\x0c', rest)
  | 'v' :: rest => some ('\x0b', rest)
  | '0' :: rest => some ('\x00', rest)
  | 'x' :: a :: b :: rest => (hexChar? [a, b]).map (·, rest)
  | 'u' :: a :: b :: c :: d :: rest => (hexChar? [a, b, c, d]).map (·, rest)
  | c :: rest => if c.isAlphanum then none else some (c, rest)
  | [] => none

/-- One member of a class: a set, or a character that may start a range. -/
def classAtom? : List Char → Option ((List Range ⊕ Char) × List Char)
  | '\\' :: 'b' :: rest => some (.inr '\x08', rest)
  | '\\' :: c :: rest =>
    match setEscape? c with
    | some s => some (.inl s, rest)
    | none => (charEscape? (c :: rest)).map fun (c, rest) => (.inr c, rest)
  | c :: rest => some (.inr c, rest)
  | [] => none

/-- The members of a class up to its closing bracket. -/
def classRanges? : (bound : Nat) → List Char → Option (List Range × List Char)
  | 0, _ => none
  | _ + 1, ']' :: rest => some ([], rest)
  | bound + 1, cs =>
    match classAtom? cs with
    | none => none
    | some (.inl s, rest) => (classRanges? bound rest).map fun (rs, rest) => (s ++ rs, rest)
    | some (.inr a, '-' :: rest) =>
      if rest.head? = some ']' then
        (classRanges? bound ('-' :: rest)).map fun (rs, rest) => (single a :: rs, rest)
      else
        match classAtom? rest with
        | some (.inr b, rest) =>
          if b < a then none
          else (classRanges? bound rest).map fun (rs, rest) => ((a.toNat, b.toNat) :: rs, rest)
        | some (.inl s, rest) =>
          (classRanges? bound rest).map fun (rs, rest) => (single a :: single '-' :: s ++ rs, rest)
        | none => none
    | some (.inr a, rest) => (classRanges? bound rest).map fun (rs, rest) => (single a :: rs, rest)

/-- A number of repetitions in braces. -/
def counts? (cs : List Char) : Option ((Nat × Option Nat) × List Char) :=
  let number (ds : List Char) : Nat := Json.Number.digitsValue ds
  let first := cs.takeWhile Char.isDigit
  if first.isEmpty then none
  else
    match cs.dropWhile Char.isDigit with
    | '\x7d' :: rest => some ((number first, some (number first)), rest)
    | ',' :: '\x7d' :: rest => some ((number first, none), rest)
    | ',' :: rest =>
      let second := rest.takeWhile Char.isDigit
      match rest.dropWhile Char.isDigit with
      | '\x7d' :: rest =>
        if second.isEmpty then none else some ((number first, some (number second)), rest)
      | _ => none
    | _ => none

/-- How often the thing before may be repeated. -/
def quantifier? (cs : List Char) : Option ((Nat × Option Nat) × List Char) :=
  match cs with
  | '*' :: rest => some ((0, none), rest)
  | '+' :: rest => some ((1, none), rest)
  | '?' :: rest => some ((0, some 1), rest)
  | '\x7b' :: rest => counts? rest
  | _ => none

/-- A thing with the number of its repetitions, if one follows. -/
def quantified (p : Pattern) (cs : List Char) : Option (Pattern × List Char) :=
  match quantifier? cs with
  | none => some (p, cs)
  | some ((least, most), rest) =>
    if (most.map (decide <| · < least)).getD false then none
    else
      match rest with
      | '?' :: rest => some (.repeated least most false p, rest)
      | _ => some (.repeated least most true p, rest)

/-- Reads alternatives up to a closing parenthesis or the end. -/
def alternatives? : (bound : Nat) → List Char → Option (Pattern × List Char)
  | 0, _ => none
  | bound + 1, cs =>
    let group (make : Pattern → Pattern) (rest : List Char) : Option (Pattern × List Char) :=
      match alternatives? bound rest with
      | some (p, ')' :: rest) => some (make p, rest)
      | _ => none
    let atom : Option (Option Pattern × List Char) :=
      match cs with
      | [] => some (none, [])
      | ')' :: _ => some (none, cs)
      | '|' :: _ => some (none, cs)
      | '^' :: rest => some (some .start, rest)
      | '$' :: rest => some (some .finish, rest)
      | '(' :: '?' :: ':' :: rest =>
        (group id rest).bind fun (p, rest) =>
          (quantified p rest).map fun (p, rest) => (some p, rest)
      | '(' :: '?' :: '=' :: rest => (group (.ahead false) rest).map fun (p, r) => (some p, r)
      | '(' :: '?' :: '!' :: rest => (group (.ahead true) rest).map fun (p, r) => (some p, r)
      | '(' :: '?' :: _ => none
      | '(' :: rest =>
        (group id rest).bind fun (p, rest) =>
          (quantified p rest).map fun (p, rest) => (some p, rest)
      | '\\' :: 'b' :: rest => some (some (.edge false), rest)
      | '\\' :: 'B' :: rest => some (some (.edge true), rest)
      | '\\' :: c :: rest =>
        match setEscape? c with
        | some s => (quantified (.one false s) rest).map fun (p, rest) => (some p, rest)
        | none =>
          (charEscape? (c :: rest)).bind fun (c, rest) =>
            (quantified (.one false [single c]) rest).map fun (p, rest) => (some p, rest)
      | '[' :: '^' :: rest =>
        (classRanges? (rest.length + 1) rest).bind fun (rs, rest) =>
          (quantified (.one true rs) rest).map fun (p, rest) => (some p, rest)
      | '[' :: rest =>
        (classRanges? (rest.length + 1) rest).bind fun (rs, rest) =>
          (quantified (.one false rs) rest).map fun (p, rest) => (some p, rest)
      | '.' :: rest =>
        (quantified (.one true lineEnds) rest).map fun (p, rest) => (some p, rest)
      | c :: rest =>
        if c = '*' || c = '+' || c = '?' || (c = '\x7b' && (counts? rest).isSome) then none
        else (quantified (.one false [single c]) rest).map fun (p, rest) => (some p, rest)
    match atom with
    | none => none
    | some (some p, rest) =>
      match alternatives? bound rest with
      | some (.either a b, rest) => some (.either (.both p a) b, rest)
      | some (q, rest) => some (.both p q, rest)
      | none => none
    | some (none, '|' :: rest) =>
      (alternatives? bound rest).map fun (p, rest) => (.either .empty p, rest)
    | some (none, rest) => some (.empty, rest)

/-- Reads a pattern. -/
def parse? (source : String) : Option Pattern :=
  match alternatives? (2 * source.length + 2) source.toList with
  | some (p, []) => some p
  | _ => none

/-! ## Matching -/

def isWordChar (c : Option Char) : Bool :=
  (c.map (inRanges wordChars)).getD false

/-- Whether a character is in ranges; without regard to case, if it is folded. -/
def admits (fold : Bool) (ranges : List Range) (c : Char) : Bool :=
  inRanges ranges c || (fold && (inRanges ranges c.toLower || inRanges ranges c.toUpper))

/-- Matches at a place, given the reversed text before it and the text after it; what has to match
afterwards is the last argument. The answer is what is left of the text. -/
def matchAt (fold : Bool) : (bound : Nat) → Pattern → (before rest : List Char) →
    (List Char → List Char → Option (List Char)) → Option (List Char)
  | 0, _, _, _, _ => none
  | bound + 1, p, before, rest, k =>
    match p with
    | .empty => k before rest
    | .one outside ranges =>
      match rest with
      | c :: rest => if admits fold ranges c != outside then k (c :: before) rest else none
      | [] => none
    | .both a b =>
      matchAt fold bound a before rest fun before rest => matchAt fold bound b before rest k
    | .either a b =>
      match matchAt fold bound a before rest k with
      | some r => some r
      | none => matchAt fold bound b before rest k
    | .repeated (least + 1) most greedy p =>
      matchAt fold bound p before rest fun before rest =>
        matchAt fold bound (.repeated least (most.map (· - 1)) greedy p) before rest k
    | .repeated 0 (some 0) _ _ => k before rest
    | .repeated 0 most greedy p =>
      let more (_ : Unit) : Option (List Char) :=
        matchAt fold bound p before rest fun before' rest' =>
          if rest'.length = rest.length then none
          else matchAt fold bound (.repeated 0 (most.map (· - 1)) greedy p) before' rest' k
      if greedy then
        match more () with
        | some r => some r
        | none => k before rest
      else
        match k before rest with
        | some r => some r
        | none => more ()
    | .start => if before.isEmpty then k before rest else none
    | .finish => if rest.isEmpty then k before rest else none
    | .edge outside =>
      if (isWordChar before.head? != isWordChar rest.head?) != outside then k before rest else none
    | .ahead outside p =>
      if (matchAt fold bound p before rest fun _ r => some r).isSome != outside then k before rest
      else none

/-- How much a pattern may have to be unfolded. -/
def size : Pattern → Nat
  | .both a b => a.size + b.size + 1
  | .either a b => a.size + b.size + 1
  | .repeated least _ _ p => p.size + least + 1
  | .ahead _ p => p.size + 1
  | _ => 1

/-- The first match at a place or after it, given the reversed text before the place: what stands
before the match, the match, and what stands after it. -/
def searchFrom? (fold : Bool) (bound : Nat) (p : Pattern) (before : List Char) :
    List Char → Option (List Char × List Char × List Char)
  | [] =>
    (matchAt fold bound p before [] fun _ r => some r).map fun _ => (before.reverse, [], [])
  | c :: rest =>
    match matchAt fold bound p before (c :: rest) fun _ r => some r with
    | some after =>
      some (before.reverse, (c :: rest).take (rest.length + 1 - after.length), after)
    | none => searchFrom? fold bound p (c :: before) rest

/-- The first match in a text. -/
def search? (fold : Bool) (p : Pattern) (text : List Char) :
    Option (List Char × List Char × List Char) :=
  searchFrom? fold (2 * (text.length + p.size) + 2) p [] text

end Pattern

end Sessions.Script
