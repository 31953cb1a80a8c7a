import Sessions.Script.Syntax

/-!
# Sessions.Script.Token

The words, literals and marks of a script. A slash divides after something that may be divided and
starts a pattern anywhere else.
-/

namespace Sessions.Script

inductive Token where
  | word (s : String)
  | number (x : Double)
  | text (s : String)
  | pattern (p : Pattern) (fold : Bool)
  | mark (s : String)
deriving Inhabited

/-- A token, and whether a line ends before it. -/
structure Placed where
  token : Token
  onNewLine : Bool
deriving Inhabited

namespace Token

def isWordStart (c : Char) : Bool :=
  c.isAlpha || c = '_' || c = '$' || (0x80 ≤ c.toNat && !Text.isBlank c && c.toNat ≠ 0xFEFF)

def isWordPart (c : Char) : Bool :=
  isWordStart c || c.isDigit

def isLineEnd (c : Char) : Bool :=
  Pattern.inRanges Pattern.lineEnds c

/-- The marks of the language, longest first. -/
def marks : List (List Char) :=
  [">>>=", "===", "!==", ">>>", "<<=", ">>=", "?.", "&&", "||", "??", "==", "!=", "<=", ">=", "<<",
   ">>", "=>", "++", "--", "+=", "-=", "*=", "/=", "%=", "&=", "|=", "^=", "(", ")", "\x7b", "\x7d",
   "[", "]", ";", ".", ",", "!", "<", ">", "+", "-", "*", "/", "%", "&", "|", "^", "~", "?", ":",
   "="].map
    String.toList

/-- Words after which a value follows. -/
def operatorWords : List String :=
  ["return", "throw", "typeof", "void", "in", "instanceof", "case", "else", "do", "new", "delete"]

/-- Whether a slash after a token divides. -/
def divides : Option Token → Bool
  | some (.word w) => !operatorWords.contains w
  | some (.number _) => true
  | some (.text _) => true
  | some (.pattern _ _) => true
  | some (.mark m) => m == ")" || m == "]" || m == "\x7d"
  | none => false

/-! ## Literals -/

/-- The rest of a quoted text after its opening quote. Only a text between ticks goes over lines, and
it stops before a dollar sign with a brace, where a term is put in. -/
def quoted? (quote : Char) : (bound : Nat) → List Char → List Char → Option (String × List Char)
  | 0, _, _ => none
  | _ + 1, _, [] => none
  | bound + 1, acc, '\\' :: rest =>
    match rest with
    | '\r' :: '\n' :: rest => quoted? quote bound acc rest
    | 'b' :: rest => quoted? quote bound ('\x08' :: acc) rest
    | '0' :: d :: rest => if d.isDigit then none else quoted? quote bound ('\x00' :: acc) (d :: rest)
    | 'u' :: '\x7b' :: rest =>
      let digits := rest.takeWhile (· ≠ '\x7d')
      match Pattern.hexChar? digits, rest.drop digits.length with
      | some c, _ :: rest => quoted? quote bound (c :: acc) rest
      | _, _ => none
    | 'u' :: a :: b :: c :: d :: '\\' :: 'u' :: e :: f :: g :: h :: rest =>
      match Json.hex4? a b c d, Json.hex4? e f g h with
      | some high, some low =>
        if Json.isHigh high && Json.isLow low then
          let code := 0x10000 + (high - 0xD800) * 0x400 + (low - 0xDC00)
          quoted? quote bound (Char.ofNat code :: acc) rest
        else
          let first := if high.isValidChar then Char.ofNat high else Text.replacement
          quoted? quote bound (first :: acc) ('\\' :: 'u' :: e :: f :: g :: h :: rest)
      | _, _ => none
    | c :: rest =>
      if isLineEnd c then quoted? quote bound acc rest
      else if c.isDigit && c ≠ '0' then none
      else if c.isAlpha && !("ntrfvxu".toList.contains c) then quoted? quote bound (c :: acc) rest
      else
        match Pattern.charEscape? (c :: rest) with
        | some (c, rest) => quoted? quote bound (c :: acc) rest
        | none => none
    | [] => none
  | bound + 1, acc, c :: rest =>
    if c = quote then some (String.ofList acc.reverse, rest)
    else if (c = '\n' || c = '\r') && quote ≠ '\x60' then none
    else if c = '$' && quote = '\x60' && rest.head? = some '\x7b' then
      some (String.ofList acc.reverse, c :: rest)
    else quoted? quote bound (c :: acc) rest

/-- The value of digits in a base, if there are any and nothing of a word follows them. -/
def based? (base : Nat) (cs : List Char) : Option (Double × List Char) :=
  let run := cs.takeWhile isWordPart
  match run.mapM Json.hexValue? with
  | some ns =>
    if run.isEmpty || ns.any (base ≤ ·) then none
    else some (Double.ofInt (ns.foldl (fun n d => base * n + d) 0 : Nat), cs.drop run.length)
  | none => none

/-- The exponent of a number, if there is one. -/
def exponent (cs : List Char) : Int × List Char :=
  let read (negative : Bool) (rest : List Char) : Int × List Char :=
    let ds := rest.takeWhile Char.isDigit
    if ds.isEmpty then (0, cs)
    else
      let n : Int := Json.Number.digitsValue ds
      (if negative then -n else n, rest.drop ds.length)
  match cs with
  | 'e' :: '-' :: rest => read true rest
  | 'E' :: '-' :: rest => read true rest
  | 'e' :: '+' :: rest => read false rest
  | 'E' :: '+' :: rest => read false rest
  | 'e' :: rest => read false rest
  | 'E' :: rest => read false rest
  | _ => (0, cs)

/-- A decimal number from the front of a text. -/
def decimal (cs : List Char) : Double × List Char :=
  let whole := cs.takeWhile Char.isDigit
  let rest := cs.drop whole.length
  let fraction := match rest with
    | '.' :: rest => rest.takeWhile Char.isDigit
    | _ => []
  let rest := match rest with
    | '.' :: rest => rest.drop fraction.length
    | _ => rest
  let (e, rest) := exponent rest
  (Double.ofDecimal false (Json.Number.digitsValue (whole ++ fraction)) (e - fraction.length), rest)

/-- A number. Nothing of a word follows it, and a decimal one has no leading zero. -/
def number? (cs : List Char) : Option (Double × List Char) :=
  match cs with
  | '0' :: c :: rest =>
    if c = 'x' || c = 'X' then based? 16 rest
    else if c = 'o' || c = 'O' then based? 8 rest
    else if c = 'b' || c = 'B' then based? 2 rest
    else if c.isDigit then none
    else
      let (x, rest) := decimal cs
      if (rest.head?.map isWordStart).getD false then none else some (x, rest)
  | _ =>
    let (x, rest) := decimal cs
    if (rest.head?.map isWordStart).getD false then none else some (x, rest)

/-- The text of a pattern up to the slash that closes it. -/
def patternBody? : (inClass : Bool) → List Char → List Char → Option (String × List Char)
  | _, _, [] => none
  | inClass, acc, '\\' :: c :: rest =>
    if isLineEnd c then none else patternBody? inClass (c :: '\\' :: acc) rest
  | inClass, acc, c :: rest =>
    if isLineEnd c then none
    else if c = '/' && !inClass then some (String.ofList acc.reverse, rest)
    else if c = '[' then patternBody? true (c :: acc) rest
    else if c = ']' then patternBody? false (c :: acc) rest
    else patternBody? inClass (c :: acc) rest

/-- The text of a term in braces, up to the brace that closes it, and what follows. -/
def insertion? : (level : Nat) → List Char → Option (List Char × List Char)
  | _, [] => none
  | level, c :: rest =>
    if c = '\x7d' && level = 0 then some ([], rest)
    else
      let level := if c = '\x7b' then level + 1 else if c = '\x7d' then level - 1 else level
      (insertion? level rest).map fun (inner, rest) => (c :: inner, rest)

/-! ## Scanning -/

/-- The text after a comment, and whether a line ended in it. -/
def afterComment? : List Char → Option (Bool × List Char)
  | [] => none
  | '*' :: '/' :: rest => some (false, rest)
  | c :: rest => (afterComment? rest).map fun (b, rest) => (b || isLineEnd c, rest)

/-- One token from the front of a text that starts with no gap. -/
def next? (previous : Option Token) (cs : List Char) : Option (Token × List Char) :=
  match cs with
  | [] => none
  | c :: rest =>
    if isWordStart c then
      let w := cs.takeWhile isWordPart
      some (.word (String.ofList w), cs.drop w.length)
    else if c.isDigit || (c = '.' && (rest.head?.map Char.isDigit).getD false) then
      (number? cs).map fun (x, rest) => (.number x, rest)
    else if c = '"' || c = '\x27' then
      (quoted? c (rest.length + 1) [] rest).map fun (s, rest) => (.text s, rest)
    else if c = '/' && !divides previous then do
      let (body, rest) ← patternBody? false [] rest
      let flags := rest.takeWhile isWordPart
      if flags.all "dgimsuy".toList.contains && flags.Nodup && !body.isEmpty then
        let p ← Pattern.parse? body
        return (.pattern p (flags.contains 'i'), rest.drop flags.length)
      else none
    else
      let isChoice (m : List Char) : Bool := m = ['?', '.'] && ((cs[2]?).map Char.isDigit).getD false
      (marks.find? fun m => m.isPrefixOf cs && !isChoice m).map fun m =>
        (.mark (String.ofList m), cs.drop m.length)

/-- The tokens of a text; `bound` limits their number. -/
def scan : (bound : Nat) → (onNewLine : Bool) → (previous : Option Token) → List Char →
    Option (List Placed)
  | 0, _, _, _ => none
  | _ + 1, _, _, [] => some []
  | bound + 1, onNewLine, previous, '/' :: '/' :: rest =>
    scan bound onNewLine previous (rest.dropWhile fun c => !isLineEnd c)
  | bound + 1, onNewLine, previous, '/' :: '*' :: rest =>
    match afterComment? rest with
    | some (b, rest) => scan bound (onNewLine || b) previous rest
    | none => none
  | bound + 1, onNewLine, _, '\x60' :: rest =>
    match quoted? '\x60' (rest.length + 1) [] rest with
    | none => none
    | some (s, '$' :: '\x7b' :: rest) => do
      let (term, rest) ← insertion? 0 rest
      let inner ← scan bound false none term
      let more ← scan bound false none ('\x60' :: rest)
      let sign (m : String) : Placed := ⟨.mark m, false⟩
      return ⟨.text s, onNewLine⟩ :: sign "+" :: sign "(" :: inner ++ sign ")" :: sign "+" :: more
    | some (s, rest) => (scan bound false (some (.text s)) rest).map (⟨.text s, onNewLine⟩ :: ·)
  | bound + 1, onNewLine, previous, c :: rest =>
    if isLineEnd c then scan bound true previous rest
    else if Text.isBlank c || c.toNat = 0xFEFF then scan bound onNewLine previous rest
    else
      match next? previous (c :: rest) with
      | some (t, rest) => (scan bound false (some t) rest).map (⟨t, onNewLine⟩ :: ·)
      | none => none

end Token

end Sessions.Script
