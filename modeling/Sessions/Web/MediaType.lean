import Sessions.Text.Blank
import Sessions.Text.Lower
import Sessions.Web.Address

/-!
# Sessions.Web.MediaType

Media types with their parameters, as headers write them: `MediaType.parse?` reads one and
`MediaType.get?` finds a parameter. The value of a parameter may come in numbered pieces or with its
characters escaped.
-/

namespace Sessions.Web

/-- Characters that end a word of a media type. -/
def isTypeMark (c : Char) : Bool :=
  "()<>@,;:\\\"/[]?=".contains c

/-- Characters of a word of a media type. -/
def isTypeChar (c : Char) : Bool :=
  0x20 < c.toNat && c.toNat < 0x7f && !isTypeMark c

/-- A text in quotes, after the first of them, and what follows the last. A backslash only counts
before a mark. -/
def quotedValue? : List Char → Option (List Char × List Char)
  | [] => none
  | '"' :: rest => some ([], rest)
  | '\\' :: c :: rest =>
    if isTypeMark c then (quotedValue? rest).map fun (cs, rest) => (c :: cs, rest)
    else (quotedValue? (c :: rest)).map fun (cs, rest) => ('\\' :: cs, rest)
  | c :: rest =>
    if c = '\r' || c = '\n' then none
    else (quotedValue? rest).map fun (cs, rest) => (c :: cs, rest)

/-- The value of a parameter, and what follows it. -/
def parameterValue? (cs : List Char) : Option (List Char × List Char) :=
  match cs with
  | '"' :: rest => quotedValue? rest
  | _ =>
    let word := cs.takeWhile isTypeChar
    if word.isEmpty then none else some (word, cs.dropWhile isTypeChar)

/-- A parameter after its semicolon, and what follows it. -/
def parameter? (cs : List Char) : Option (String × String × List Char) :=
  match cs.dropWhile Text.isBlank with
  | ';' :: rest =>
    let rest := rest.dropWhile Text.isBlank
    let name := rest.takeWhile isTypeChar
    match (rest.dropWhile isTypeChar).dropWhile Text.isBlank with
    | '=' :: rest =>
      if name.isEmpty then none
      else (parameterValue? (rest.dropWhile Text.isBlank)).map fun (value, rest) =>
        (Text.lower (String.ofList name), String.ofList value, rest)
    | _ => none
  | _ => none

/-- What is wrong with the parameters of a media type. -/
inductive ParameterFault where
  | unreadable
  /-- One parameter has two values. -/
  | twice
deriving DecidableEq, Repr

/-- The parameters of a media type, after those that were read already. The bound is on their number;
the length of the text is enough. -/
def parameters (found : List (String × String)) :
    (bound : Nat) → List Char → Except ParameterFault (List (String × String))
  | 0, _ => .ok found
  | bound + 1, cs =>
    if (cs.dropWhile Text.isBlank).isEmpty then .ok found
    else
      match parameter? cs with
      | none => if Text.trimmed cs = [';'] then .ok found else .error .unreadable
      | some (name, value, rest) =>
        match found.lookup name with
        | some other =>
          if other = value then parameters found bound rest else .error .twice
        | none => parameters (found ++ [(name, value)]) bound rest

structure MediaType where
  name : String
  /-- The parameters, if all of them can be read. -/
  parameters : Option (List (String × String))
deriving DecidableEq, Repr

namespace MediaType

/-- Whether a text is a word, or two with a slash between them. -/
def isName (cs : List Char) : Bool :=
  match cut '/' cs with
  | (word, none) => !word.isEmpty && word.all isTypeChar
  | (word, some other) =>
    !word.isEmpty && word.all isTypeChar && !other.isEmpty && other.all isTypeChar

/-- The media type of a header. One that gives a parameter two values is none. -/
def parse? (text : String) : Option MediaType :=
  let base := text.toList.takeWhile (· ≠ ';')
  let name := Text.lower (Text.trim (String.ofList base))
  if !isName name.toList then none
  else
    match Web.parameters [] (text.length + 1) (text.toList.drop base.length) with
    | .ok ps => some ⟨name, some ps⟩
    | .error .unreadable => some ⟨name, none⟩
    | .error .twice => none

/-- A text with its escapes undone, if they are all good. -/
def unescaped? (cs : List Char) : Option String :=
  match badEscape? .path cs with
  | some _ => none
  | none => some (Text.ofBytes (unescapedBytes cs))

/-- A value that names its characters and its language before it. -/
def extended? (value : String) : Option String :=
  match cut '\x27' value.toList with
  | (charset, some rest) =>
    match cut '\x27' rest with
    | (_, some escaped) =>
      if ["us-ascii", "utf-8"].contains (Text.lower (String.ofList charset)) then unescaped? escaped
      else none
    | _ => none
  | _ => none

/-- The pieces of a value from a number on, put together; the bound is on their number. -/
def pieces (ps : List (String × String)) (name : String) : (bound : Nat) → (n : Nat) → List String
  | 0, _ => []
  | bound + 1, n =>
    let piece := name ++ "*" ++ toString n
    match ps.lookup piece, ps.lookup (piece ++ "*") with
    | some value, _ => value :: pieces ps name bound (n + 1)
    | none, some value =>
      let text := if n = 0 then extended? value else unescaped? value.toList
      text.getD "" :: pieces ps name bound (n + 1)
    | none, none => []

/-- A parameter of a media type. -/
def get? (m : MediaType) (name : String) : Option String := do
  let ps ← m.parameters
  match ps.lookup (name ++ "*") with
  | some value => extended? value <|> ps.lookup name
  | none =>
    match pieces ps name ps.length 0 with
    | [] => ps.lookup name
    | found => some (String.join found)

end MediaType

end Sessions.Web
