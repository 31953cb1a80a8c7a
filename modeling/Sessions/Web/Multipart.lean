import Sessions.Web.Cookie
import Sessions.Web.MediaType

/-!
# Sessions.Web.Multipart

Bodies of several parts. Lines that start with two hyphens and the boundary stand before each part
and after the last, and a part has headers of its own, an empty line and its text. `Multipart.fields?`
reads the parts that are fields of a form; a file that is sent along is none.
-/

namespace Sessions.Web.Multipart

/-- The first line with its end, and the lines after it. -/
def cutLine (cs : List Char) : List Char × List Char :=
  match cut '\n' cs with
  | (line, none) => (line, [])
  | (line, some rest) => (line ++ ['\n'], rest)

def isLineBlank (c : Char) : Bool :=
  c = ' ' || c = '\t'

/-- What follows a mark at the start of a line, without blanks. -/
def after? (mark line : List Char) : Option (List Char) :=
  if mark.isPrefixOf line then some ((line.drop mark.length).dropWhile isLineBlank) else none

/-- Whether a line stands before a part; `ending` ends the lines. -/
def isDelimiter (ending dashes line : List Char) : Bool :=
  after? dashes line == some ending

/-- Whether a line stands after the last part. -/
def isFinal (ending dashes line : List Char) : Bool :=
  match after? (dashes ++ ['-', '-']) line with
  | some rest => rest.isEmpty || rest == ending
  | none => false

/-- The line without its end and the blanks around it. -/
def bare (line : List Char) : List Char :=
  let blank (c : Char) : Bool := isLineBlank c || c = '\r' || c = '\n'
  ((line.dropWhile blank).reverse.dropWhile blank).reverse

/-- The headers of a part. -/
inductive Headers where
  | read (entries : List (String × String)) (rest : List Char)
  /-- The body ends before they do. -/
  | ended
  | malformed

/-- One more line of headers; a line that starts with a blank goes on with the one before. -/
def addHeader? (entries : List (String × String)) (line : List Char) :
    Option (List (String × String)) :=
  match line.head?.map isLineBlank, entries with
  | some true, (name, value) :: before =>
    some ((name, value ++ " " ++ String.ofList (bare line)) :: before)
  | some true, [] => none
  | _, _ =>
    match cut ':' line with
    | (name, some value) =>
      if !name.isEmpty && name.all fun c => isTokenChar c || c = ' ' then
        some ((Text.lower (String.ofList name), String.ofList (bare value)) :: entries)
      else none
    | _ => none

/-- Reads headers up to an empty line; those read already come in reverse. -/
def headers (entries : List (String × String)) : (bound : Nat) → List Char → Headers
  | 0, _ => .malformed
  | bound + 1, cs =>
    if cs.isEmpty then .ended
    else
      let (line, rest) := cutLine cs
      if (bare line).isEmpty then .read entries.reverse rest
      else
        match addHeader? entries line with
        | some entries => headers entries bound rest
        | none => .malformed

/-- Whether the boundary ends where it seems to. -/
def endsMark : List Char → Bool
  | [] => true
  | '-' :: rest => rest.head? == some '-'
  | c :: _ => c = ' ' || c = '\t' || c = '\r' || c = '\n'

/-- The text before a mark, and what follows the text; the mark has to come. -/
def textBefore? (mark : List Char) : List Char → Option (List Char × List Char)
  | [] => none
  | c :: rest =>
    if mark.isPrefixOf (c :: rest) && endsMark ((c :: rest).drop mark.length) then
      some ([], c :: rest)
    else (textBefore? mark rest).map fun (text, rest) => (c :: text, rest)

/-- The text of a part and what follows it. -/
def partText? (ending dashes cs : List Char) : Option (List Char × List Char) :=
  if dashes.isPrefixOf cs && endsMark (cs.drop dashes.length) then some ([], cs)
  else textBefore? (ending ++ dashes) cs

/-- The field that a part is, if it is one. -/
def field? (entries : List (String × String)) (text : List Char) : Option (String × String) := do
  let disposition ← MediaType.parse? ((entries.lookup "content-disposition").getD "")
  let name ← disposition.get? "name"
  if disposition.name = "form-data" && name ≠ "" && (disposition.get? "filename").getD "" = "" then
    return (name, String.ofList text)
  else none

/-- The fields of the parts that follow; `gap` says that the line before was empty. -/
def parts? (ending dashes : List Char) :
    (bound : Nat) → (gap : Bool) → List Char → Option (List (String × String))
  | 0, _, _ => none
  | bound + 1, gap, cs =>
    let (line, rest) := cutLine cs
    if isFinal ending dashes line then some []
    else if isDelimiter ending dashes line then
      match headers [] (rest.length + 1) rest with
      | .ended => some []
      | .malformed => none
      | .read entries rest => do
        let (text, rest) ← partText? ending dashes rest
        let more ← parts? ending dashes bound false rest
        return (field? entries text).toList ++ more
    else if line = ending && !gap then parts? ending dashes bound true rest
    else none

/-- The fields of all parts. Lines before the first part do not count, and the line of its boundary
tells how lines end. -/
def allParts? (dashes : List Char) : (bound : Nat) → List Char → Option (List (String × String))
  | 0, _ => none
  | bound + 1, cs =>
    let (line, rest) := cutLine cs
    if isDelimiter ['\r', '\n'] dashes line then parts? ['\r', '\n'] dashes cs.length false cs
    else if isDelimiter ['\n'] dashes line then parts? ['\n'] dashes cs.length false cs
    else if isFinal ['\r', '\n'] dashes line then some []
    else if rest.isEmpty then none
    else allParts? dashes bound rest

/-- The fields that the parts of a body give, if all of them can be read. -/
def fields? (boundary body : String) : Option (List (String × String)) :=
  allParts? ('-' :: '-' :: boundary.toList) (body.length + 1) body.toList

end Sessions.Web.Multipart
