import Sessions.Program.Path
import Sessions.Text.Blank

/-!
# Sessions.Program.PathText

Reading the text of a path, such as `a.b[2].c[i]`. Steps are divided by the dots outside brackets.
An index is an integer of 64 bits, or the text of another path.
-/

namespace Sessions

namespace Path

mutual

/-- Why a text is not a path. -/
inductive Error where
  /-- Nothing but white space. -/
  | empty
  | bad (text : String) (reason : Reason)

/-- What is wrong with a text that is not blank. -/
inductive Reason where
  | unopened
  | unclosed
  /-- A step with an opening bracket does not end with the closing one. -/
  | unterminated (step : String)
  | unnamedStep
  | index (text : String) (cause : Error)

end

mutual

def Error.message : Error → String
  | .empty => "empty path"
  | .bad text reason => "bad path \"" ++ text ++ "\": " ++ reason.message

def Reason.message : Reason → String
  | .unopened => "unbalanced ]"
  | .unclosed => "unbalanced ["
  | .unterminated step => "unterminated index in " ++ step
  | .unnamedStep => "empty step"
  | .index text cause => "index " ++ Text.quoted text ++ ": " ++ cause.message

end

/-- Divides a text at the dots outside brackets. `depth` brackets are open, and `step` holds the
characters of the current step in reverse. -/
def segments : (depth : Nat) → (step : List Char) → List Char → Except Reason (List (List Char))
  | 0, step, [] => .ok [step.reverse]
  | _ + 1, _, [] => .error .unclosed
  | depth, step, '[' :: rest => segments (depth + 1) ('[' :: step) rest
  | 0, _, ']' :: _ => .error .unopened
  | depth + 1, step, ']' :: rest => segments depth (']' :: step) rest
  | 0, step, '.' :: rest => do
    let tail ← segments 0 [] rest
    return step.reverse :: tail
  | depth, step, c :: rest => segments depth (c :: step) rest

/-- The name and the index text of one step; a step without brackets has an empty index text. -/
def splitIndex (segment : List Char) : Except Reason (List Char × List Char) :=
  match segment.dropWhile (· ≠ '[') with
  | [] => .ok (segment, [])
  | _ :: inside =>
    if segment.getLast? = some ']' then .ok (segment.takeWhile (· ≠ '['), inside.dropLast)
    else .error (.unterminated (String.ofList segment))

/-- The number that a text of decimal digits writes; no digits write none. -/
def natural? (cs : List Char) : Option Nat :=
  if !cs.isEmpty && cs.all Char.isDigit then
    some (cs.foldl (fun n d => 10 * n + (d.toNat - '0'.toNat)) 0)
  else none

/-- An integer of 64 bits: an optional sign, then decimal digits. -/
def integer? (cs : List Char) : Option Int :=
  let signed : Option Int := match cs with
    | '-' :: ds => (natural? ds).map fun n => -(n : Int)
    | '+' :: ds => (natural? ds).map fun n => (n : Int)
    | ds => (natural? ds).map fun n => (n : Int)
  signed.filter fun n => -Int.pow 2 63 ≤ n && n < Int.pow 2 63

/-- The index that a bracket holds; `inner` reads the path of an index that is no integer. -/
def index (inner : List Char → Except Error Path) (loc : Location) (text : List Char) :
    Except Reason (Option Expr) :=
  if text.isEmpty then .ok none
  else
    match integer? text with
    | some n => .ok (if n = 0 then none else some (.constant loc (.int n)))
    | none =>
      match inner text with
      | .ok p => .ok (some (.var loc p))
      | .error e => .error (.index (String.ofList text) e)

/-- One step of a path. -/
def step (inner : List Char → Except Error Path) (loc : Location) (segment : List Char) :
    Except Reason Step := do
  let (name, indexText) ← splitIndex segment
  if name.isEmpty then .error .unnamedStep
  else
    let i ← index inner loc indexText
    return ⟨String.ofList name, i⟩

def parseSteps (inner : List Char → Except Error Path) (loc : Location) (text : List Char) :
    Except Reason (List Step) := do
  let parts ← segments 0 [] text
  parts.mapM (step inner loc)

/-- Reads a path whose indices are nested at most `depth` deep. -/
def parseNested : (depth : Nat) → Location → List Char → Except Error Path
  | 0, _, _ => .error .empty
  | depth + 1, loc, text =>
    if text.all Text.isBlank then .error .empty
    else
      match parseSteps (parseNested depth loc) loc text with
      | .ok steps => .ok ⟨loc, steps⟩
      | .error r => .error (.bad (String.ofList text) r)

/-- Reads the text of a path. An index is shorter than the text around it, so the length of the
text bounds the nesting. -/
def parse (loc : Location) (text : String) : Except Error Path :=
  parseNested (text.length + 1) loc text.toList

end Path

end Sessions
