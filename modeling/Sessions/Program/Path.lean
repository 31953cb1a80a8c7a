import Sessions.Decimal.Layout
import Sessions.Program.Location
import Sessions.Text.Quoted

/-!
# Sessions.Program.Path

Paths and expressions. A path is a storage location: steps from a root, each a name with an index.
An index is an expression and an expression may read a path, so the two are defined together.

A path is known by its `key`, which writes every index; `render` leaves out the index zero. Paths
below the root `csets` are correlation paths.

A place where an operand should stand and none does is `Expr.missing`. An expression with such a
gap has no text of its own: `Expr.render?` gives one only to expressions that are complete.
-/

namespace Sessions

/-- A literal value. Integers are of 64 bits. -/
inductive Literal where
  | null
  | bool (b : Bool)
  | int (n : Int)
  | float (x : Double)
  | text (s : String)
deriving DecidableEq, Repr, Inhabited

/-- A literal as it is written in a program. -/
def Literal.render : Literal → String
  | .null => "<nil>"
  | .bool b => if b then "true" else "false"
  | .int n => toString n
  | .float x => Decimal.render .general x
  | .text s => Text.quoted s

mutual

/-- A storage location: steps from a root. -/
structure Path where
  loc : Location
  steps : List Step

/-- One element of a path. No index means the index zero. -/
structure Step where
  name : String
  index : Option Expr

/-- An expression or a condition. -/
inductive Expr where
  /-- No expression stands here. -/
  | missing
  | constant (loc : Location) (value : Literal)
  /-- The value at a path. -/
  | var (loc : Location) (path : Path)
  /-- A new unguessable token. -/
  | fresh (loc : Location)
  | binary (loc : Location) (op : String) (left right : Expr)
  /-- Adding or taking away one, before or after the value is read. -/
  | increment (loc : Location) (path : Path) (pre decrement : Bool)
  | all (loc : Location) (children : List Expr)
  | any (loc : Location) (children : List Expr)
  | not (loc : Location) (operand : Expr)
  | compare (loc : Location) (op : String) (left right : Expr)
  /-- A test of what is stored at a path. -/
  | isType (loc : Location) (check : String) (path : Path)
  | cast (loc : Location) (type : String) (operand : Expr)
  /-- How many values a path has. -/
  | size (loc : Location) (path : Path)

end

instance : Inhabited Expr := ⟨.missing⟩
instance : Inhabited Step := ⟨⟨"", none⟩⟩
instance : Inhabited Path := ⟨⟨{}, []⟩⟩

/-- The text of a step, given the text of its index. The index zero is written only when `full`. -/
def Step.write (full : Bool) (name index : String) : String :=
  if full || index ≠ "0" then name ++ "[" ++ index ++ "]" else name

mutual

/-- The text of an expression. A missing operand has no text. -/
def Expr.render : Expr → String
  | .missing => ""
  | .constant _ v => v.render
  | .var _ p => p.render
  | .fresh _ => "new"
  | .binary _ op l r => "(" ++ l.render ++ " " ++ op ++ " " ++ r.render ++ ")"
  | .increment _ p pre decrement =>
    let op := if decrement then "--" else "++"
    if pre then op ++ p.render else p.render ++ op
  | .all _ es => "(" ++ " && ".intercalate (Expr.renderAll es) ++ ")"
  | .any _ es => "(" ++ " || ".intercalate (Expr.renderAll es) ++ ")"
  | .not _ e => "!" ++ e.render
  | .compare _ op l r => l.render ++ " " ++ op ++ " " ++ r.render
  | .isType _ check p => check ++ "(" ++ p.render ++ ")"
  | .cast _ type e => type ++ "(" ++ e.render ++ ")"
  | .size _ p => "#" ++ p.render

def Expr.renderAll : List Expr → List String
  | [] => []
  | e :: rest => e.render :: Expr.renderAll rest

/-- The path without its zero indices. -/
def Path.render : Path → String
  | ⟨_, steps⟩ => ".".intercalate (Step.renderAll steps)

def Step.renderAll : List Step → List String
  | [] => []
  | ⟨name, none⟩ :: rest => Step.write false name "0" :: Step.renderAll rest
  | ⟨name, some e⟩ :: rest => Step.write false name e.render :: Step.renderAll rest

end

/-- The text of a step's index; no index reads as zero. -/
def Step.indexText : Step → String
  | ⟨_, none⟩ => "0"
  | ⟨_, some e⟩ => e.render

/-- Whether the index is known before the program runs: an integer literal, or none. -/
def Step.isStatic : Step → Bool
  | ⟨_, none⟩ => true
  | ⟨_, some (.constant _ (.int _))⟩ => true
  | _ => false

mutual

/-- Whether every operand of the expression is there. -/
def Expr.isComplete : Expr → Bool
  | .missing => false
  | .constant _ _ => true
  | .var _ p => p.isComplete
  | .fresh _ => true
  | .binary _ _ l r => l.isComplete && r.isComplete
  | .increment _ p _ _ => p.isComplete
  | .all _ es => Expr.areComplete es
  | .any _ es => Expr.areComplete es
  | .not _ e => e.isComplete
  | .compare _ _ l r => l.isComplete && r.isComplete
  | .isType _ _ p => p.isComplete
  | .cast _ _ e => e.isComplete
  | .size _ p => p.isComplete

def Expr.areComplete : List Expr → Bool
  | [] => true
  | e :: rest => e.isComplete && Expr.areComplete rest

/-- Whether every index of the path is complete. -/
def Path.isComplete : Path → Bool
  | ⟨_, steps⟩ => Step.areComplete steps

def Step.areComplete : List Step → Bool
  | [] => true
  | ⟨_, none⟩ :: rest => Step.areComplete rest
  | ⟨_, some e⟩ :: rest => e.isComplete && Step.areComplete rest

end

namespace Expr

/-- The text of an expression that has one. -/
def render? (e : Expr) : Option String :=
  if e.isComplete then some e.render else none

/-- Whether the expression is a literal. -/
def isLiteral : Expr → Bool
  | .constant _ _ => true
  | _ => false

/-- Where the expression stands. -/
def loc : Expr → Location
  | .missing => {}
  | .constant l _ => l
  | .var l _ => l
  | .fresh l => l
  | .binary l _ _ _ => l
  | .increment l _ _ _ => l
  | .all l _ => l
  | .any l _ => l
  | .not l _ => l
  | .compare l _ _ _ => l
  | .isType l _ _ => l
  | .cast l _ _ => l
  | .size l _ => l

end Expr

namespace Path

/-- The name of the root below which all correlation variables live. -/
def correlationRoot : String := "csets"

/-- Every step with its index. Two paths are the same location exactly when their keys agree. -/
def key (p : Path) : String :=
  ".".intercalate (p.steps.map fun s => Step.write true s.name s.indexText)

/-- A path from steps, unless an index among them is incomplete. -/
def ofSteps? (loc : Location) (steps : List Step) : Option Path :=
  if (⟨loc, steps⟩ : Path).isComplete then some ⟨loc, steps⟩ else none

/-- The correlation path of a variable whose own path is relative to the correlation root. -/
def underRoot (loc : Location) (v : Path) : Path :=
  ⟨loc, ⟨correlationRoot, none⟩ :: v.steps⟩

/-- The same path at another place of the source. -/
def relocate (p : Path) (loc : Location) : Path :=
  ⟨loc, p.steps⟩

def length (p : Path) : Nat :=
  p.steps.length

/-- Whether the path lies below the correlation root. -/
def isCorrelation (p : Path) : Bool :=
  match p.steps with
  | s :: _ => s.name == correlationRoot
  | [] => false

/-- Whether every index is an integer literal. -/
def isStatic (p : Path) : Bool :=
  p.steps.all Step.isStatic

/-- Whether two paths are the same location. -/
def same (p q : Path) : Bool :=
  p.key == q.key

/-- Whether the steps of the second list start the first. -/
def stepsStartWith : List Step → List Step → Bool
  | _, [] => true
  | [], _ :: _ => false
  | t :: ts, s :: ss => s.name == t.name && s.indexText == t.indexText && stepsStartWith ts ss

/-- Whether the second path leads to the first or to a location above it. -/
def startsWith (p q : Path) : Bool :=
  stepsStartWith p.steps q.steps

end Path

end Sessions
