import Sessions.Check.Exchange
import Sessions.Correlation.Table
import Sessions.Program.Node

/-!
# Sessions.Analysis

A structural summary of a program for its reader: how many nodes of each kind it has, and which
names do not fit together. Nothing here affects the verdict of a check.
-/

namespace Sessions

structure Analysis where
  definitions : Nat
  declarations : Nat
  calls : Nat
  inputs : Nat
  outputs : Nat
  assignments : Nat
  loops : Nat
  choices : Nat
  parallels : Nat
  /-- Definitions that nothing calls, the entry point and the initial definition apart. -/
  orphans : List String
  /-- Names that are called but not defined. -/
  missing : List String
  operations : List String
  /-- Input operations without a correlation set. -/
  uncorrelated : List String
  /-- Correlation sets that no input operation uses. -/
  unusedSets : List String
deriving DecidableEq, Repr

namespace Analysis

/-- The distinct names in bytewise order. -/
def sortedNames (names : List String) : List String :=
  names.eraseDups.mergeSort fun a b => !(b < a)

/-- The operation of an input. -/
def inputOf? : Node → Option String
  | .activity (.oneWay _ op _) => some op
  | .activity (.requestResponse _ op _ _ _) => some op
  | _ => none

/-- The name that a call names. -/
def calleeOf? : Node → Option String
  | .activity (.call _ name) => some name
  | _ => none

def isOutput : Node → Bool
  | .activity (.notification ..) => true
  | .activity (.solicitResponse ..) => true
  | _ => false

def isAssignment : Node → Bool
  | .activity (.assign ..) => true
  | _ => false

def isLoop : Node → Bool
  | .activity (.whileLoop ..) => true
  | .activity (.forLoop ..) => true
  | .activity (.forEach ..) => true
  | _ => false

def isChoice : Node → Bool
  | .activity (.choice ..) => true
  | .activity (.cond ..) => true
  | _ => false

def isParallel : Node → Bool
  | .activity (.parallel ..) => true
  | _ => false

def isDefinition : Node → Bool
  | .definition _ => true
  | _ => false

def isDeclaration : Node → Bool
  | .declaration _ => true
  | _ => false

/-- Looks at the structure of a program. Without a correlation table no set is unused. -/
def ofProgram (p : Program) (table : Option Correlation.Table) : Analysis :=
  let nodes := (Node.program p).all
  let defined := p.definitions.map (·.name)
  let called := nodes.filterMap calleeOf?
  let operations := nodes.filterMap inputOf?
  let setOf (op : String) : Option Correlation.CorrelationSet := table.bind (·.setFor? op)
  let used := operations.filterMap fun op => (setOf op).map (·.name)
  let sets := ((table.map (·.sets)).getD []).map (·.name)
  { definitions := nodes.countP isDefinition
    declarations := nodes.countP isDeclaration
    calls := called.length
    inputs := operations.length
    outputs := nodes.countP isOutput
    assignments := nodes.countP isAssignment
    loops := nodes.countP isLoop
    choices := nodes.countP isChoice
    parallels := nodes.countP isParallel
    orphans := sortedNames (defined.filter fun n =>
      !(n == "main" || n == "init" || called.contains n))
    missing := sortedNames (called.filter fun n => !defined.contains n)
    operations := sortedNames operations
    uncorrelated := sortedNames (operations.filter fun op => (setOf op).isNone)
    unusedSets := sortedNames (sets.filter fun s => !used.contains s) }

def toDatum (a : Analysis) : Datum :=
  .map ([("definitions", .int a.definitions), ("declarations", .int a.declarations),
    ("calls", .int a.calls), ("inputs", .int a.inputs), ("outputs", .int a.outputs),
    ("assignments", .int a.assignments), ("loops", .int a.loops), ("choices", .int a.choices),
    ("parallels", .int a.parallels)] ++
    Entries.ofTexts "orphans" a.orphans ++ Entries.ofTexts "missingDefinitions" a.missing ++
    Entries.ofTexts "operations" a.operations ++
    Entries.ofTexts "uncorrelatedOperations" a.uncorrelated ++
    Entries.ofTexts "unusedSets" a.unusedSets)

end Analysis

end Sessions
