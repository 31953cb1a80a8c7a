import Sessions.Program.Path

/-!
# Sessions.Check.Diagnostic

The problems that a check can find, and the diagnostics that report them. A `Problem` is the cause
with what it is about; its kind, its path and its wording are functions of it.
-/

namespace Sessions.Check

/-- The kinds of diagnostics. -/
inductive Kind where
  | duplicateCorrelationInit
  | usedBeforeInitialized
  | missingCorrelationSet
  | correlationOnInput
  | mismatchedBranchInit
  | loopInitForbidden
  | undefinedDefinition
  | missingEntryPoint
  | initMayNotSetCorrelation
  | noFreshCorrelationValue
  | nonLiteralCorrelationAssign
deriving DecidableEq, Repr

namespace Kind

/-- The stable name of a kind. -/
def name : Kind → String
  | .duplicateCorrelationInit => "DuplicateCorrelationInit"
  | .usedBeforeInitialized => "UsedBeforeInitialized"
  | .missingCorrelationSet => "MissingCorrelationSet"
  | .correlationOnInput => "CorrelationOnInput"
  | .mismatchedBranchInit => "MismatchedBranchInit"
  | .loopInitForbidden => "LoopInitForbidden"
  | .undefinedDefinition => "UndefinedDefinition"
  | .missingEntryPoint => "MissingEntryPoint"
  | .initMayNotSetCorrelation => "InitMayNotSetCorrelation"
  | .noFreshCorrelationValue => "NoFreshCorrelationValue"
  | .nonLiteralCorrelationAssign => "NonLiteralCorrelationAssign"

end Kind

/-- Which branches have to agree on what they initialise. -/
inductive Branching where
  | choice
  | cond
deriving DecidableEq, Repr

/-- A problem of a program. -/
inductive Problem where
  /-- Initialised by two parts that both run. -/
  | initialisedTwice (path : Path)
  | unmetCorrelation (path : Path)
  | unmetVariable (path : Path)
  /-- An input that does not start a session has no correlation set. -/
  | noSet (operation : String)
  /-- An input receives straight into a correlation variable. -/
  | receivesOn (operation : String) (path : Path)
  | branchesDisagree (branching : Branching) (path : Path)
  /-- A loop initialises correlation variables. -/
  | initialisedInLoop (paths : List String)
  | noDefinition (name : String)
  | noEntry
  | initialisedInInit (path : Path)
  | notFresh (set : String)
  | incremented (path : Path)
  | updated (path : Path) (op : String)
  | notLiteral (path : Path)

namespace Problem

def kind : Problem → Kind
  | .initialisedTwice _ => .duplicateCorrelationInit
  | .unmetCorrelation _ => .usedBeforeInitialized
  | .unmetVariable _ => .usedBeforeInitialized
  | .noSet _ => .missingCorrelationSet
  | .receivesOn _ _ => .correlationOnInput
  | .branchesDisagree _ _ => .mismatchedBranchInit
  | .initialisedInLoop _ => .loopInitForbidden
  | .noDefinition _ => .undefinedDefinition
  | .noEntry => .missingEntryPoint
  | .initialisedInInit _ => .initMayNotSetCorrelation
  | .notFresh _ => .noFreshCorrelationValue
  | .incremented _ => .nonLiteralCorrelationAssign
  | .updated _ _ => .nonLiteralCorrelationAssign
  | .notLiteral _ => .nonLiteralCorrelationAssign

/-- The path that the problem is about, if it is about one. -/
def path? : Problem → Option Path
  | .initialisedTwice p => some p
  | .unmetCorrelation p => some p
  | .unmetVariable p => some p
  | .receivesOn _ p => some p
  | .branchesDisagree _ p => some p
  | .initialisedInInit p => some p
  | .incremented p => some p
  | .updated p _ => some p
  | .notLiteral p => some p
  | _ => none

def message : Problem → String
  | .initialisedTwice p =>
    "correlation variable " ++ p.render ++ " can not be initialised more than once"
  | .unmetCorrelation p => "correlation path " ++ p.render ++ " is not initialised before usage"
  | .unmetVariable p => "variable " ++ p.render ++ " is not initialised before usage"
  | .noSet op => "no correlation set defined for operation " ++ op
  | .receivesOn op p =>
    "input operation " ++ op ++ " can not receive on correlation variable " ++ p.render
  | .branchesDisagree .choice p =>
    "correlation variable " ++ p.render ++ " must be initialised in every branch"
  | .branchesDisagree .cond p =>
    "correlation variable " ++ p.render ++ " must be initialised in every if-then-else branch"
  | .initialisedInLoop ps =>
    "initialising correlation variables in loops is forbidden ([" ++ " ".intercalate ps ++ "])"
  | .noDefinition n => "can not find definition " ++ n
  | .noEntry => "can not find the main entry point"
  | .initialisedInInit p =>
    "correlation variable " ++ p.render ++ " can not be initialised in the init procedure"
  | .notFresh s =>
    "correlation set " ++ s ++
      " has no fresh value (maybe you are not using createSecureToken@SecurityUtils?)"
  | .incremented p =>
    "correlation variable " ++ p.render ++ " can not be incremented or decremented"
  | .updated p op => "correlation variable " ++ p.render ++ " can not be updated with " ++ op
  | .notLiteral p =>
    "correlation variable " ++ p.render ++
      " must either be initialised with a constant or with a fresh value"

end Problem

/-- A reported problem. The path is empty when the problem is about none. -/
structure Diagnostic where
  kind : String
  loc : Location
  path : String
  message : String
deriving DecidableEq, Repr, Inhabited

namespace Diagnostic

/-- The report of a problem found at a place. -/
def ofProblem (loc : Location) (p : Problem) : Diagnostic where
  kind := p.kind.name
  loc := loc
  path := (p.path?.map Path.render).getD ""
  message := p.message

/-- The message after its place, if that is known. -/
def render (d : Diagnostic) : String :=
  let place := d.loc.render
  if place = "" then d.message else place ++ ": " ++ d.message

end Diagnostic

end Sessions.Check
