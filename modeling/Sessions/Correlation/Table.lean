import Sessions.Program.Path

/-!
# Sessions.Correlation.Table

The correlation table of a program: its correlation sets, and which set correlates each input
operation. `Table.validate` accepts a table exactly when every reference in it makes sense, and
otherwise names the first fault in an order that does not depend on how the operations happen to
be listed.
-/

namespace Sessions.Correlation

/-- A named component of a correlation set; its path is relative to the correlation root. -/
structure Variable where
  name : String
  path : Path
deriving Inhabited

/-- Variables that together identify a session. -/
structure CorrelationSet where
  name : String
  loc : Location
  vars : List Variable
deriving Inhabited

/-- The correlation path of each variable: what an input provides when it starts a session, and
needs otherwise. -/
def CorrelationSet.paths (s : CorrelationSet) : List Path :=
  s.vars.map fun v => v.path.underRoot s.loc

/-- The correlation sets in the order of their declaration, and the set name of each operation. An
operation mapped to the empty name has no set. -/
structure Table where
  sets : List CorrelationSet := []
  operations : List (String × String) := []
deriving Inhabited

/-- What is wrong with a correlation table. -/
inductive TableError where
  | duplicateSet (name : String)
  | emptySet (name : String)
  | unknownSet (operation name : String)
deriving DecidableEq, Repr

def TableError.message : TableError → String
  | .duplicateSet n => "correlation set \"" ++ n ++ "\" declared more than once"
  | .emptySet n => "correlation set \"" ++ n ++ "\" has no variables"
  | .unknownSet op n =>
    "operation \"" ++ op ++ "\" refers to unknown correlation set \"" ++ n ++ "\""

namespace Table

/-- The first set of a name. -/
def set? (t : Table) (name : String) : Option CorrelationSet :=
  t.sets.find? fun s => s.name == name

/-- The set that correlates an operation, if one does. -/
def setFor? (t : Table) (operation : String) : Option CorrelationSet :=
  match t.operations.lookup operation with
  | none => none
  | some "" => none
  | some name => t.set? name

/-- The first set that repeats an earlier name or, its name being new, has no variables. -/
def faultySet? (seen : List String) : List CorrelationSet → Option TableError
  | [] => none
  | s :: rest =>
    if seen.contains s.name then some (.duplicateSet s.name)
    else if s.vars.isEmpty then some (.emptySet s.name)
    else faultySet? (s.name :: seen) rest

/-- The operations sorted by name. -/
def sortedOperations (t : Table) : List (String × String) :=
  t.operations.mergeSort fun a b => !(b.1 < a.1)

/-- The first operation, by name, that refers to a set nobody declared. -/
def faultyOperation? (t : Table) : Option TableError :=
  (t.sortedOperations.find? fun o => o.2 ≠ "" && !(t.sets.any fun s => s.name == o.2)).map
    fun o => .unknownSet o.1 o.2

/-- The first fault of the table; sets come before operations. -/
def validate (t : Table) : Option TableError :=
  (faultySet? [] t.sets).or t.faultyOperation?

end Table

end Sessions.Correlation
