import Sessions.Program.Node

/-!
# Sessions.Graph.CallGraph

Which definition calls which. A call graph lists the distinct definitions in the order of the source,
each with the names that it calls in the order of their first call. Its `drawing` is the order in
which renderers draw it: a name is drawn before the first arrow that touches it.
-/

namespace Sessions.Graph

/-- The names that a definition calls, each once. -/
def callees (d : Definition) : List String :=
  ((Node.definition d).all.filterMap fun
    | .activity (.call _ name) => some name
    | _ => none).eraseDups

structure CallGraph where
  calls : List (String × List String)
deriving DecidableEq, Repr

namespace CallGraph

def ofProgram (p : Program) : CallGraph :=
  ⟨(firstDefinitions p.definitions).map fun d => (d.name, callees d)⟩

/-- The definitions in the order of the source. -/
def names (g : CallGraph) : List String :=
  g.calls.map (·.1)

/-- Whether a definition has the name. -/
def defines (g : CallGraph) (name : String) : Bool :=
  g.names.contains name

end CallGraph

/-- One mark of a drawing. An arrow knows its number among the arrows of its origin. -/
inductive Mark where
  | node (name : String)
  | arrow (origin target : String) (number total : Nat)
deriving DecidableEq, Repr

namespace CallGraph

/-- Draws a name unless it is drawn already; returns the names drawn so far. -/
def drawName (drawn : List String) (name : String) : List String × List Mark :=
  if drawn.contains name then (drawn, []) else (name :: drawn, [.node name])

/-- Draws the arrows of a definition from a number on. -/
def drawArrows (origin : String) (total : Nat) :
    List String → (number : Nat) → List String → List String × List Mark
  | drawn, _, [] => (drawn, [])
  | drawn, number, target :: rest =>
    let (drawn, here) := drawName drawn target
    let (drawn, more) := drawArrows origin total drawn (number + 1) rest
    (drawn, here ++ .arrow origin target number total :: more)

/-- Draws the definitions one after the other. -/
def drawAll : List String → List (String × List String) → List Mark
  | _, [] => []
  | drawn, (name, targets) :: rest =>
    let (drawn, here) := drawName drawn name
    let (drawn, arrows) := drawArrows name targets.length drawn 1 targets
    here ++ arrows ++ drawAll drawn rest

/-- The marks of the graph in the order in which they are drawn. -/
def drawing (g : CallGraph) : List Mark :=
  drawAll [] g.calls

/-- The names of a drawing in the order in which they are drawn. -/
def nodesOf (ms : List Mark) : List String :=
  ms.filterMap fun
    | .node name => some name
    | .arrow .. => none

end CallGraph

end Sessions.Graph
