import Sessions.Check.Report
import Sessions.Graph.CallGraph

/-!
# Sessions.Graph.Mermaid

The call graph as input for Mermaid. Nodes are numbered in the order in which they are drawn.
-/

namespace Sessions.Graph.Mermaid

open Check

structure Options where
  /-- Show what a definition provides and needs. -/
  showFacts : Bool := true
  /-- The color of the entry point; none if empty. -/
  entryFill : String := "#bcf2db"
  /-- The color of definitions that are called but do not exist; none if empty. -/
  missingFill : String := "#f98b8b"
deriving DecidableEq, Repr

/-- The label of a node. -/
def label (opts : Options) (report : Option Report) (name : String) : String :=
  let row (verb : String) (paths : List String) : String :=
    if paths.isEmpty then "" else "<br/>" ++ verb ++ " " ++ ", ".intercalate paths
  match report.bind (·.definition? name) with
  | some s =>
    if opts.showFacts then name ++ row "provides" s.providedCorr ++ row "needs" s.neededCorr
    else name
  | none => name

/-- The identifier of the node of a name. -/
def nodeId (order : List String) (name : String) : String :=
  "n" ++ toString (order.idxOf name + 1)

def fillLine (id fill : String) : String :=
  if fill = "" then "" else "  style " ++ id ++ " fill:" ++ fill ++ "\n"

/-- The lines of a node: a box for the entry point, a round box for other definitions, and a slanted
one for what is missing. -/
def nodeLines (g : CallGraph) (opts : Options) (report : Option Report) (id name : String) :
    String :=
  let text := "\"" ++ label opts report name ++ "\""
  if !g.defines name then "  " ++ id ++ "[/" ++ text ++ "/]\n" ++ fillLine id opts.missingFill
  else if name == "main" then "  " ++ id ++ "[" ++ text ++ "]\n" ++ fillLine id opts.entryFill
  else "  " ++ id ++ "(" ++ text ++ ")\n"

def markLines (g : CallGraph) (opts : Options) (report : Option Report) (order : List String) :
    Mark → String
  | .node name => nodeLines g opts report (nodeId order name) name
  | .arrow origin target _ _ =>
    "  " ++ nodeId order origin ++ " --> " ++ nodeId order target ++ "\n"

/-- The graph of a program, with facts from a report if there is one. -/
def render (p : Program) (report : Option Report) (opts : Options) : String :=
  let g := CallGraph.ofProgram p
  let order := CallGraph.nodesOf g.drawing
  "graph TB\n" ++ String.join (g.drawing.map (markLines g opts report order)) ++ "\n"

end Sessions.Graph.Mermaid
