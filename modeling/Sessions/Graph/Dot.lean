import Sessions.Check.Report
import Sessions.Graph.CallGraph
import Sessions.Text.Markup
import Sessions.Yaml.Writer

/-!
# Sessions.Graph.Dot

The call graph as input for Graphviz. The label of a definition shows its correlation facts.
-/

namespace Sessions.Graph.Dot

open Check

/-- The facts of a definition that its label shows, sorted by what they say. -/
def shownFacts (s : Summary) : List (String × Datum) :=
  let row (key : String) (paths : List String) : List (String × Datum) :=
    if paths.isEmpty then [] else [(key, .list (paths.map .text))]
  row "fresh" s.freshCorr ++ row "invalidates" s.invalidated ++ row "needs" s.neededCorr ++
    row "provides" s.providedCorr

/-- The facts of a definition as text; nothing if there are none. -/
def factsText (s : Option Summary) : String :=
  match s.map shownFacts with
  | some (e :: es) => Yaml.write Yaml.isTakenWidely (.map (e :: es))
  | _ => ""

/-- The label of a definition: its name, and below it its facts in small letters. -/
def label (report : Option Report) (defined : Bool) (name : String) : String :=
  let facts := if defined then factsText (report.bind (·.definition? name)) else ""
  if facts = "" then name
  else name ++ "<FONT POINT-SIZE=\"8\"><BR/>" ++
    Text.replaceBreaks "<BR ALIGN=\"LEFT\"/>" (Text.escapeMarkup facts) ++ "</FONT>"

/-- The line of a definition. The entry point is bold, and orange if the program is not valid; a
definition that is called but does not exist is dashed; the highlighted one is red. -/
def nodeLine (g : CallGraph) (report : Option Report) (highlight name : String) : String :=
  let defined := g.defines name
  let isEntry := defined && name == "main"
  let style := "filled" ++ (if defined then "" else ",dashed") ++ (if isEntry then ",bold" else "")
  let fill := if isEntry then "#2d93ad" else if defined then "#99ddc8" else "#f98b8b"
  let invalid := (report.map fun r => !r.valid).getD false
  let color := if highlight == name then "red" else if isEntry && invalid then "orange" else "black"
  "  " ++ Text.quoted name ++ " [shape=\"record\", style=\"" ++ style ++ "\", color=\"" ++ color ++
    "\", fillcolor=\"" ++ fill ++ "\", label=<" ++ label report defined name ++ "> ]\n"

def markLine (g : CallGraph) (report : Option Report) (highlight : String) : Mark → String
  | .node name => nodeLine g report highlight name
  | .arrow origin target number total =>
    "  " ++ Text.quoted origin ++ " -> " ++ Text.quoted target ++ " [ label = \"" ++
      toString number ++ "/" ++ toString total ++ "\" ]\n"

def opening : String :=
  "digraph G \x7b\n" ++
  "  graph [ordering=out,rankdir=TB,nodesep=0.3,ranksep=0.6]\n" ++
  "  node [shape=\"record\" style=\"rounded,filled\"]\n" ++
  "  edge [fontsize = \"12\"]\n"

/-- The graph of a program. A report adds the facts of the definitions; `highlight` names one that
is drawn in red. -/
def render (p : Program) (report : Option Report) (highlight : String) : String :=
  let g := CallGraph.ofProgram p
  opening ++ String.join (g.drawing.map (markLine g report highlight)) ++ "\x7d\n"

end Sessions.Graph.Dot
