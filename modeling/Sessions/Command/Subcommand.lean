import Sessions.Analysis
import Sessions.Check.Exchange
import Sessions.Command.Flag
import Sessions.Document.Source
import Sessions.Freshness.File
import Sessions.Graph.Dot
import Sessions.Graph.Mermaid
import Sessions.Json.Writer
import Sessions.Page.Report
import Sessions.Yaml.Writer

/-!
# Sessions.Command.Subcommand

What the command line tool can do with a document: check it, analyse it, draw its call graph, or
write a page about it.
-/

namespace Sessions.Command

inductive Subcommand where
  | analyze
  | check
  | graph
  | html
  | mermaid
deriving DecidableEq, Repr

/-- Why a subcommand did not succeed. -/
inductive Failure where
  /-- The program has problems; the report says which. -/
  | invalid
  | unknownMode
  | allowList (e : Freshness.AllowListError)
  | file (e : FileError)
  /-- The drawing tool ended with a status of its own. -/
  | status (code : Nat)

def Failure.message : Failure → String
  | .invalid => "program is invalid"
  | .unknownMode => "unknown mode"
  | .allowList e => e.message
  | .file e => e.message
  | .status code => "exit status " ++ toString code

/-- The drawing tool: its arguments give a status and what it writes. -/
abbrev DrawingTool := List String → Nat × String

/-- What came of a subcommand. -/
structure Result where
  out : String := ""
  log : List String := []
  folder : Folder
  failure : Option Failure := none

namespace Subcommand

/-- The subcommands by name. -/
def all : List Subcommand := [.analyze, .check, .graph, .html, .mermaid]

def name : Subcommand → String
  | .analyze => "analyze"
  | .check => "check"
  | .graph => "graph"
  | .html => "html"
  | .mermaid => "mermaid"

def ofName? (s : String) : Option Subcommand :=
  all.find? fun c => c.name == s

def doc : Subcommand → String
  | .analyze => "Writes a structural summary of the program."
  | .check => "Checks the program and writes the report."
  | .graph => "Writes a Graphviz call graph with each definition's correlation facts."
  | .html => "Writes an HTML report page."
  | .mermaid => "Writes a Mermaid call graph."

/-- The flags that a subcommand has beside those that all have. -/
def ownFlags : Subcommand → List Flag
  | .analyze => []
  | .check =>
    [⟨"m", .text "", "execution mode override (concurrent, sequential, single)"⟩,
     ⟨"e", .text Check.defaultEntry, "entry point"⟩,
     ⟨"f", .text "", "YAML file with fresh-value sources"⟩,
     ⟨"j", .switch, "write JSON instead of YAML"⟩,
     ⟨"facts", .switch, "include each definition's facts"⟩]
  | .graph =>
    [⟨"o", .text "program.dot", "output filename (basename with -png)"⟩,
     ⟨"h", .text "", "definition to highlight"⟩,
     ⟨"png", .switch, "also run dot to make a PNG"⟩]
  | .html => [⟨"css", .text "", "CSS URL"⟩]
  | .mermaid =>
    [⟨"o", .text "program.mermaid", "output filename"⟩,
     ⟨"q", .switch, "don't show facts"⟩]

def flags (c : Subcommand) : List Flag :=
  c.ownFlags ++
    [⟨"d", .text "", "document reference (default is stdin)"⟩, ⟨"v", .switch, "verbose logging"⟩]

end Subcommand

/-- The check of a document as the flags want it. -/
def checkerFor (folder : Folder) (v : FlagValues) (d : Document) :
    Except Failure Check.Checker := do
  let text (name : String) : String := v.text Subcommand.check.flags name
  let mode ← match text "m", Mode.ofName? (text "m") with
    | "", _ => pure d.mode
    | _, some m => pure m
    | _, none => .error .unknownMode
  let c := { d.checker with mode, entry := text "e" }
  if text "f" = "" then return c
  match Freshness.AllowList.ofFile folder (text "f") with
  | .error e => .error (.allowList e)
  | .ok a => return { c with fresh := Freshness.recogniser (some a) }

def runCheck (folder : Folder) (v : FlagValues) (d : Document) : Result :=
  match checkerFor folder v d with
  | .error e => { folder, failure := some e }
  | .ok c =>
    let full := c.check
    let report := if v.switch "facts" then full else { full with definitions := [] }
    { out := if v.switch "j" then Json.pretty report.toDatum ++ "\n"
        else Yaml.write Yaml.isTaken report.toDatum
      log := c.log
      folder
      failure := if report.valid then none else some .invalid }

def runAnalyze (folder : Folder) (d : Document) : Result :=
  let analysis := Analysis.ofProgram d.program (some d.correlation)
  { out := Yaml.write Yaml.isTaken analysis.toDatum ++ "\n", folder }

/-- What a renderer notes about the number of definitions. -/
def countRemark (d : Document) : String :=
  "processing " ++ toString (Graph.CallGraph.ofProgram d.program).names.length ++ " definitions"

/-- Writes a drawing to a file. -/
def drawTo (folder : Folder) (name text : String) (before after : List String) : Result :=
  match folder.write name text with
  | .error e => { log := before, folder, failure := some (.file e) }
  | .ok folder => { log := before ++ after, folder }

/-- Runs the drawing tool on a file and keeps what it writes in another. -/
def runTool (tool : DrawingTool) (r : Result) (source target : String) : Result :=
  if r.failure.isSome then r
  else
    let (code, text) := tool ["-Tpng", "-Gstart=1", source]
    match r.folder.write target text with
    | .error _ => { r with failure := some (.status 1) }
    | .ok folder =>
      if code = 0 then { r with folder, out := target ++ "\n" }
      else { r with folder, failure := some (.status code) }

def runGraph (tool : DrawingTool) (folder : Folder) (v : FlagValues) (d : Document) : Result :=
  let output := v.text Subcommand.graph.flags "o"
  let highlight := v.text Subcommand.graph.flags "h"
  let text := Graph.Dot.render d.program (some d.check) highlight
  let draw (name : String) : Result := drawTo folder name text d.checker.log [countRemark d]
  if v.switch "png" then runTool tool (draw (output ++ ".dot")) (output ++ ".dot") (output ++ ".png")
  else draw output

def runMermaid (folder : Folder) (v : FlagValues) (d : Document) : Result :=
  let opts : Graph.Mermaid.Options := { showFacts := !v.switch "q" }
  match folder.write (v.text Subcommand.mermaid.flags "o")
      (Graph.Mermaid.render d.program (some d.check) opts) with
  | .error e => { folder, failure := some (.file e) }
  | .ok folder => { log := d.checker.log ++ [countRemark d, "mermaid gen done"], folder }

def runHtml (folder : Folder) (v : FlagValues) (d : Document) : Result :=
  let css := v.text Subcommand.html.flags "css"
  { out := Page.page d d.check (if css = "" then Page.defaultStyles else [css])
    log := d.checker.log
    folder }

/-- Runs a subcommand on a document. -/
def Subcommand.run (c : Subcommand) (tool : DrawingTool) (folder : Folder) (v : FlagValues)
    (d : Document) : Result :=
  match c with
  | .analyze => runAnalyze folder d
  | .check => runCheck folder v d
  | .graph => runGraph tool folder v d
  | .html => runHtml folder v d
  | .mermaid => runMermaid folder v d

end Sessions.Command
