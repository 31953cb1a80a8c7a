import Sessions.Check.Checker
import Sessions.Document.Nodes
import Sessions.Freshness.AllowList

/-!
# Sessions.Document.Basic

A document carries a program with its mode and its correlation table. `Document.ofEntries` reads
one from a map: first the format is checked, then the mode, the correlation table and the program,
and the first fault is the answer.
-/

namespace Sessions

structure Document where
  format : String
  source : String
  mode : Mode
  correlation : Correlation.Table
  program : Program
deriving Inhabited

namespace Document

/-- The format version that a document without one is in. -/
def formatVersion : String := "1.0.0"

/-- The format versions that can be read. -/
def formatConstraint : String := "^1"

/-- Checks a format version against a constraint. -/
def checkFormat (constraint format : String) : Except Error Unit :=
  let format := if format = "" then formatVersion else format
  match Constraint.parse constraint with
  | .error fault => .error (.constraint fault)
  | .ok c =>
    if ((Version.parse? format).map c.allows).getD false then .ok ()
    else .error (.unsupportedFormat format constraint)

/-- The answer of a step that found a fault. -/
def refuse {α : Type} (source : String) (line : Int) (fault : Fault) : Except Error α :=
  .error (.malformed ⟨source, line, fault⟩)

/-- Reads a correlation variable: a text, or a map with a name and a path that defaults to it. -/
def readVariable (source : String) (loc : Location) (d : Datum) :
    Except Error Correlation.Variable :=
  let ofText (name text : String) : Except Error Correlation.Variable :=
    match Path.parse loc text with
    | .ok p => .ok ⟨name, p⟩
    | .error e => refuse source loc.line (.variablePath e)
  match d with
  | .map es =>
    let name := textOf es "name"
    ofText name (if textOf es "path" = "" then name else textOf es "path")
  | d =>
    match d.text? with
    | some s => ofText s s
    | none => refuse source 0 (.variableShape d.plain)

/-- Reads a correlation set; `line` is that of the map around it. -/
def readSet (source : String) (line : Int) (d : Datum) : Except Error Correlation.CorrelationSet :=
  match d with
  | .map es => do
    let loc := locOf source es
    let vars ← (Entries.get es "vars").items.mapM (readVariable source loc)
    return ⟨textOf es "name", loc, vars⟩
  | _ => refuse source line .setShape

/-- Reads which set each operation has. -/
def readOperations (source : String) (line : Int) :
    List (String × Datum) → Except Error (List (String × String))
  | [] => .ok []
  | (op, d) :: rest => do
    match d.text? with
    | some name =>
      let ops ← readOperations source line rest
      return (op, name) :: ops
    | none => refuse source line (.setNameShape op)

/-- Reads a correlation table and validates it. -/
def readTable (source : String) (d : Datum) : Except Error Correlation.Table :=
  match d with
  | .null => .ok {}
  | .map es => do
    let line := lineOf es
    let sets ← (Entries.get es "sets").items.mapM (readSet source line)
    let operations ← match Entries.get es "operations" with
      | .null => .ok []
      | .map ops => readOperations source line ops
      | _ => refuse source line .operationsShape
    let table : Correlation.Table := ⟨sets, operations⟩
    match table.validate with
    | some e => refuse source 0 (.table e)
    | none => return table
  | _ => refuse source 0 .correlationShape

/-- Reads the items of a program; what is none of them is left out. -/
def readItems (source : String) : List Datum → Reading (List Item)
  | [] => return []
  | .map es :: rest => do
    let here ← match textOf es "kind" with
      | "define" => do
        let name := textOf es "name"
        if name = "" then fail source (lineOf es) .unnamedDefinition
        let body ← readActivity source (Entries.get es "body")
        pure [Item.definition ⟨locOf source es, name, body⟩]
      | "decl" =>
        pure [Item.declaration ⟨locOf source es, textOf es "what", textOf es "name"⟩]
      | kind => do
        fail source (lineOf es) (.unknownItem kind)
        pure []
    let items ← readItems source rest
    return here ++ items
  | d :: rest => do
    fail source 0 (.itemShape d.plain)
    readItems source rest

/-- Reads a program. -/
def readProgram (source : String) (d : Datum) : Except Error Program :=
  match d with
  | .null => .error .noProgram
  | .list ds =>
    match (readItems source ds).run none with
    | (items, none) => .ok ⟨⟨source, 0⟩, items⟩
    | (_, some m) => .error (.malformed m)
  | _ => refuse source 0 .programShape

/-- Reads a document. Its own field `source` names it, or else the given name does. -/
def ofEntries (name : String) (es : Entries) : Except Error Document := do
  let format := textOf es "format"
  let source := if textOf es "source" = "" then name else textOf es "source"
  checkFormat formatConstraint format
  let mode ← match Mode.ofName? (textOf es "mode") with
    | some m => pure m
    | none => refuse source (lineOf es) (.unknownMode (textOf es "mode"))
  let correlation ← readTable source (Entries.get es "correlation")
  let program ← readProgram source (Entries.get es "program")
  return { format, source, mode, correlation, program }

/-- The check of the document, with the standard allow-list. -/
def checker (d : Document) : Check.Checker where
  program := some d.program
  mode := d.mode
  correlation := some d.correlation
  fresh := Freshness.recogniser (some .standard)

/-- Checks the document. -/
def check (d : Document) : Check.Report :=
  d.checker.check

end Document

end Sessions
