import Sessions.Check.Report
import Sessions.Check.Walk

/-!
# Sessions.Check.Checker

Checking a whole program: every definition is walked, then the program-level rules are applied to
the facts of the entry point.
-/

namespace Sessions.Check

/-- A program with all that its check depends on. -/
structure Checker where
  program : Option Program
  mode : Mode := .concurrent
  correlation : Option Correlation.Table
  fresh : Recogniser
  /-- The definition that runs; `main` if not given. -/
  entry : String := ""
  /-- The definition that runs before the entry; `init` if not given. -/
  init : String := ""

/-- The definition that runs if no other is named. -/
def defaultEntry : String := "main"

namespace Checker

def entryName (c : Checker) : String :=
  if c.entry = "" then defaultEntry else c.entry

def initName (c : Checker) : String :=
  if c.init = "" then "init" else c.init

/-- All definitions of the program, hidden ones too. -/
def declared (c : Checker) : List Definition :=
  (c.program.map Program.definitions).getD []

/-- What the walk over the definitions sees: the first definition of each name. -/
def scope (c : Checker) : Scope where
  mode := c.mode
  correlation := c.correlation
  fresh := c.fresh
  definitions := firstDefinitions c.declared
  entry := c.entryName

def reportEach (problem : Path → Problem) : List Path → Walk Unit
  | [] => return ()
  | p :: rest => do
    report p.loc (problem p)
    reportEach problem rest

/-- Whether one of the paths is provided with a fresh value and still tracked. -/
def isFresh (f : Facts) (paths : List Path) : Bool :=
  paths.any fun p =>
    f.available p && ((f.providedCorr.get? p).map (·.fresh)).getD false

/-- Each correlation set needs a fresh value. -/
def requireFresh (f : Facts) : List Correlation.CorrelationSet → Walk Unit
  | [] => return ()
  | s :: rest => do
    if !isFresh f s.paths then report s.loc (.notFresh s.name)
    requireFresh f rest

/-- The facts of a whole run: the entry point, after the initial definition if there is one. That
one may not initialise correlation variables. -/
def runFacts (c : Checker) (main : Facts) : Walk Facts := do
  match (← get).table.lookup c.initName with
  | none => return main
  | some init =>
    reportEach .initialisedInInit init.providedCorr.paths
    inSequence init main

/-- The rules for the program as a whole. -/
def conclude (c : Checker) : Walk Unit := do
  match (← get).table.lookup c.entryName with
  | none => report ((c.program.map (·.loc)).getD {}) .noEntry
  | some main =>
    let f ← c.runFacts main
    reportEach .unmetCorrelation f.neededCorr.paths
    reportEach .unmetVariable f.neededVar.paths
    match c.mode, c.correlation with
    | .single, _ => return ()
    | _, none => return ()
    | _, some t => requireFresh f t.sets

def noteHidden : List String → Walk Unit
  | [] => return ()
  | n :: rest => do
    note ("ignoring duplicate definition " ++ n)
    noteHidden rest

/-- Walks every definition and applies the rules for the whole program. -/
def run (c : Checker) : Walk Unit := do
  noteHidden (hiddenDefinitions [] c.declared)
  c.scope.defineAll c.scope.definitions
  c.conclude

/-- All that a check finds. -/
def progress (c : Checker) : Progress :=
  (c.run.run {}).2

/-- The facts of each definition, in the order of the source. -/
def facts (c : Checker) : List (String × Facts) :=
  c.scope.definitions.filterMap fun d => (c.progress.table.lookup d.name).map fun f => (d.name, f)

/-- Checks the program. -/
def check (c : Checker) : Report :=
  let p := c.progress
  { diagnostics := p.diagnostics
    definitions := c.scope.definitions.filterMap fun d =>
      (p.table.lookup d.name).map (Summary.ofFacts d.name) }

/-- What a check writes to the log. -/
def log (c : Checker) : List String :=
  c.progress.log

end Checker

end Sessions.Check
