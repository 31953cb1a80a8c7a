import Sessions.Check.Diagnostic
import Sessions.Facts.Basic

/-!
# Sessions.Check.Report

The outcome of a check: the diagnostics in the order in which they were found, and a summary of the
facts of each definition.
-/

namespace Sessions.Check

/-- The facts of a definition as texts. -/
structure Summary where
  name : String
  providedVar : List String := []
  providedCorr : List String := []
  freshCorr : List String := []
  neededVar : List String := []
  neededCorr : List String := []
  invalidated : List String := []
deriving DecidableEq, Repr, Inhabited

/-- A path counts as fresh when it was provided with a fresh value and is still tracked. -/
def Summary.ofFacts (name : String) (f : Facts) : Summary where
  name := name
  providedVar := f.providedVar.texts
  providedCorr := f.providedCorr.texts
  freshCorr := (f.providedCorr.entries.filter fun e =>
    e.fresh && !f.invalidated.contains e.path).map (·.path.render)
  neededVar := f.neededVar.texts
  neededCorr := f.neededCorr.texts
  invalidated := f.invalidated.texts

structure Report where
  diagnostics : List Diagnostic
  definitions : List Summary
deriving DecidableEq, Repr, Inhabited

namespace Report

/-- A program is valid when no problem was found. -/
def valid (r : Report) : Bool :=
  r.diagnostics.isEmpty

/-- The summary of a definition. -/
def definition? (r : Report) (name : String) : Option Summary :=
  r.definitions.find? fun d => d.name == name

/-- The kind of each diagnostic. -/
def kinds (r : Report) : List String :=
  r.diagnostics.map (·.kind)

/-- How many diagnostics are of a kind. -/
def count (r : Report) (kind : String) : Nat :=
  (r.diagnostics.filter fun d => d.kind == kind).length

/-- The verdict, and one line for each problem. -/
def render (r : Report) : String :=
  if r.valid then "valid"
  else "\n".intercalate
    (("invalid (" ++ toString r.diagnostics.length ++ " problems)") ::
      r.diagnostics.map fun d => "  " ++ d.render)

end Report

end Sessions.Check
