import Sessions.Check.Report
import Sessions.Datum

/-!
# Sessions.Check.Exchange

Reports as values that can be written as JSON or YAML. Fields that have nothing to say are left
out.
-/

namespace Sessions

/-- A text field, left out when empty. -/
def Entries.ofText (key value : String) : Entries :=
  if value = "" then [] else [(key, .text value)]

/-- A list of texts, left out when empty. -/
def Entries.ofTexts (key : String) (values : List String) : Entries :=
  if values.isEmpty then [] else [(key, .list (values.map .text))]

/-- A number, left out when zero. -/
def Entries.ofInt (key : String) (n : Int) : Entries :=
  if n = 0 then [] else [(key, .int n)]

def Location.toDatum (l : Location) : Datum :=
  .map (Entries.ofText "source" l.source ++ Entries.ofInt "line" l.line)

namespace Check

def Diagnostic.toDatum (d : Diagnostic) : Datum :=
  .map ([("kind", .text d.kind), ("context", d.loc.toDatum)] ++ Entries.ofText "path" d.path ++
    [("message", .text d.message)])

def Summary.toDatum (s : Summary) : Datum :=
  .map ([("name", .text s.name)] ++ Entries.ofTexts "providedVar" s.providedVar ++
    Entries.ofTexts "providedCorr" s.providedCorr ++ Entries.ofTexts "freshCorr" s.freshCorr ++
    Entries.ofTexts "neededVar" s.neededVar ++ Entries.ofTexts "neededCorr" s.neededCorr ++
    Entries.ofTexts "invalidatedVar" s.invalidated)

/-- A list of values, left out when empty. -/
def ofList (key : String) (ds : List Datum) : Entries :=
  if ds.isEmpty then [] else [(key, .list ds)]

def Report.toDatum (r : Report) : Datum :=
  .map ([("valid", .bool r.valid)] ++ ofList "diagnostics" (r.diagnostics.map Diagnostic.toDatum) ++
    ofList "definitions" (r.definitions.map Summary.toDatum))

end Check

end Sessions
