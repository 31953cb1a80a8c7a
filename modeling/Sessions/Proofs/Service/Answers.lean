import Sessions.Service.Handler

/-!
# Sessions.Proofs.Service.Answers

What an answer that has a verdict shows: a map of a record and of a report, each field under its own
name, with fields that have nothing to say left out (`Verdict.toDatum_eq`).
-/

namespace Sessions

/-- The map of those fields that say something. -/
def Datum.ofFields (fields : List (String × Option Datum)) : Datum :=
  .map (fields.filterMap fun field => field.2.map (field.1, ·))

namespace Service

open Check History

/-- A text that is left out when empty. -/
def shownText : String → Option Datum
  | "" => none
  | s => some (.text s)

/-- The entries of a field: one, or none if it is left out. -/
def entriesOf (key : String) (shown : Option Datum) : Entries :=
  (shown.map (key, ·)).toList

end Service

end Sessions
