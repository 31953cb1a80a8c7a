import Sessions.History.Record
import Sessions.Json.Writer

/-!
# Sessions.History.Archive

The verdicts of each program, oldest first. Records of one instant stay in the order in which they
were written: each shelf numbers the records that it gets. If the archive has a limit, a shelf keeps
only so many of its newest records.
-/

namespace Sessions.History

/-- A record with its number among those that its shelf ever got. -/
structure Filed where
  number : Nat
  record : Record
deriving DecidableEq, Repr

/-- The records of one program. -/
structure Shelf where
  /-- How many records the shelf ever got. -/
  received : Nat := 0
  /-- What it holds, oldest first. -/
  filed : List Filed := []
deriving DecidableEq, Repr, Inhabited

namespace Filed

/-- The key of a record; keys sort by instant, then by number. -/
def key (f : Filed) : String :=
  f.record.instant.renderFull ++ "-" ++ Time.Instant.padded 20 f.number

end Filed

namespace Shelf

/-- Puts the newest arrival behind every record that is not later. -/
def place (new : Filed) : List Filed → List Filed
  | [] => [new]
  | f :: rest =>
    if f.record.instant.nanoseconds ≤ new.record.instant.nanoseconds then f :: place new rest
    else new :: f :: rest

/-- How many records are over the limit; a limit that is not positive is none. -/
def excess (limit : Int) (filed : List Filed) : Nat :=
  if limit ≤ 0 then 0 else filed.length - limit.toNat

/-- The shelf with one more record, before it is trimmed. -/
def receive (s : Shelf) (r : Record) : Shelf :=
  ⟨s.received + 1, place ⟨s.received + 1, r⟩ s.filed⟩

/-- Drops the oldest records that are over the limit. -/
def trim (limit : Int) (s : Shelf) : Shelf :=
  { s with filed := s.filed.drop (excess limit s.filed) }

/-- Adds a record and keeps to the limit. -/
def write (limit : Int) (s : Shelf) (r : Record) : Shelf :=
  (s.receive r).trim limit

/-- The records that a write drops. -/
def dropped (limit : Int) (s : Shelf) (r : Record) : List Filed :=
  (s.receive r).filed.take (excess limit (s.receive r).filed)

def records (s : Shelf) : List Record :=
  s.filed.map (·.record)

end Shelf

/-- The shelves of all programs. -/
structure Archive where
  /-- How many records a shelf keeps; without limit if not positive. -/
  limit : Int := 0
  shelves : List (String × Shelf) := []
deriving DecidableEq, Repr, Inhabited

namespace Archive

/-- The shelf of a program, empty if it has none. -/
def shelf (a : Archive) (program : String) : Shelf :=
  (a.shelves.lookup program).getD {}

/-- Adds a record to the history of its program. -/
def write (a : Archive) (r : Record) : Archive :=
  let new := (a.shelf r.program).write a.limit r
  { a with shelves := (a.shelves.filter (·.1 != r.program)) ++ [(r.program, new)] }

/-- The history of a program, oldest record first. -/
def history (a : Archive) (program : String) : List Record :=
  (a.shelf program).records

/-- Forgets a program. -/
def erase (a : Archive) (program : String) : Archive :=
  { a with shelves := a.shelves.filter (·.1 != program) }

/-- The programs with history, in order. -/
def programs (a : Archive) : List String :=
  (a.shelves.map (·.1)).mergeSort fun x y => !(y < x)

end Archive

end Sessions.History
