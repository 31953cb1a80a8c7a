import Sessions.Datum
import Sessions.Decimal.Word
import Sessions.Document.Fault

/-!
# Sessions.Document.Field

Reading the fields of a map of a document, in a computation that remembers the first fault it
meets and goes on with a stand-in value.
-/

namespace Sessions

/-- A value of a map is smaller than the map. -/
theorem Entries.sizeOf_get_lt (es : Entries) (key : String) :
    sizeOf (es.get key) < sizeOf (Datum.map es) := by
  have h : ∀ l : List (String × Datum),
      sizeOf (((l.find? fun e => e.1 == key).map (·.2)).getD Datum.null) < 1 + sizeOf l := by
    intro l
    induction l with
    | nil => simp
    | cons e rest ih =>
      obtain ⟨k, v⟩ := e
      simp only [List.find?_cons]
      split
      · simp only [Option.map_some, Option.getD_some, List.cons.sizeOf_spec, Prod.mk.sizeOf_spec]
        omega
      · simp only [List.cons.sizeOf_spec]
        omega
  simpa [Entries.get, Datum.map.sizeOf_spec] using h es

/-- The items of a value are together no larger than the value. -/
theorem Datum.sizeOf_items_le (d : Datum) : sizeOf d.items ≤ sizeOf d := by
  cases d <;> simp [Datum.items]

namespace Document

/-- Reading with the first fault remembered. -/
abbrev Reading := StateM (Option Malformed)

/-- Remembers a fault unless there was one before. -/
def fail (source : String) (line : Int) (fault : Fault) : Reading Unit :=
  modify fun
    | some m => some m
    | none => some ⟨source, line, fault⟩

/-- The line that a map gives for itself. -/
def lineOf (es : Entries) : Int :=
  match es.get "line" with
  | .int n => wrap64 n
  | .float x => x.toInt64
  | _ => 0

def locOf (source : String) (es : Entries) : Location :=
  ⟨source, lineOf es⟩

/-- A field as text; null is no text at all. -/
def textOf (es : Entries) (key : String) : String :=
  match es.get key with
  | .null => ""
  | .text s => s
  | d => d.plain

/-- A field that is a truth value; anything else is false. -/
def flagOf (es : Entries) (key : String) : Bool :=
  match es.get key with
  | .bool b => b
  | _ => false

/-- A field with the text of a path, if it has one. -/
def pathOf (source : String) (es : Entries) (key : String) : Reading (Option Path) := do
  let text := textOf es key
  if text = "" then return none
  else
    match Path.parse (locOf source es) text with
    | .ok p => return some p
    | .error e =>
      fail source (lineOf es) (.badPath key e)
      return none

/-- The path that stands in for one that is missing. -/
def standIn : Path := ⟨{}, [⟨"_", none⟩]⟩

/-- A field that has to have the text of a path. -/
def requiredPath (source : String) (es : Entries) (key : String) : Reading Path := do
  match ← pathOf source es key with
  | some p => return p
  | none =>
    fail source (lineOf es) (.noPath (textOf es "kind") (textOf es "name") key)
    return standIn

/-- Every element of a list has to be a map. -/
def requireMaps (source : String) (line : Int) (key : String) : List Datum → Reading Unit
  | [] => return ()
  | .map _ :: rest => requireMaps source line key rest
  | d :: rest => do
    fail source line (.elementShape key d.plain)
    requireMaps source line key rest

end Document

end Sessions
