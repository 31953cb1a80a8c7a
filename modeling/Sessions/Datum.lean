import Sessions.Decimal.Layout

/-!
# Sessions.Datum

The value of a document as it stands before anyone asks what it means: scalars, lists and maps
with text keys. Documents, settings and expectations are all read from one, and reports are
written through one. A map keeps its entries in the order in which they were written; each key
stands once.
-/

namespace Sessions

inductive Datum where
  | null
  | bool (b : Bool)
  | int (n : Int)
  | float (x : Double)
  | text (s : String)
  | list (items : List Datum)
  | map (entries : List (String × Datum))
deriving Inhabited, Repr

/-- The entries of a map. -/
abbrev Entries := List (String × Datum)

namespace Entries

/-- The value under a key; a key that does not stand in the map has the value null. -/
def get (es : Entries) (key : String) : Datum :=
  ((es.find? fun e => e.1 == key).map (·.2)).getD .null

def contains (es : Entries) (key : String) : Bool :=
  es.any fun e => e.1 == key

/-- Sets the value under a key: in place if the key stands already, else at the end. -/
def put (es : Entries) (key : String) (v : Datum) : Entries :=
  if es.contains key then es.map fun e => if e.1 == key then (key, v) else e
  else es ++ [(key, v)]

/-- Sets the values of other entries, one after the other. -/
def putAll (es more : Entries) : Entries :=
  more.foldl (fun es e => es.put e.1 e.2) es

end Entries

namespace Datum

/-- The entries, if the value is a map. -/
def entries? : Datum → Option Entries
  | .map es => some es
  | _ => none

/-- The items of a list; anything else has none. -/
def items : Datum → List Datum
  | .list xs => xs
  | _ => []

/-- The text, if the value is one. -/
def text? : Datum → Option String
  | .text s => some s
  | _ => none

def isNull : Datum → Bool
  | .null => true
  | _ => false

/-- Entries in the order of their keys. -/
def sortedByKey {α : Type} (xs : List (String × α)) : List (String × α) :=
  xs.mergeSort fun a b => !(b.1 < a.1)

mutual

/-- The value as messages show it: scalars bare, lists in brackets, maps sorted by key. -/
def plain : Datum → String
  | .null => "<nil>"
  | .bool b => if b then "true" else "false"
  | .int n => toString n
  | .float x => Decimal.render .general x
  | .text s => s
  | .list xs => "[" ++ " ".intercalate (plainItems xs) ++ "]"
  | .map es =>
    "map[" ++ " ".intercalate ((sortedByKey (plainEntries es)).map fun e => e.1 ++ ":" ++ e.2) ++ "]"

def plainItems : List Datum → List String
  | [] => []
  | x :: rest => plain x :: plainItems rest

def plainEntries : List (String × Datum) → List (String × String)
  | [] => []
  | (k, v) :: rest => (k, plain v) :: plainEntries rest

end

mutual

/-- The value with the entries of every map in it sorted by key. -/
def sorted : Datum → Datum
  | .list xs => .list (sortedItems xs)
  | .map es => .map (sortedByKey (sortedEntries es))
  | d => d

def sortedItems : List Datum → List Datum
  | [] => []
  | x :: rest => sorted x :: sortedItems rest

def sortedEntries : List (String × Datum) → List (String × Datum)
  | [] => []
  | (k, v) :: rest => (k, sorted v) :: sortedEntries rest

end

end Datum

end Sessions
