import Sessions.Digest.Base64
import Sessions.Text.Bytes
import Sessions.Yaml.Node
import Sessions.Yaml.Resolve

/-!
# Sessions.Yaml.Reader

The value of a YAML document. Keys of maps are texts: a key stands for the text it was written
with. Of two entries with one key the later wins, and the entries of a map that is merged into
another (`<<`) count where the merge stands.
-/

namespace Sessions.Yaml

/-- The tags of the language that are read here. -/
inductive StandardTag where
  | str
  | bool
  | int
  | float
  | null
  | binary
  | merge
deriving DecidableEq, Repr

/-- The name of a standard tag. -/
def StandardTag.name : StandardTag → String
  | .str => "tag:yaml.org,2002:str"
  | .bool => "tag:yaml.org,2002:bool"
  | .int => "tag:yaml.org,2002:int"
  | .float => "tag:yaml.org,2002:float"
  | .null => "tag:yaml.org,2002:null"
  | .binary => "tag:yaml.org,2002:binary"
  | .merge => "tag:yaml.org,2002:merge"

def StandardTag.ofName? (name : String) : Option StandardTag :=
  [.str, .bool, .int, .float, .null, .binary, .merge].find? fun t => t.name == name

/-- The tag of a value that was found from the text of a scalar. -/
def resolvedTag : Datum → StandardTag
  | .bool _ => .bool
  | .int _ => .int
  | .float _ => .float
  | .null => .null
  | _ => .str

/-- The value of a scalar under its tag. Without a tag its text says what it is, unless it stands in
quotes; a tag for a type asks for a text that says the same; any other tag leaves the text alone. -/
def scalarValue (tag text : String) (implicit : Bool) : Except Error Datum :=
  if tag = "" then .ok (if implicit then resolve text else .text text)
  else
    match StandardTag.ofName? tag with
    | none | some .str | some .merge => .ok (.text text)
    | some .binary =>
      match Digest.ofBase64? text with
      | some bytes => .ok (.text (Text.ofBytes bytes))
      | none => .error .badBinary
    | some t =>
      let d := resolve text
      if resolvedTag d = t then .ok d else .error (.mismatch tag)

/-- The text that a scalar stands for where a text is wanted: itself, whatever it means otherwise. A
scalar that means nothing is empty. -/
def writtenText (tag text : String) (implicit : Bool) : Except Error String := do
  match ← scalarValue tag text implicit with
  | .null => return ""
  | .text s => return s
  | _ => return text

/-- The text of a key. -/
def keyText (n : Node) : Except Error String :=
  match n.reached with
  | .scalar tag text implicit => writtenText tag text implicit
  | .dangling name => .error (.badAlias name)
  | _ => .error (.mismatch "string")

/-- Whether the key of an entry says that the entry merges another map. -/
def isMerge : Node → Bool
  | .scalar tag text implicit => text == "<<" && (implicit || tag == StandardTag.merge.name)
  | _ => false

mutual

/-- The value of a node. -/
def value : Node → Except Error Datum
  | .scalar tag text implicit => scalarValue tag text implicit
  | .sequence items => do
    let ds ← values items
    return .list ds
  | .mapping entries => do
    let es ← entriesOf [] entries
    return .map es
  | .aliased n => value n
  | .dangling name => .error (.badAlias name)

def values : List Node → Except Error (List Datum)
  | [] => .ok []
  | n :: rest => do
    let d ← value n
    let ds ← values rest
    return d :: ds

/-- The entries of a map, added to those that are there. -/
def entriesOf (es : Entries) : List (Node × Node) → Except Error Entries
  | [] => .ok es
  | (k, v) :: rest => do
    if isMerge k then
      let es ← merged es v
      entriesOf es rest
    else
      let key ← keyText k
      let d ← value v
      entriesOf (Entries.put es key d) rest

/-- Merges a map into entries, or the maps of a sequence. -/
def merged (es : Entries) : Node → Except Error Entries
  | .sequence items => mergedItems es items
  | n => mergedMap es n

/-- Merges a map into entries. -/
def mergedMap (es : Entries) : Node → Except Error Entries
  | .mapping entries => entriesOf es entries
  | .aliased n => mergedMap es n
  | .dangling name => .error (.badAlias name)
  | _ => .error .badMerge

/-- Merges several maps into entries; the first has the last word. -/
def mergedItems (es : Entries) : List Node → Except Error Entries
  | [] => .ok es
  | n :: rest => do
    let es ← mergedItems es rest
    mergedMap es n

end

/-- The value of a YAML text; a text without a document is null. -/
def read (text : String) : Except Error Datum := do
  match ← Node.document? text with
  | some n => value n
  | none => return .null

/-- The map that a YAML text writes; a text without content writes none. -/
def readMap (text : String) : Except Error (Option Entries) := do
  match ← read text with
  | .null => return none
  | .map es => return some es
  | _ => .error (.mismatch "map")

end Sessions.Yaml
