import Sessions.Decimal.Word
import Sessions.Yaml.Reader

/-!
# Sessions.Yaml.Shape

Reading a node where the reader knows what should stand there. A text keeps its characters as
written, whatever else they could mean; a scalar that means nothing stands for the default; fields
that the reader does not know are passed over.
-/

namespace Sessions.Yaml.Shape

/-- The value of a scalar; another node is not what is wanted. -/
def scalar (wanted : String) (n : Node) : Except Error Datum :=
  match n.reached with
  | .scalar tag text implicit => scalarValue tag text implicit
  | .dangling name => .error (.badAlias name)
  | _ => .error (.mismatch wanted)

/-- A text, as written. -/
def text (n : Node) : Except Error String :=
  keyText n

def bool (n : Node) : Except Error Bool := do
  match ← scalar "bool" n with
  | .bool b => return b
  | .null => return false
  | _ => .error (.mismatch "bool")

/-- A whole number within bounds. One that is written with a fraction is taken for a word, and must
not be beyond what is the highest such word, `top`. -/
def whole (least most top : Int) (word : Double → Int) (n : Node) : Except Error Int := do
  let within (n : Int) : Except Error Int :=
    if least ≤ n && n ≤ most then .ok n else .error (.mismatch "int")
  match ← scalar "int" n with
  | .int n => within n
  | .float x =>
    if x.isNaN || (x.isInfinite && !x.isNegative) || (x.isFinite && top < x.truncate) then
      .error (.mismatch "int")
    else within (word x)
  | .null => return 0
  | _ => .error (.mismatch "int")

/-- An integer of 64 bits. -/
def int : Node → Except Error Int :=
  whole (-Int.pow 2 63) (Int.pow 2 63 - 1) (Int.pow 2 63) Double.toInt64

/-- A natural number with a bound. -/
def natural (most : Int) : Node → Except Error Int :=
  whole 0 most (Int.pow 2 64) Double.toUInt64

/-- Whether a node is a scalar that means nothing. -/
def isNull (n : Node) : Bool :=
  match scalar "" n with
  | .ok .null => true
  | _ => false

/-- Whether a node is written as if there was nothing: not at all, or with one of the short words.
Words that merely mean the same are not among them. -/
def isMissing (n : Node) : Bool :=
  match n.reached with
  | .scalar tag text implicit =>
    tag == StandardTag.null.name ||
      (tag == "" && (text == "null" || text == "~" || (text == "" && implicit)))
  | _ => false

/-- What may be missing. -/
def optional {α : Type} (read : Node → Except Error α) (n : Node) : Except Error (Option α) :=
  if isMissing n then (if isNull n then .ok none else .error (.mismatch "map"))
  else (read n).map some

/-- The items of a list; a scalar that means nothing is no list. -/
def list? {α : Type} (item : Node → Except Error α) (n : Node) : Except Error (Option (List α)) :=
  match n.reached with
  | .sequence items => (items.mapM item).map some
  | n => if isNull n then .ok none else .error (.mismatch "list")

mutual

/-- The fields of a map in the order in which they count: those of a map that is merged in stand
where the merge stands. -/
def fieldsOf : List (Node × Node) → Except Error (List (String × Node))
  | [] => .ok []
  | (k, v) :: rest => do
    let here ← if isMerge k then mergedFields v else (keyText k).map fun key => [(key, v)]
    let more ← fieldsOf rest
    return here ++ more

/-- The fields of a map that is merged in, or of the maps of a sequence. -/
def mergedFields : Node → Except Error (List (String × Node))
  | .sequence items => mergedItems items
  | n => mergedMap n

def mergedMap : Node → Except Error (List (String × Node))
  | .mapping entries => fieldsOf entries
  | .aliased n => mergedMap n
  | .dangling name => .error (.badAlias name)
  | _ => .error .badMerge

/-- The fields of several maps merged at once: the first counts last. -/
def mergedItems : List Node → Except Error (List (String × Node))
  | [] => .ok []
  | n :: rest => do
    let here ← mergedMap n
    let more ← mergedItems rest
    return more ++ here

end

/-- Reads a record field by field into what is there already; a scalar that means nothing gives the
record its default. -/
def record {α : Type} (zero : α) (field : α → String → Node → Except Error α) (soFar : α) (n : Node) :
    Except Error α :=
  match n.reached with
  | .mapping entries => do
    let fs ← fieldsOf entries
    fs.foldlM (fun x f => field x f.1 f.2) soFar
  | n => if isNull n then .ok zero else .error (.mismatch "map")

/-- Reads the document of a text; a text without one gives the default. -/
def document {α : Type} (zero : α) (shape : Node → Except Error α) (text : String) :
    Except Error α := do
  match ← Node.document? text with
  | some n => shape n
  | none => return zero

end Sessions.Yaml.Shape
