import Sessions.Json.Writer
import Sessions.Yaml.Reader

/-!
# Sessions.Yaml.ToJson

The JSON text of a YAML document, with the keys of its maps in order.
-/

namespace Sessions.Yaml

/-- Why a YAML text has no JSON text. -/
inductive ToJsonError where
  | unreadable (e : Error)
  | notFinite (x : Double)

def ToJsonError.message : ToJsonError → String
  | .unreadable e => e.message
  | .notFinite x => "json: unsupported value: " ++ Decimal.render .general x

mutual

/-- The first number of a value that is not finite. -/
def firstNotFinite? : Datum → Option Double
  | .float x => if x.isFinite then none else some x
  | .list ds => firstNotFiniteItem? ds
  | .map es => firstNotFiniteEntry? es
  | _ => none

def firstNotFiniteItem? : List Datum → Option Double
  | [] => none
  | d :: rest => firstNotFinite? d <|> firstNotFiniteItem? rest

def firstNotFiniteEntry? : List (String × Datum) → Option Double
  | [] => none
  | (_, d) :: rest => firstNotFinite? d <|> firstNotFiniteEntry? rest

end

/-- Converts a YAML text to JSON, indented if it is to be pretty. -/
def toJson (pretty : Bool) (text : String) : Except ToJsonError String :=
  match read text with
  | .error e => .error (.unreadable e)
  | .ok d =>
    let d := d.sorted
    match firstNotFinite? d with
    | some x => .error (.notFinite x)
    | none => .ok (if pretty then Json.pretty d else Json.compact d)

end Sessions.Yaml
