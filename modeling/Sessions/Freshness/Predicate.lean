import Sessions.Script.Run

/-!
# Sessions.Freshness.Predicate

Scripts in which an allow-list may say which calls it trusts. A script is the body of a function that
sees the call as `_.service` and `_.operation` and returns a truth value:

    return _.service === "Vault" && _.operation.indexOf("mint") === 0;
-/

namespace Sessions.Freshness.Predicate

open Script (Machine Value)

/-- Reads a script. The error is the text that is logged for a script nobody can run. -/
def parse (source : String) : Except String Script :=
  match Script.parse? source with
  | some s => .ok s
  | none => .error ("SyntaxError: predicate: " ++ source)

/-- Why a script gave no answer. -/
inductive Failure where
  | timeout
  | raised (text : String)
  | notBoolean (type : String)
deriving DecidableEq, Repr

def Failure.message : Failure → String
  | .timeout => "RuntimeError: timeout"
  | .raised t => t
  | .notBoolean t => "predicate returned a " ++ t ++ ", not a boolean"

/-- The name of the kind of a value that is no truth value. -/
def typeName (m : Machine) : Value → String
  | .number x =>
    let isSmall := x.isWhole && x.truncate.natAbs ≤ Nat.pow 2 53 && !(x.isZero && x.isNegative)
    if isSmall then "int64" else "float64"
  | .text _ => "string"
  | .object a =>
    match (m.objects[a]?).map Script.Object.nature with
    | some (.list _) => "[]interface \x7b\x7d"
    | _ => "map[string]interface \x7b\x7d"
  | _ => "bool"

/-- The answer of a script about a call. Returning nothing at all means no. -/
def decide (s : Script) (service operation : String) : Except Failure Bool :=
  match s.run "_" [("operation", .text operation), ("service", .text service)] with
  | (.error .timeout, _) => .error .timeout
  | (.error (.raised v), m) => .error (.raised (m.textOf Script.textDepth v))
  | (.ok .undefined, _) => .ok false
  | (.ok .null, _) => .ok false
  | (.ok (.bool b), _) => .ok b
  | (.ok v, m) => .error (.notBoolean (typeName m v))

end Sessions.Freshness.Predicate
