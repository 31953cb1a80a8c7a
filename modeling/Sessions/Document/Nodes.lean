import Sessions.Document.Field
import Sessions.Program.Activity

/-!
# Sessions.Document.Nodes

Reading the expressions and activities of a document. Every node is a map with a field `kind` and an
optional field `line`. In place of an expression a scalar is a literal, and in place of an activity a
list is a sequence; null is a node that is missing.
-/

namespace Sessions.Document

/-- The literal that a scalar writes, if it is one. -/
def literal? : Datum → Option Literal
  | .bool b => some (.bool b)
  | .int n => some (.int (wrap64 n))
  | .float x => some (.float x)
  | .text s => some (.text s)
  | _ => none

/-- The literal of an expression that is one; any other gives the null literal. -/
def literalOf : Expr → Literal
  | .constant _ v => v
  | _ => .null

mutual

/-- Reads an expression. -/
def readExpr (source : String) : Datum → Reading Expr
  | .null => return .missing
  | .map es => do
    let l := locOf source es
    match textOf es "kind" with
    | "const" => do
      let e ← readExpr source (Entries.get es "value")
      return .constant l (literalOf e)
    | "var" => do
      let p ← requiredPath source es "path"
      return .var l p
    | "new" => return .fresh l
    | "binary" => do
      let a ← readExpr source (Entries.get es "left")
      let b ← readExpr source (Entries.get es "right")
      return .binary l (textOf es "op") a b
    | "incdec" => do
      let p ← requiredPath source es "path"
      return .increment l p (flagOf es "pre") (flagOf es "dec")
    | "and" => do
      let cs ← readExprs source (Entries.get es "children").items
      return .all l cs
    | "or" => do
      let cs ← readExprs source (Entries.get es "children").items
      return .any l cs
    | "not" => do
      let e ← readExpr source (Entries.get es "expr")
      return .not l e
    | "compare" => do
      let a ← readExpr source (Entries.get es "left")
      let b ← readExpr source (Entries.get es "right")
      return .compare l (textOf es "op") a b
    | "istype" => do
      let p ← requiredPath source es "path"
      return .isType l (textOf es "check") p
    | "cast" => do
      let e ← readExpr source (Entries.get es "expr")
      return .cast l (textOf es "type") e
    | "size" => do
      let p ← requiredPath source es "path"
      return .size l p
    | kind => do
      fail source (lineOf es) (.unknownExpr kind)
      return .constant l .null
  | d =>
    match literal? d with
    | some v => return .constant {} v
    | none => do
      fail source 0 (.exprShape d.plain)
      return .constant {} .null
termination_by d => sizeOf d
decreasing_by
  all_goals first
    | exact Entries.sizeOf_get_lt _ _
    | exact Nat.lt_of_le_of_lt (Datum.sizeOf_items_le _) (Entries.sizeOf_get_lt _ _)

def readExprs (source : String) : List Datum → Reading (List Expr)
  | [] => return []
  | d :: rest => do
    let e ← readExpr source d
    let es ← readExprs source rest
    return e :: es
termination_by ds => sizeOf ds
decreasing_by
  all_goals simp only [List.cons.sizeOf_spec]; omega

end

mutual

/-- Reads an activity. -/
def readActivity (source : String) : Datum → Reading Activity
  | .null => return .missing
  | .list ds => do
    let ps ← readActivities source ds
    return .sequence {} ps
  | .map es => do
    let l := locOf source es
    match textOf es "kind" with
    | "seq" => do
      let ps ← readActivities source (Entries.get es "children").items
      return .sequence l ps
    | "par" => do
      let ps ← readActivities source (Entries.get es "children").items
      return .parallel l ps
    | "choice" => do
      requireMaps source l.line "branches" (Entries.get es "branches").items
      let bs ← readBranches source (Entries.get es "branches").items
      return .choice l bs
    | "if" => do
      let otherwise ← readActivity source (Entries.get es "else")
      requireMaps source l.line "branches" (Entries.get es "branches").items
      let arms ← readArms source (Entries.get es "branches").items
      return .cond l arms otherwise
    | "while" => do
      let c ← readExpr source (Entries.get es "cond")
      let p ← readActivity source (Entries.get es "body")
      return .whileLoop l c p
    | "for" => do
      let first ← readActivity source (Entries.get es "init")
      let c ← readExpr source (Entries.get es "cond")
      let post ← readActivity source (Entries.get es "post")
      let body ← readActivity source (Entries.get es "body")
      return .forLoop l first c post body
    | "foreach" => do
      let key ← pathOf source es "key"
      let target ← pathOf source es "target"
      let body ← readActivity source (Entries.get es "body")
      return .forEach l key target body
    | "call" => return .call l (textOf es "name")
    | "oneway" => do
      let input ← pathOf source es "input"
      return .oneWay l (textOf es "operation") input
    | "reqres" => do
      let input ← pathOf source es "input"
      let output ← readExpr source (Entries.get es "output")
      let handler ← readActivity source (Entries.get es "handler")
      return .requestResponse l (textOf es "operation") input output handler
    | "notify" => do
      let output ← readExpr source (Entries.get es "output")
      return .notification l (textOf es "operation") (textOf es "port") output
    | "solicit" => do
      let output ← readExpr source (Entries.get es "output")
      let input ← pathOf source es "input"
      return .solicitResponse l (textOf es "operation") (textOf es "port") output input
    | "assign" => do
      let op := if textOf es "op" = "" then "=" else textOf es "op"
      let target ← requiredPath source es "target"
      let value ← readExpr source (Entries.get es "value")
      return .assign l target op value
    | "incdec" => do
      let p ← requiredPath source es "path"
      return .increment l p (flagOf es "pre") (flagOf es "dec")
    | "scope" => do
      let p ← readActivity source (Entries.get es "body")
      return .scope l (textOf es "name") p
    | "sync" => do
      let p ← readActivity source (Entries.get es "body")
      return .synchronized l (textOf es "id") p
    | "pointer" => do
      let left ← requiredPath source es "left"
      let right ← requiredPath source es "right"
      return .pointer l left right
    | "deepcopy" => do
      let left ← requiredPath source es "left"
      let right ← requiredPath source es "right"
      return .deepCopy l left right
    | "undef" => do
      let p ← requiredPath source es "target"
      return .undef l p
    | "install" => do
      requireMaps source l.line "handlers" (Entries.get es "handlers").items
      let hs ← readHandlers source (Entries.get es "handlers").items
      return .install l hs
    | "spawn" => do
      let p ← readActivity source (Entries.get es "body")
      return .spawn l p
    | "nil" => return .nothing l
    | "exit" => return .exit l
    | "throw" => return .throw l (textOf es "fault")
    | "compensate" => return .compensate l (textOf es "scope")
    | "linkin" => return .linkIn l (textOf es "link")
    | "linkout" => return .linkOut l (textOf es "link")
    | "run" => do
      let e ← readExpr source (Entries.get es "code")
      return .run l e
    | "currentHandler" => return .currentHandler l
    | kind => do
      fail source (lineOf es) (.unknownActivity kind)
      return .nothing l
  | d => do
    fail source 0 (.activityShape d.plain)
    return .nothing {}
termination_by d => sizeOf d
decreasing_by
  all_goals first
    | exact Entries.sizeOf_get_lt _ _
    | exact Nat.lt_of_le_of_lt (Datum.sizeOf_items_le _) (Entries.sizeOf_get_lt _ _)
    | (simp only [Datum.list.sizeOf_spec]; omega)

def readActivities (source : String) : List Datum → Reading (List Activity)
  | [] => return []
  | d :: rest => do
    let p ← readActivity source d
    let ps ← readActivities source rest
    return p :: ps
termination_by ds => sizeOf ds
decreasing_by
  all_goals simp only [List.cons.sizeOf_spec]; omega

/-- Reads the branches of a choice; what is no map is left out. -/
def readBranches (source : String) : List Datum → Reading (List Branch)
  | [] => return []
  | .map es :: rest => do
    let guard ← readActivity source (Entries.get es "guard")
    let body ← readActivity source (Entries.get es "body")
    let bs ← readBranches source rest
    return ⟨guard, body⟩ :: bs
  | _ :: rest => readBranches source rest
termination_by ds => sizeOf ds
decreasing_by
  · have h := Entries.sizeOf_get_lt es "guard"
    simp only [List.cons.sizeOf_spec]; omega
  · have h := Entries.sizeOf_get_lt es "body"
    simp only [List.cons.sizeOf_spec]; omega
  · simp only [List.cons.sizeOf_spec]; omega
  · simp only [List.cons.sizeOf_spec]; omega

/-- Reads the arms of a conditional; what is no map is left out. -/
def readArms (source : String) : List Datum → Reading (List Arm)
  | [] => return []
  | .map es :: rest => do
    let c ← readExpr source (Entries.get es "cond")
    let body ← readActivity source (Entries.get es "body")
    let arms ← readArms source rest
    return ⟨c, body⟩ :: arms
  | _ :: rest => readArms source rest
termination_by ds => sizeOf ds
decreasing_by
  · have h := Entries.sizeOf_get_lt es "body"
    simp only [List.cons.sizeOf_spec]; omega
  · simp only [List.cons.sizeOf_spec]; omega
  · simp only [List.cons.sizeOf_spec]; omega

/-- Reads fault handlers; what is no map is left out. -/
def readHandlers (source : String) : List Datum → Reading (List Handler)
  | [] => return []
  | .map es :: rest => do
    let body ← readActivity source (Entries.get es "body")
    let hs ← readHandlers source rest
    return ⟨textOf es "fault", body⟩ :: hs
  | _ :: rest => readHandlers source rest
termination_by ds => sizeOf ds
decreasing_by
  · have h := Entries.sizeOf_get_lt es "body"
    simp only [List.cons.sizeOf_spec]; omega
  · simp only [List.cons.sizeOf_spec]; omega
  · simp only [List.cons.sizeOf_spec]; omega

end

end Sessions.Document
