import Sessions.Correlation.Table
import Sessions.Document.Constraint
import Sessions.Program.PathText

/-!
# Sessions.Document.Fault

What can be wrong with a document. A `Fault` is the cause, with the values it is about already in
the form in which the message shows them; a `Malformed` document is a fault at a place.
-/

namespace Sessions.Document

inductive Fault where
  /-- The text of the document is not YAML. -/
  | unreadable (cause : String)
  | unknownMode (name : String)
  | correlationShape
  | setShape
  | variableShape (shown : String)
  | variablePath (cause : Path.Error)
  | operationsShape
  | setNameShape (operation : String)
  | table (cause : Correlation.TableError)
  | programShape
  | itemShape (shown : String)
  | unnamedDefinition
  | unknownItem (kind : String)
  | activityShape (shown : String)
  | unknownActivity (kind : String)
  | elementShape (field shown : String)
  | exprShape (shown : String)
  | unknownExpr (kind : String)
  | badPath (field : String) (cause : Path.Error)
  | noPath (kind name field : String)

def Fault.message : Fault → String
  | .unreadable cause => cause
  | .unknownMode m => "unknown mode " ++ Text.quoted m
  | .correlationShape => "correlation isn't a map"
  | .setShape => "correlation set isn't a map"
  | .variableShape x => "correlation variable " ++ x ++ " isn't a string or a map"
  | .variablePath e => e.message
  | .operationsShape => "correlation operations isn't a map"
  | .setNameShape op => "correlation set name for " ++ op ++ " isn't a string"
  | .table e => e.message
  | .programShape => "program isn't a list"
  | .itemShape x => "program child " ++ x ++ " isn't a map"
  | .unnamedDefinition => "definition without a name"
  | .unknownItem k => "unknown program child kind " ++ Text.quoted k
  | .activityShape x => "process " ++ x ++ " isn't a map"
  | .unknownActivity k => "unknown process kind " ++ Text.quoted k
  | .elementShape field x => field ++ " element " ++ x ++ " isn't a map"
  | .exprShape x => "expression " ++ x ++ " isn't a scalar or a map"
  | .unknownExpr k => "unknown expression kind " ++ Text.quoted k
  | .badPath field e => field ++ ": " ++ e.message
  | .noPath kind name field => kind ++ " " ++ name ++ " needs a " ++ field

/-- A fault of a document at a line of its source; line zero means that none is known. -/
structure Malformed where
  source : String
  line : Int
  fault : Fault

/-- The text of a fault in a named source. -/
def placed (source : String) (line : Int) (reason : String) : String :=
  if source = "" then reason
  else if 0 < line then source ++ ":" ++ toString line ++ ": " ++ reason
  else source ++ ": " ++ reason

def Malformed.message (m : Malformed) : String :=
  placed m.source m.line m.fault.message

/-- Why there is no document. -/
inductive Error where
  | emptySource
  | noProgram
  | unsupportedFormat (format constraint : String)
  /-- The constraint on formats is itself unreadable. -/
  | constraint (fault : ConstraintFault)
  | malformed (m : Malformed)

def Error.message : Error → String
  | .emptySource => "document source is empty"
  | .noProgram => "document has no program"
  | .unsupportedFormat f c =>
    "document format " ++ Text.quoted f ++ " doesn't satisfy " ++ c
  | .constraint f => f.message
  | .malformed m => m.message

end Sessions.Document
