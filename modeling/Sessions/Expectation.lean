import Sessions.Document.Source
import Sessions.Yaml.Shape

/-!
# Sessions.Expectation

Documents with the verdict they should get. An expectation names a document or carries one, says
whether it is valid and, if it cares, which kinds of problems it has in which order.
-/

namespace Sessions

structure Expectation where
  /-- What the expectation is about, for a reader. -/
  doc : String := ""
  /-- The reference of the document; if it is empty, the document is carried along. -/
  document : String := ""
  inlined : Option Entries := none
  valid : Bool := false
  /-- The kinds of the problems in order; none if they do not matter. -/
  kinds : Option (List String) := none
deriving Inhabited

/-- Why an expectation was not met. -/
inductive ExpectationFailure where
  | load (e : LoadError)
  | verdict (wanted : Expectation) (report : Check.Report)

def ExpectationFailure.message : ExpectationFailure → String
  | .load e => e.message
  | .verdict wanted report =>
    let bool (b : Bool) : String := if b then "true" else "false"
    let list (ks : List String) : String := "[" ++ " ".intercalate ks ++ "]"
    wanted.doc ++ ": wanted valid=" ++ bool wanted.valid ++
      " kinds=" ++ list (wanted.kinds.getD []) ++
      "; got valid=" ++ bool report.valid ++ " kinds=" ++ list report.kinds

/-- What came of an expectation: the report if there is one, the failure if it was not met, and
what was noted on the way. -/
structure ExpectationResult where
  report : Option Check.Report
  failure : Option ExpectationFailure
  log : List String

namespace Expectation

/-- The reference of a document as seen from a directory. -/
def referenceFrom (dir reference : String) : String :=
  if (reference.splitOn "://").length = 1 && !FileName.isAbsolute reference
  then FileName.join dir reference
  else reference

/-- Whether a report is what was expected. -/
def accepts (e : Expectation) (r : Check.Report) : Bool :=
  r.valid == e.valid &&
    match e.kinds with
    | some ks => decide (r.kinds = ks)
    | none => true

/-- The document of an expectation. -/
def load (e : Expectation) (dir : String) (s : Sources) : Sources × Except LoadError Document :=
  if e.document ≠ "" then s.load (referenceFrom dir e.document)
  else
    match e.inlined with
    | none => (s, .error (.document .emptySource))
    | some es => (s, (Document.ofEntries "inline" es).mapError .document)

/-- Checks the document of an expectation and compares the verdict. -/
def run (e : Expectation) (dir : String) (s : Sources) : Sources × ExpectationResult :=
  match e.load dir s with
  | (s, .error failure) => (s, ⟨none, some (.load failure), []⟩)
  | (s, .ok d) =>
    let report := d.check
    let failure := if e.accepts report then none else some (.verdict e report)
    (s, ⟨some report, failure, d.checker.log⟩)

open Yaml.Shape in
def shape : Yaml.Node → Except Yaml.Error Expectation :=
  record {} (fun e key n => do
    match key with
    | "doc" => return { e with doc := ← text n }
    | "document" => return { e with document := ← text n }
    | "valid" => return { e with valid := ← bool n }
    | "kinds" => return { e with kinds := ← list? text n }
    | "inline" =>
      match ← Yaml.value n with
      | .null => return { e with inlined := none }
      | .map es => return { e with inlined := some (Entries.putAll (e.inlined.getD []) es) }
      | _ => .error (.mismatch "map")
    | _ => return e) {}

/-- Reads a list of expectations. An entry that means nothing stays in the list as none. -/
def listOfText (text : String) : Except Yaml.Error (List (Option Expectation)) :=
  Yaml.Shape.document [] (fun n => do
    let xs ← Yaml.Shape.list? (Yaml.Shape.optional shape) n
    return xs.getD []) text

end Expectation

/-- Why a file of expectations could not be run. -/
inductive ExpectationsError where
  | file (e : FileError)
  | unreadable (e : Yaml.Error)
  /-- An entry of the list is empty. -/
  | emptyEntry

def ExpectationsError.message : ExpectationsError → String
  | .file e => e.message
  | .unreadable e => e.message
  | .emptyEntry => "empty expectation"

namespace Expectation

/-- Runs expectations one after the other, and notes the failures under their numbers. -/
def runAll (dir : String) : (number : Nat) → Sources → List Expectation →
    Sources × List ExpectationResult
  | _, s, [] => (s, [])
  | number, s, e :: rest =>
    let (s, result) := e.run dir s
    let result := match result.failure with
      | some f => { result with log := result.log ++
          ["expectation " ++ toString number ++ " (" ++ e.doc ++ "): " ++ f.message] }
      | none => result
    let (s, results) := runAll dir (number + 1) s rest
    (s, result :: results)

/-- Runs the expectations in a file; their documents are named from its directory. -/
def runFile (s : Sources) (name : String) : Except ExpectationsError (List ExpectationResult) := do
  let text ← (s.folder.read name).mapError .file
  let es ← (listOfText text).mapError .unreadable
  match es.mapM id with
  | none => .error .emptyEntry
  | some es => return (runAll (FileName.directory name) 0 s es).2

end Expectation

end Sessions
