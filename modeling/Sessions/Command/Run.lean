import Sessions.Command.Subcommand
import Sessions.Expectation
import Sessions.Yaml.ToJson

/-!
# Sessions.Command.Run

The command line tool as a function: from its arguments, what it can read and the tools it has, to
what it writes and the status it ends with.
-/

namespace Sessions.Command

/-- What the tool is run with. -/
structure Setting where
  arguments : List String
  input : String := ""
  sources : Sources := {}
  tool : DrawingTool

/-- What the tool leaves behind. -/
structure Outcome where
  status : Nat := 0
  out : String := ""
  err : String := ""
  folder : Folder

/-- The outcome of a run that ends with an error. -/
def failed (s : Setting) (reason : String) : Outcome :=
  { status := 1, err := "error: " ++ reason ++ "\n", folder := s.sources.folder }

/-- The general usage: on the output what the subcommands do, and beside it their flags. -/
def usage (s : Setting) (before : String) : Outcome :=
  { status := 1
    out := before ++ "Subcommands:\n\n" ++
      String.join (Subcommand.all.map fun c => "  " ++ c.doc ++ "\n\n") ++
      "Usage of yamltojson:\n  -p    pretty-print\n\n" ++
      "Usage of expect: EXPECTATIONS_FILE\n\n" ++
      "Every other subcommand also takes -d REF (filename or URL) and -v.\n\n"
    err := String.join (Subcommand.all.map fun c => usageText c.name c.ownFlags)
    folder := s.sources.folder }

def runToJson (s : Setting) (pretty : Bool) : Outcome :=
  match Yaml.toJson pretty s.input with
  | .ok text => { out := text, folder := s.sources.folder }
  | .error e => failed s e.message

/-- Runs a file of expectations and lists which of them are met. -/
def runExpect (s : Setting) (file : String) : Outcome :=
  match Expectation.runFile s.sources file with
  | .error e => failed s e.message
  | .ok results =>
    let line (i : Nat) (r : ExpectationResult) : String :=
      match r.failure with
      | some f => toString i ++ " FAIL " ++ f.message ++ "\n"
      | none => toString i ++ " ok\n"
    { status := if results.any fun r => r.failure.isSome then 1 else 0
      out := String.join (results.mapIdx line)
      folder := s.sources.folder }

/-- The document that the flags name, or else the one on the input. -/
def readDocument (s : Setting) (reference : String) : Except LoadError Document :=
  if reference ≠ "" then (s.sources.load reference).2
  else (Document.ofText "stdin" s.input).mapError .document

/-- Runs a subcommand with its arguments. -/
def runSubcommand (s : Setting) (c : Subcommand) (arguments : List String) : Outcome :=
  match parseFlags c.flags {} arguments with
  | .error e =>
    let o := failed s e.message
    { o with err := e.report c.name c.flags ++ o.err }
  | .ok v =>
    match readDocument s (v.text c.flags "d") with
    | .error e => failed s e.message
    | .ok d =>
      let r := c.run s.tool s.sources.folder v d
      let log := if v.switch "v" then String.join (r.log.map (· ++ "\n")) else ""
      match r.failure with
      | none => { out := r.out, err := log, folder := r.folder }
      | some f =>
        { status := 1, out := r.out, err := log ++ "error: " ++ f.message ++ "\n",
          folder := r.folder }

/-- Runs the tool. -/
def run (s : Setting) : Outcome :=
  match s.arguments with
  | [] => usage s ""
  | ["yamltojson"] => runToJson s false
  | ["yamltojson", "-p"] => runToJson s true
  | "yamltojson" :: _ =>
    failed s ("unsupported args: [" ++ " ".intercalate s.arguments ++ "]")
  | ["expect", file] => runExpect s file
  | "expect" :: _ => failed s "expect needs one expectations file"
  | name :: rest =>
    match Subcommand.ofName? name with
    | some c => runSubcommand s c rest
    | none => usage s ("Unknown subcommand \"" ++ name ++ "\"\n")

end Sessions.Command
