import Sessions.Command.Run

/-!
# Sessions.Command.Names

Which files a run of the tool may read and write, found from its arguments. With these at hand the
run itself needs no access to files.
-/

namespace Sessions.Command

/-- The file that a reference refers to. -/
def fileOf (reference : String) : List String :=
  match Reference.parse reference with
  | .file "" => []
  | .file name => [name]
  | .page _ => []

/-- The values of flags that the arguments of a subcommand give. -/
def valuesOf (c : Subcommand) (arguments : List String) (names : List String) : List String :=
  match parseFlags c.flags {} arguments with
  | .error _ => []
  | .ok v => names.map (v.text c.flags)

/-- The files that are read because the arguments name them. -/
def filesRead (arguments : List String) : List String :=
  match arguments with
  | ["expect", file] => [file]
  | name :: rest =>
    match Subcommand.ofName? name with
    | some c => (valuesOf c rest ["d", "f"]).flatMap fileOf
    | none => []
  | [] => []

/-- The files that are read because a file of expectations names them. -/
def documentsNamed (file text : String) : List String :=
  match Expectation.listOfText text with
  | .error _ => []
  | .ok es => es.flatMap fun
    | some e => fileOf (Expectation.referenceFrom (FileName.directory file) e.document)
    | none => []

/-- The files that may be written. -/
def filesWritten (arguments : List String) : List String :=
  match arguments with
  | name :: rest =>
    match Subcommand.ofName? name with
    | some c =>
      ((valuesOf c rest ["o"]).filter (· ≠ "")).flatMap fun n => [n, n ++ ".dot", n ++ ".png"]
    | none => []
  | [] => []

/-- Whether the run reads its input. -/
def readsInput (arguments : List String) : Bool :=
  match arguments with
  | "yamltojson" :: _ => true
  | name :: rest =>
    match Subcommand.ofName? name with
    | some c => (valuesOf c rest ["d"]).all (· = "")
    | none => false
  | [] => false

end Sessions.Command
