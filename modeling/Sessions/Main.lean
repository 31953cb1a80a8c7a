import Sessions.Command.Names

/-!
# Sessions.Main

The command line tool. It reads the files that the arguments name, runs, and writes what came of it.
It has neither a network nor a drawing tool.
-/

namespace Sessions.Tool

/-- Reads all of a stream. -/
partial def readAll (input : IO.FS.Stream) (soFar : String) : IO String := do
  let line ← input.getLine
  if line.isEmpty then return soFar
  readAll input (soFar ++ line)

/-- Adds a file to a folder, if it can be read. -/
def addFile (folder : Folder) (name : String) : IO Folder := do
  try
    let content ← IO.FS.readFile name
    return folder.put (FileName.clean name) content
  catch _ => return folder

/-- Every request fails: there is no network. -/
def noWeb : Web := fun _ _ => .broken "no network"

/-- There is no drawing tool. -/
def noDrawing : Command.DrawingTool := fun _ => (127, "")

/-- The files at hand for a run. -/
def gather (arguments : List String) : IO Folder := do
  let folder ← (Command.filesRead arguments).foldlM addFile {}
  let folder ← match arguments with
    | ["expect", file] =>
      match folder.read file with
      | .ok text => (Command.documentsNamed file text).foldlM addFile folder
      | .error _ => pure folder
    | _ => pure folder
  let outputs := Command.filesWritten arguments
  return { folder with directories := outputs.map FileName.directory ++ folder.directories }

/-- Writes the files that a run created or changed. -/
def save (before after : Folder) : IO Unit := do
  for file in after.files do
    if !before.files.contains file then IO.FS.writeFile file.1 file.2

end Sessions.Tool

open Sessions in
/-- Runs the tool. -/
def main (arguments : List String) : IO UInt32 := do
  let folder ← Tool.gather arguments
  let input ← if Command.readsInput arguments then Tool.readAll (← IO.getStdin) "" else pure ""
  let outcome := Command.run
    { arguments, input, sources := { folder, web := Tool.noWeb }, tool := Tool.noDrawing }
  (← IO.getStdout).putStr outcome.out
  (← IO.getStderr).putStr outcome.err
  Tool.save folder outcome.folder
  return outcome.status.toUInt32
