import Sessions.Service.Basic

/-!
# Sessions.Service.Watch

Watching the files of programs. A program is checked again when its file is written; of two
references to one file the later counts.
-/

namespace Sessions.Service

open Time

/-- A change in the working directory. -/
inductive Change where
  | write (file content : String)
  | remove (file : String)
deriving DecidableEq, Repr

def Change.file : Change → String
  | .write file _ => file
  | .remove file => file

/-- Makes a change. -/
def Change.apply (f : Folder) : Change → Folder
  | .write file content => f.put (FileName.clean file) content
  | .remove file => f.erase (FileName.clean file)

/-- The name of a file below the working directory, which the texts of this module call by a point
before the first slash. -/
def here : String := "."

/-- The watched files with their references; each file stands once, with its last reference. -/
def watched (s : Service) : List (String × String) :=
  s.settings.programs.foldl (fun files reference =>
    match localFile? here reference with
    | some file => files.filter (·.1 != file) ++ [(file, reference)]
    | none => files) []

/-- Why a directory can not be watched, if it can not. -/
def directoryFault? (f : Folder) (dir : String) : Option FileCause :=
  match f.walk dir with
  | .error cause => some cause
  | .ok place => if (f.entry? place).isSome then none else some .absent

/-- Why the files of the programs can not be watched, if they can not. -/
def watchFault? (s : Service) : Option FileCause :=
  (s.settings.programs.filterMap (localFile? here)).findSome? fun file =>
    directoryFault? s.sources.folder (FileName.directory file)

/-- What is noted when the watch starts. -/
def watchLine (s : Service) : String :=
  "watching " ++ toString s.watched.length ++ " programs"

/-- Makes a change and checks the program whose file was written. -/
def Round.change (now : Instant) (r : Round) (c : Change) : Round :=
  let folder := c.apply r.service.sources.folder
  let s : Service := { r.service with sources := { r.service.sources with folder } }
  match c, (localFile? here c.file).bind (s.watched.lookup ·) with
  | .write _ _, some reference =>
    let (service, result) := s.recheck reference now
    { service
      announced := r.announced ++ Service.announced result
      log := r.log ++ (match result with
        | .error e => ["recheck " ++ reference ++ ": " ++ e.message]
        | .ok _ => [])
      detail := r.detail ++ s.recheckLog reference }
  | _, _ => { r with service := s }

/-- Watches while changes are made one after the other. If a directory can not be watched, the watch
ends at once and nothing is done. -/
def watch (s : Service) (changes : List Change) (now : Instant) : Except FileCause Round :=
  match s.watchFault? with
  | some cause => .error cause
  | none =>
    .ok (changes.foldl (Round.change now) { service := s, log := [s.watchLine] })

end Sessions.Service
