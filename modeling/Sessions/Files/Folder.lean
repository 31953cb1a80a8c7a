import Sessions.Files.Name

/-!
# Sessions.Files.Folder

The files below the working directory, as a value. Reading a name walks through the directories
that are on its way, so a name that leads through a missing directory leads nowhere even if a
later part would lead back.
-/

namespace Sessions

/-- What was tried with a file. -/
inductive FileAction where
  | opening
  | reading
deriving DecidableEq, Repr

/-- Why it did not work. -/
inductive FileCause where
  | absent
  | directory
  | notDirectory
deriving DecidableEq, Repr

structure FileError where
  action : FileAction
  name : String
  cause : FileCause
deriving DecidableEq, Repr

def FileCause.message : FileCause → String
  | .absent => "no such file or directory"
  | .directory => "is a directory"
  | .notDirectory => "not a directory"

def FileError.message (e : FileError) : String :=
  (match e.action with | .opening => "open " | .reading => "read ") ++ e.name ++ ": " ++
    e.cause.message

/-- Files with their contents, under clean names. Directories exist as far as files are in them or
they were made. -/
structure Folder where
  files : List (String × String) := []
  directories : List String := []
deriving Repr, DecidableEq, Inhabited

inductive FolderEntry where
  | file (content : String)
  | directory
deriving DecidableEq, Repr

/-- A place that a name leads to, seen from the root or from the working directory. Places above the
working directory have parts that lead up. -/
structure Place where
  rooted : Bool
  parts : List String
deriving DecidableEq, Repr

namespace Place

/-- The name of the place. -/
def name (p : Place) : String :=
  (if p.rooted then "/" else "") ++ "/".intercalate p.parts

/-- Whether the place is the root, the working directory or above it. -/
def isTop (p : Place) : Bool :=
  p.parts.all (· == "..")

/-- The place one level up. -/
def parent (p : Place) : Place :=
  if p.isTop then (if p.rooted then p else { p with parts := p.parts ++ [".."] })
  else { p with parts := p.parts.dropLast }

/-- A place below. -/
def child (p : Place) (part : String) : Place :=
  { p with parts := p.parts ++ [part] }

end Place

namespace Folder

/-- Whether a place is a directory. -/
def isDirectory (f : Folder) (p : Place) : Bool :=
  p.isTop || f.directories.contains p.name ||
    (f.directories ++ f.files.map (·.1)).any fun name => name.startsWith (p.name ++ "/")

/-- What is at a place. -/
def entry? (f : Folder) (p : Place) : Option FolderEntry :=
  match f.files.lookup p.name with
  | some content => some (.file content)
  | none => if f.isDirectory p then some .directory else none

/-- One step of a walk. -/
def enter (f : Folder) (p : Place) (part : String) : Except FileCause Place :=
  match f.entry? p with
  | none => .error .absent
  | some (.file _) => .error .notDirectory
  | some .directory =>
    if part = "" || part = "." then .ok p
    else if part = ".." then .ok p.parent
    else .ok (p.child part)

/-- The place that a name leads to. -/
def walk (f : Folder) (name : String) : Except FileCause Place :=
  if name = "" then .error .absent
  else (FileName.parts name).foldlM f.enter ⟨FileName.isAbsolute name, []⟩

/-- The content of a file. -/
def read (f : Folder) (name : String) : Except FileError String :=
  match f.walk name with
  | .error cause => .error ⟨.opening, name, cause⟩
  | .ok place =>
    match f.entry? place with
    | none => .error ⟨.opening, name, .absent⟩
    | some .directory => .error ⟨.reading, name, .directory⟩
    | some (.file content) => .ok content

/-- Sets the content of a file in place, or adds the file at the end. -/
def put (f : Folder) (name content : String) : Folder :=
  if f.files.any (·.1 == name) then
    { f with files := f.files.map fun e => if e.1 == name then (name, content) else e }
  else { f with files := f.files ++ [(name, content)] }

/-- Takes a file away; its directory stays. -/
def erase (f : Folder) (name : String) : Folder :=
  { files := f.files.filter (·.1 != name),
    directories := FileName.directory name :: f.directories }

/-- Writes a file. Its directory has to exist. -/
def write (f : Folder) (name content : String) : Except FileError Folder :=
  match f.walk name with
  | .error cause => .error ⟨.opening, name, cause⟩
  | .ok p =>
    match f.entry? p with
    | some .directory => .error ⟨.opening, name, .directory⟩
    | some (.file _) => .ok (f.put p.name content)
    | none =>
      if f.isDirectory p.parent then .ok (f.put p.name content)
      else .error ⟨.opening, name, .absent⟩

/-- A folder with files, whose directories are made for them. -/
def ofFiles (files : List (String × String)) : Folder :=
  files.foldl (fun f e => f.put (FileName.clean e.1) e.2) {}

end Folder

end Sessions
