import Sessions.Service.Basic
import Sessions.Service.Endpoint

/-!
# Sessions.Service.Start

Starting the service: its database is opened, then its broker is called.
-/

namespace Sessions.Service

/-- Why the service could not start. -/
inductive StartError where
  | database (e : FileError)
  | invalidDatabase
  | broker (reason : String)

def StartError.message : StartError → String
  | .database e => e.message
  | .invalidDatabase => "invalid database"
  | .broker reason => reason

/-- Opens the database of the settings, which is new if its file is empty or does not exist. -/
def openStore (s : Settings) (folder : Folder) : Except StartError History.Store :=
  if s.database = "" then .ok .nowhere
  else
    match folder.read s.database with
    | .ok "" => .ok (.database true { limit := s.maxHistory })
    | .ok _ => .error .invalidDatabase
    | .error ⟨.reading, name, cause⟩ => .error (.database ⟨.opening, name, cause⟩)
    | .error e =>
      match folder.write s.database "" with
      | .ok _ => .ok (.database true { limit := s.maxHistory })
      | .error _ => .error (.database e)

/-- Starts the service. No broker can be reached from here, so settings with one do not start. -/
def start (s : Settings) (sources : Sources) : Except StartError Service := do
  let store ← openStore s sources.folder
  match s.broker with
  | some b => .error (.broker (brokerMessage b.broker))
  | none => return { settings := s, store, sources }

end Sessions.Service
