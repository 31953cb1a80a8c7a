import Sessions.Check.Exchange
import Sessions.Document.Source
import Sessions.Freshness.File
import Sessions.Schedule.Basic

/-!
# Sessions.Service.Settings

The settings of the checking service: where it listens, which programs it looks after and when,
where it keeps verdicts and whom it tells.
-/

namespace Sessions.Service

/-- The broker that verdicts are published to. -/
structure BrokerSettings where
  broker : String := ""
  clientId : String := ""
  username : String := ""
  password : String := ""
  topic : String := ""
  /-- The quality of service. -/
  quality : Int := 0
  /-- How long to wait for work to end on leaving, in milliseconds. -/
  quiesce : Int := 0
deriving DecidableEq, Repr, Inhabited

structure Settings where
  listen : String := ""
  /-- The file that verdicts are kept in; if empty, none are kept. -/
  database : String := ""
  /-- How many verdicts of a program are kept. -/
  maxHistory : Int := 0
  websockets : Bool := false
  /-- References of the programs to look after. -/
  programs : List String := []
  /-- When to check them all again; never if empty. -/
  schedule : String := ""
  /-- Whether to check a program again when its file changes. -/
  watch : Bool := false
  /-- What yields fresh values, if not the standard list. -/
  fresh : Option Freshness.AllowList := none
  broker : Option BrokerSettings := none
deriving DecidableEq, Repr, Inhabited

/-- What is wrong with settings. -/
inductive SettingsError where
  | file (e : FileError)
  | unreadable (e : Yaml.Error)
  | schedule (text : String) (e : Schedule.Error)
  | predicate (reason : String)
  | noBroker

def SettingsError.message : SettingsError → String
  | .file e => e.message
  | .unreadable e => e.message
  | .schedule text e => "bad schedule " ++ Text.quoted text ++ ": " ++ e.message
  | .predicate reason => reason
  | .noBroker => "mqtt needs a broker"

namespace BrokerSettings

open Yaml.Shape in
def field (b : BrokerSettings) (key : String) (n : Yaml.Node) : Except Yaml.Error BrokerSettings := do
  match key with
  | "broker" => return { b with broker := ← text n }
  | "clientId" => return { b with clientId := ← text n }
  | "username" => return { b with username := ← text n }
  | "password" => return { b with password := ← text n }
  | "topic" => return { b with topic := ← text n }
  | "qos" => return { b with quality := ← natural 255 n }
  | "quiesce" => return { b with quiesce := ← natural (Int.pow 2 64 - 1) n }
  | _ => return b

/-- The settings with the topic and the waiting time that hold if none are given. -/
def completed (b : BrokerSettings) : BrokerSettings :=
  { b with
    topic := if b.topic = "" then "corrcheck/verdicts" else b.topic
    quiesce := if b.quiesce = 0 then 100 else b.quiesce }

def toDatum (b : BrokerSettings) : Datum :=
  .map ([("broker", .text b.broker)] ++ Entries.ofText "clientId" b.clientId ++
    Entries.ofText "username" b.username ++ Entries.ofText "password" b.password ++
    [("topic", .text b.topic)] ++ Entries.ofInt "qos" b.quality ++ Entries.ofInt "quiesce" b.quiesce)

end BrokerSettings

namespace Settings

/-- The settings of a service that was told nothing. -/
def default : Settings :=
  { listen := ":8080", maxHistory := 100 }

open Yaml.Shape in
def field (s : Settings) (key : String) (n : Yaml.Node) : Except Yaml.Error Settings := do
  match key with
  | "listen" => return { s with listen := ← text n }
  | "db" => return { s with database := ← text n }
  | "maxHistory" => return { s with maxHistory := ← int n }
  | "websockets" => return { s with websockets := ← bool n }
  | "programs" => return { s with programs := (← list? text n).getD [] }
  | "schedule" => return { s with schedule := ← text n }
  | "watch" => return { s with watch := ← bool n }
  | "fresh" =>
    return { s with fresh := ← optional (record {} Freshness.AllowList.field (s.fresh.getD {})) n }
  | "mqtt" =>
    return { s with broker := ← optional (record {} BrokerSettings.field (s.broker.getD {})) n }
  | _ => return s

/-- Checks settings that were read, and completes them. -/
def validate (s : Settings) : Except SettingsError Settings := do
  if s.schedule ≠ "" then
    match Schedule.parse s.schedule with
    | .error e => throw (.schedule s.schedule e)
    | .ok _ => pure ()
  match s.fresh.bind (·.compileError?) with
  | some reason => throw (.predicate reason)
  | none => pure ()
  match s.broker with
  | none => return s
  | some b => if b.broker = "" then throw .noBroker else return { s with broker := some b.completed }

/-- Reads settings from their text; what the text does not mention is as in `default`. -/
def ofText (text : String) : Except SettingsError Settings :=
  match Yaml.Shape.document default (Yaml.Shape.record {} field default) text with
  | .error e => .error (.unreadable e)
  | .ok s => s.validate

/-- Reads settings from a file. -/
def ofFile (f : Folder) (name : String) : Except SettingsError Settings :=
  match f.read name with
  | .error e => .error (.file e)
  | .ok text => ofText text

/-- The schedule of the settings, if they have one. -/
def schedule? (s : Settings) : Option Schedule :=
  if s.schedule = "" then none else (Schedule.parse s.schedule).toOption

/-- A switch, left out when off. -/
def ofSwitch (key : String) (b : Bool) : Entries :=
  if b then [(key, .bool true)] else []

/-- The settings as a value: what is empty is left out. -/
def toDatum (s : Settings) : Datum :=
  .map ([("listen", .text s.listen)] ++ Entries.ofText "db" s.database ++
    Entries.ofInt "maxHistory" s.maxHistory ++ ofSwitch "websockets" s.websockets ++
    Entries.ofTexts "programs" s.programs ++ Entries.ofText "schedule" s.schedule ++
    ofSwitch "watch" s.watch ++
    (match s.fresh with | some a => [("fresh", a.toDatum)] | none => []) ++
    (match s.broker with | some b => [("mqtt", b.toDatum)] | none => []))

end Settings

/-- The full name of the file that a reference refers to, seen from the working directory; none for
an address of another kind. -/
def localFile? (workingDirectory reference : String) : Option String :=
  let absolute (name : String) : String :=
    if FileName.isAbsolute name then FileName.clean name else FileName.join workingDirectory name
  if reference.startsWith "file://" then some (absolute (Reference.after "file://" reference))
  else if (reference.splitOn "://").length ≠ 1 then none
  else some (absolute reference)

end Sessions.Service
