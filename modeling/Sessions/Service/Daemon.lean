import Sessions.Command.Flag
import Sessions.Schedule.Next
import Sessions.Service.Start
import Sessions.Service.Watch

/-!
# Sessions.Service.Daemon

The service as a program of its own: it reads its settings, starts, checks all its programs, and
serves until it is interrupted or can not go on. What it notes is given without an order, since its
parts run side by side.
-/

namespace Sessions.Service.Daemon

open Time Command

def flags : List Flag :=
  [⟨"c", .text "checkd.yaml", "configuration filename"⟩, ⟨"v", .switch, "verbose logging"⟩]

structure Outcome where
  status : Nat
  log : List String
  store : History.Store := .nowhere

/-- The name that the program goes by. -/
def programName : String := "checkd"

/-- Runs the service that has started. -/
def serve (s : Service) (verbose interrupted : Bool) (now : Instant) : Outcome :=
  let round := s.recheckAll now
  let listenFault := (listenFault? s.settings.listen).map listenMessage
  let watchFault := if s.settings.watch then s.watchFault? else none
  let scheduleLog := match s.settings.schedule? with
    | some schedule =>
      match schedule.next now with
      | .never => ["schedule " ++ Text.quoted s.settings.schedule ++ " has no more times"]
      | _ => []
    | none => []
  let watchLog := if s.settings.watch && watchFault.isNone then [s.watchLine] else []
  let endLog := match listenFault, watchFault with
    | some reason, _ => ["checkd error " ++ reason]
    | none, some cause => ["checkd error " ++ cause.message]
    | none, none => if interrupted then ["interrupted"] else []
  { status := 0
    log := ["Service.Serve starting on " ++ s.settings.listen] ++ round.log ++
      (if verbose then round.detail else []) ++ scheduleLog ++ watchLog ++ endLog ++
      ["main terminating"]
    store := round.service.store }

/-- Runs the program with its arguments. -/
def run (arguments : List String) (sources : Sources) (interrupted : Bool) (now : Instant) :
    Outcome :=
  match parseFlags flags {} arguments with
  | .error e =>
    { status := if e = .help then 0 else 2, log := [e.report programName flags] }
  | .ok v =>
    match Settings.ofFile sources.folder (v.text flags "c") with
    | .error e => { status := 1, log := [e.message] }
    | .ok settings =>
      match start settings sources with
      | .error e => { status := 1, log := [e.message] }
      | .ok s => serve s (v.switch "v") interrupted now

end Sessions.Service.Daemon
