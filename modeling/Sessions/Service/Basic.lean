import Sessions.History.Store
import Sessions.Service.Settings

/-!
# Sessions.Service.Basic

The service: it checks documents, keeps the verdicts and announces them. A document that can not be
read gets no verdict, and a verdict that can not be kept is not announced.
-/

namespace Sessions

/-- The service between two requests. -/
structure Service where
  settings : Service.Settings
  store : History.Store
  sources : Sources

namespace Service

open Time

/-- What a check yields: the record that is kept and the whole report. -/
structure Verdict where
  record : History.Record
  report : Check.Report
deriving Inhabited

def Verdict.toDatum (v : Verdict) : Datum :=
  .map [("record", v.record.toDatum), ("report", v.report.toDatum)]

/-- Why there is no verdict. -/
inductive CheckError where
  | fetch (e : FetchError)
  | document (e : Document.Error)
  | store (e : History.StoreError)

def CheckError.message : CheckError → String
  | .fetch e => e.message
  | .document e => e.message
  | .store e => e.message

/-- The check of a document under the settings. -/
def Settings.checker (s : Settings) (d : Document) : Check.Checker :=
  match s.fresh with
  | some a => { d.checker with fresh := Freshness.recogniser (some a) }
  | none => d.checker

/-- Whether a reference is one of the programs that the service looks after. Only those are
fetched. -/
def isConfigured (s : Service) (reference : String) : Bool :=
  s.settings.programs.contains reference

/-- Checks the text of a program and keeps the verdict. -/
def check (s : Service) (program text : String) (now : Instant) :
    Service × Except CheckError Verdict :=
  match Document.ofText program text with
  | .error e => (s, .error (.document e))
  | .ok d =>
    let report := (s.settings.checker d).check
    let record := History.Record.ofReport program (some text) report now
    match (s.store.write record).answer with
    | .error e => (s, .error (.store e))
    | .ok store => ({ s with store }, .ok ⟨record, report⟩)

/-- What the check of a text notes. -/
def checkLog (s : Service) (program text : String) : List String :=
  match Document.ofText program text with
  | .error _ => []
  | .ok d => (s.settings.checker d).log

/-- Fetches a program and checks it. -/
def recheck (s : Service) (reference : String) (now : Instant) :
    Service × Except CheckError Verdict :=
  match s.sources.fetch reference with
  | (sources, .error e) => ({ s with sources }, .error (.fetch e))
  | (sources, .ok text) => { s with sources }.check reference text now

/-- What the check of a fetched program notes. -/
def recheckLog (s : Service) (reference : String) : List String :=
  match s.sources.fetch reference with
  | (_, .error _) => []
  | (_, .ok text) => s.checkLog reference text

/-- The announcement of a verdict: the record, if there is one. -/
def announced : Except CheckError Verdict → List History.Record
  | .ok v => [v.record]
  | .error _ => []

/-- What came of checking several programs: the records announced, and what was noted, for readers
of the details only where `detail` is set. -/
structure Round where
  service : Service
  announced : List History.Record := []
  log : List String := []
  detail : List String := []

/-- What is noted about one program of a round. -/
def roundLine (reference : String) : Except CheckError Verdict → String
  | .ok v => "recheck " ++ reference ++ ": valid=" ++ (if v.record.valid then "true" else "false")
  | .error e => "recheck " ++ reference ++ ": " ++ e.message

/-- Checks one more program of a round. -/
def Round.step (now : Instant) (r : Round) (reference : String) : Round :=
  let detail := r.service.recheckLog reference
  let (service, result) := r.service.recheck reference now
  { service
    announced := r.announced ++ Service.announced result
    log := r.log ++ [roundLine reference result]
    detail := r.detail ++ detail }

/-- Fetches and checks all programs that the service looks after, in order. One that can not be
fetched or read is noted and passed over. -/
def recheckAll (s : Service) (now : Instant) : Round :=
  s.settings.programs.foldl (Round.step now) { service := s }

end Service

end Sessions
