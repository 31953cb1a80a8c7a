import Sessions.Page.Report
import Sessions.Service.Basic
import Sessions.Service.Request
import Sessions.Text.Markup

/-!
# Sessions.Service.Handler

How the service answers requests. A reaction tells the answer together with all that the request
changed: the service afterwards, the records announced, and the references fetched.
-/

namespace Sessions.Service

open Time

structure Reaction where
  service : Service
  response : Response
  announced : List History.Record := []
  /-- The references that were fetched. -/
  fetched : List String := []

/-- The reaction to a request that only asks. -/
def quiet (s : Service) (response : Response) : Reaction :=
  { service := s, response }

/-- The reaction to a request for a check, after it was tried. -/
def conclude (fetched : List String) : Service × Except CheckError Verdict → Reaction
  | (s, .ok v) => { service := s, response := .value 200 v.toDatum, announced := [v.record], fetched }
  | (s, .error e) => { service := s, response := .failure 400 e.message, fetched }

/-- Checks the document in the body, under the name that the request gives it. -/
def onCheck (s : Service) (r : Request) (now : Instant) : Reaction :=
  if r.method ≠ "POST" then s.quiet (.failure 405 "POST only")
  else
    let program := if r.field "program" = "" then "posted" else r.field "program"
    match r.document with
    | .error e => s.quiet (.failure 400 ("ReadAll error " ++ e))
    | .ok text => conclude [] (s.check program text now)

def unknownProgram (reference : String) : Response :=
  .failure 404 ("unknown program " ++ Text.quoted reference)

/-- Fetches and checks a program that the service looks after. -/
def onRecheck (s : Service) (r : Request) (now : Instant) : Reaction :=
  let reference := r.field "program"
  if r.method ≠ "POST" then s.quiet (.failure 405 "POST only")
  else if !s.isConfigured reference then s.quiet (unknownProgram reference)
  else conclude [reference] (s.recheck reference now)

/-- A list as a value; an empty one is null. -/
def listOrNull (ds : List Datum) : Datum :=
  if ds.isEmpty then .null else .list ds

def onHistory (s : Service) (r : Request) : Reaction :=
  match (s.store.history (r.field "program")).answer with
  | .ok records => s.quiet (.value 200 (listOrNull (records.map (·.toDatum))))
  | .error e => s.quiet (.failure 500 ("GetHistory error " ++ e.message))

def onPrograms (s : Service) : Reaction :=
  match s.store.programs.answer with
  | .ok names => s.quiet (.value 200 (listOrNull (names.map .text)))
  | .error e => s.quiet (.failure 500 ("Programs error " ++ e.message))

/-- Writes a page about a program that the service looks after. -/
def onReport (s : Service) (r : Request) : Reaction :=
  let reference := r.field "program"
  if !s.isConfigured reference then s.quiet (unknownProgram reference)
  else
    let (sources, loaded) := s.sources.load reference
    let response := match loaded with
      | .error e => Response.failure 400 e.message
      | .ok d => .page (Page.page d (s.settings.checker d).check Page.defaultStyles)
    { service := { s with sources }, response, fetched := [reference] }

/-- The answer to a request whose path is not clean. -/
def moved (r : Request) : Response :=
  let target := Web.sentPath r.cleanPath ++ (if r.query = "" then "" else "?" ++ r.query)
  if r.method = "GET" then
    { status := 301, contentType := "text/html; charset=utf-8"
      body := .text ("<a href=\"" ++ Text.escapeAttribute target ++ "\">Moved Permanently</a>.\n\n") }
  else if r.method = "HEAD" then
    { status := 301, contentType := "text/html; charset=utf-8", body := .text "" }
  else { status := 301, contentType := "", body := .text "" }

/-- Answers a request. -/
def answer (s : Service) (r : Request) (now : Instant) : Reaction :=
  if r.cleanPath ≠ r.path then s.quiet (moved r)
  else
    match r.path with
    | "/ping" => s.quiet (.plain 200 "\"pong\"\n")
    | "/check" => s.onCheck r now
    | "/recheck" => s.onRecheck r now
    | "/history" => s.onHistory r
    | "/programs" => s.onPrograms
    | "/report" => s.onReport r
    | "/ws" =>
      if s.settings.websockets then s.quiet (.plain 400 "Bad Request\n") else s.quiet .notFound
    | _ => s.quiet .notFound

end Sessions.Service
