import Sessions.Document.Text
import Sessions.Files.Folder
import Sessions.Web.Cookie

/-!
# Sessions.Document.Source

Where documents come from. A reference is the name of a file, plain or after `file://`, or an
address on the web. What the web answers is a parameter, so that fetching is a function of it; the
cookies that sites set on the way are kept from one request to the next.
-/

namespace Sessions

namespace Web

/-- What the web answers to a request: nothing at all, or a status and a body, of which it may
fail to send the rest. -/
inductive Reply where
  | broken (reason : String)
  | answer (status : Int) (setCookie : String) (body : Except String String)

end Web

/-- What the web answers to an address and the cookies sent along. -/
abbrev Web := (address cookies : String) → Web.Reply

/-- The web without a site: every request is answered by "not found". -/
def Web.empty : Web := fun _ _ => .answer 404 "" (.ok "")

/-- Why a document could not be had. -/
inductive FetchCause where
  | status (code : Int)
  | file (e : FileError)
  | address (e : Web.AddressError)
  | broken (page reason : String)
  | cut (reason : String)

structure FetchError where
  reference : String
  cause : FetchCause

def FetchCause.message : FetchCause → String
  | .status code => "status " ++ toString code
  | .file e => e.message
  | .address e => e.message
  | .broken page reason => "Get " ++ Text.quoted page ++ ": " ++ reason
  | .cut reason => reason

def FetchError.message (e : FetchError) : String :=
  "couldn't fetch " ++ e.reference ++ ": " ++ e.cause.message

/-- The status of an answer that was not the wanted one; zero if there was another cause. -/
def FetchError.status (e : FetchError) : Int :=
  match e.cause with
  | .status code => code
  | _ => 0

/-- What a reference refers to. -/
inductive Reference where
  | file (name : String)
  | page (address : String)
deriving DecidableEq, Repr

/-- The text after what it starts with. -/
def Reference.after (start text : String) : String :=
  String.ofList (text.toList.drop start.length)

def Reference.parse (text : String) : Reference :=
  if text.startsWith "http://" || text.startsWith "https://" then .page text
  else if text.startsWith "file://" then .file (Reference.after "file://" text)
  else .file text

/-- What is noted when a reference is followed. -/
def Reference.remark : Reference → String
  | .file name => "reading " ++ name
  | .page address => "getting " ++ address

/-- The files and sites that documents come from, with the cookies kept so far. -/
structure Sources where
  folder : Folder := {}
  web : Web := Web.empty
  jar : Web.Jar := []

namespace Sources

/-- Gets a page. -/
def get (s : Sources) (text : String) : Sources × Except FetchError String :=
  let refuse (cause : FetchCause) : Except FetchError String := .error ⟨text, cause⟩
  match Web.Address.parse text with
  | .error e => (s, refuse (.address e))
  | .ok a =>
    match s.web a.render (s.jar.header a) with
    | .broken reason => (s, refuse (.broken a.masked.render reason))
    | .answer status setCookie body =>
      let s := { s with jar := if setCookie = "" then s.jar else s.jar.set a setCookie }
      if status ≠ 200 then (s, refuse (.status status))
      else
        match body with
        | .ok text => (s, .ok text)
        | .error reason => (s, refuse (.cut reason))

/-- Fetches the text at a reference. -/
def fetch (s : Sources) (reference : String) : Sources × Except FetchError String :=
  match Reference.parse reference with
  | .page address => s.get address
  | .file name =>
    match s.folder.read name with
    | .ok text => (s, .ok text)
    | .error e => (s, .error ⟨name, .file e⟩)

end Sources

/-- Why a document could not be loaded. -/
inductive LoadError where
  | fetch (e : FetchError)
  | document (e : Document.Error)

def LoadError.message : LoadError → String
  | .fetch e => e.message
  | .document e => e.message

namespace Sources

/-- Fetches a document and reads it. -/
def load (s : Sources) (reference : String) : Sources × Except LoadError Document :=
  match s.fetch reference with
  | (s, .error e) => (s, .error (.fetch e))
  | (s, .ok text) =>
    match Document.ofText reference text with
    | .ok d => (s, .ok d)
    | .error e => (s, .error (.document e))

end Sources

end Sessions
