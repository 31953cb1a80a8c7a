import Sessions.Datum
import Sessions.Files.Name
import Sessions.Text.Blank
import Sessions.Text.Bytes
import Sessions.Text.Lower
import Sessions.Web.Multipart

/-!
# Sessions.Service.Request

Requests to the service and its answers. The fields of a request come from the part of its target
after the question mark and, if its body is a form, from the body too: those of an encoded form come
first, and those of a form in parts last. A body that is read for its fields is used up.
-/

namespace Sessions.Service

structure Request where
  method : String := "GET"
  target : String
  /-- The body, or why it could not be read. -/
  body : Except String String := .ok ""
  contentType : String := ""
  /-- The fields of a body in parts with a boundary, and what is left of it. How much of a body is
  read for its parts depends on how it arrives; if nothing else is said, all of it is. -/
  readParts : (boundary text : String) → List (String × String) × String := fun boundary text =>
    ((Web.Multipart.fields? boundary text).getD [], "")

inductive Body where
  | json (d : Datum)
  | text (s : String)

structure Response where
  status : Nat := 200
  contentType : String
  body : Body

namespace Response

/-- An answer that is a value. -/
def value (status : Nat) (d : Datum) : Response :=
  { status, contentType := "application/json", body := .json d }

/-- An answer that says what went wrong. -/
def failure (status : Nat) (reason : String) : Response :=
  value status (.map [("error", .text reason)])

def plain (status : Nat) (text : String) : Response :=
  { status, contentType := "text/plain; charset=utf-8", body := .text text }

def page (text : String) : Response :=
  { contentType := "text/html; charset=utf-8", body := .text text }

def notFound : Response :=
  plain 404 "404 page not found\n"

end Response

/-- A text of a form without its escapes, if they are all good. -/
def unescapeField? (cs : List Char) : Option String :=
  let spaced := cs.map fun c => if c = '+' then ' ' else c
  match Web.badEscape? .path spaced with
  | some _ => none
  | none => some (Text.ofBytes (Web.unescapedBytes spaced))

/-- One field of a form; one that can not be read is left out. -/
def formField? (text : String) : Option (String × String) :=
  if text = "" || text.contains ';' then none
  else do
    let (key, value) := Web.cut '=' text.toList
    let key ← unescapeField? key
    let value ← unescapeField? (value.getD [])
    return (key, value)

/-- The fields of a form in order. -/
def formFields (text : String) : List (String × String) :=
  (text.splitOn "&").filterMap formField?

/-- A form that is sent as a body. -/
inductive Form where
  | encoded
  | parts (boundary : String)
deriving DecidableEq, Repr

/-- The bytes of an encoded form that are read at most. -/
def encodedLimit : Nat := 10 * Nat.pow 2 20

/-- The fields of an encoded form; one that is too long has none. -/
def encodedFields (text : String) : List (String × String) :=
  if (Text.bytes text).length ≤ encodedLimit then formFields text else []

/-- What is left of an encoded form: nothing, unless it is too long. -/
def encodedRest (text : String) : String :=
  Text.ofBytes ((Text.bytes text).drop (encodedLimit + 1))

namespace Request

/-- The target without the site, if it is named. -/
def localTarget (r : Request) : List Char :=
  let cs := (Web.cut '#' r.target.toList).1
  if r.target.startsWith "http://" then (cs.drop 7).dropWhile (· ≠ '/')
  else if r.target.startsWith "https://" then (cs.drop 8).dropWhile (· ≠ '/')
  else cs

/-- The path of the target. -/
def path (r : Request) : String :=
  Text.ofBytes (Web.unescapedBytes (Web.cut '?' r.localTarget).1)

/-- What stands in the target after the question mark. -/
def query (r : Request) : String :=
  String.ofList ((Web.cut '?' r.localTarget).2.getD [])

/-- The form that the body is, by its media type. -/
def form? (r : Request) : Option Form := do
  let m ← Web.MediaType.parse? r.contentType
  if m.name = "application/x-www-form-urlencoded" && ["POST", "PUT", "PATCH"].contains r.method then
    return .encoded
  else if m.name = "multipart/form-data" then
    let boundary ← m.get? "boundary"
    if boundary = "" then none else return .parts boundary
  else none

/-- The fields of the request. -/
def fields (r : Request) : List (String × String) :=
  match r.form?, r.body with
  | some .encoded, .ok text => encodedFields text ++ formFields r.query
  | some (.parts boundary), .ok text => formFields r.query ++ (r.readParts boundary text).1
  | _, _ => formFields r.query

/-- A field of the request, empty if it has none. -/
def field (r : Request) (name : String) : String :=
  (r.fields.lookup name).getD ""

/-- What is left of the body once the fields are read. -/
def document (r : Request) : Except String String :=
  match r.form?, r.body with
  | some .encoded, .ok text => .ok (encodedRest text)
  | some (.parts boundary), .ok text => .ok (r.readParts boundary text).2
  | _, body => body

/-- The path in its clean form, which keeps a slash at the end. -/
def cleanPath (r : Request) : String :=
  let rooted := if r.path.startsWith "/" then r.path else "/" ++ r.path
  let clean := FileName.clean rooted
  if rooted.endsWith "/" && clean ≠ "/" then clean ++ "/" else clean

end Request

end Sessions.Service
