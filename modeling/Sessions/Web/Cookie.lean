import Sessions.Text.Blank
import Sessions.Text.Bytes
import Sessions.Text.Lower
import Sessions.Time.Instant
import Sessions.Web.Address

/-!
# Sessions.Web.Cookie

Cookies that sites set and get back. A jar keeps them in the order in which they came; those with
the longer path are sent first. A site takes a cookie away by giving it an age or a date that is
over; a jar has no clock, so a date is over if it lies before a fixed one (`present`).
-/

namespace Sessions.Web

structure Cookie where
  name : String
  value : String
  host : String
  /-- Whether only the host itself gets it back, and not the hosts below it. -/
  hostOnly : Bool
  path : String
  secure : Bool
deriving DecidableEq, Repr

/-- Cookies in the order in which they came. -/
abbrev Jar := List Cookie

/-- What a site asks to keep. -/
structure CookieRequest where
  name : String
  value : String
  domain : String := ""
  path : String := ""
  secure : Bool := false
  /-- Whether the age that the site gives, if it does, is over. -/
  agedOut : Option Bool := none
  /-- Whether the date that the site gives is over. -/
  outdated : Bool := false
deriving DecidableEq, Repr

/-- Whether a character may stand in the name of a cookie or of a header. -/
def isTokenChar (c : Char) : Bool :=
  c.isAlphanum || "!#$%&'*+-.^_|~".contains c || c = Char.ofNat 0x60

def isValueChar (c : Char) : Bool :=
  0x20 ≤ c.toNat && c.toNat < 0x7f && c ≠ '"' && c ≠ ';' && c ≠ '\\'

/-- A value without the quotes around it. -/
def unquoted (s : String) : String :=
  match s.toList with
  | '"' :: rest =>
    match rest.reverse with
    | '"' :: inner => String.ofList inner.reverse
    | _ => s
  | _ => s

/-- Splits a text at its first equals sign. -/
def assignment (part : String) : String × String :=
  let (name, value) := cut '=' (Text.trim part).toList
  (String.ofList name, String.ofList (value.getD []))

/-- Whether a maximal age is over, if it is a number. A number above zero has no zero in front. -/
def agedOut? (age : String) : Option Bool :=
  let (negative, digits) := match age.toList with
    | '-' :: rest => (true, rest)
    | '+' :: rest => (false, rest)
    | cs => (false, cs)
  let n := digits.foldl (fun n d => 10 * n + (d.toNat - '0'.toNat)) 0
  if digits.isEmpty || !digits.all Char.isDigit || Nat.pow 2 63 ≤ n then none
  else if n ≠ 0 && age.toList.head? == some '0' then none
  else some (negative || n = 0)

/-- The date before which dates are over. -/
def present : Time.Date := ⟨2025, 6, 1⟩

/-- The short names of the months. -/
def monthNames : List String :=
  ["jan", "feb", "mar", "apr", "may", "jun", "jul", "aug", "sep", "oct", "nov", "dec"]

/-- The day of a date such as `Thu, 01 Jan 1970 00:00:00 GMT`; hyphens may stand around the month. -/
def dateOf? (text : String) : Option Time.Date := do
  let cs := text.toList
  let isDayName := ["sun", "mon", "tue", "wed", "thu", "fri", "sat"].contains
    (Text.lower (String.ofList (cs.take 3)))
  if !isDayName then none
  let cs ← Time.Instant.expect? ',' (cs.drop 3)
  let cs ← Time.Instant.expect? ' ' cs
  let (day, cs) ← Time.Instant.digits? 2 cs
  let separator ← cs.head?
  if separator ≠ ' ' && separator ≠ '-' then none
  let month ← monthNames.idxOf? (Text.lower (String.ofList (cs.tail.take 3)))
  let cs ← Time.Instant.expect? separator (cs.drop 4)
  let (year, cs) ← Time.Instant.digits? 4 cs
  let cs ← Time.Instant.expect? ' ' cs
  let (_, cs) ← Time.Instant.clock? cs
  let zone ← Time.Instant.expect? ' ' cs
  let d : Time.Date := ⟨year, month + 1, day⟩
  if d.isValid && 3 ≤ zone.length && zone.length ≤ 4 && zone.all Char.isUpper then some d else none

/-- Whether a date is over; a text that is no date never is. -/
def isOver (date : String) : Bool :=
  match dateOf? date with
  | some d => d.toDays < present.toDays
  | none => false

/-- One attribute of what a site asks; one with characters that may not stand there is passed
over. -/
def CookieRequest.attribute (r : CookieRequest) (part : String) : CookieRequest :=
  let (name, value) := assignment part
  if !value.toList.all isValueChar then r
  else
    match Text.lower name with
    | "domain" => { r with domain := value }
    | "path" => { r with path := value }
    | "secure" => { r with secure := true }
    | "max-age" => { r with agedOut := (agedOut? value).or r.agedOut }
    | "expires" => { r with outdated := isOver value }
    | _ => r

/-- Whether the cookie is to be taken away. An age counts more than a date. -/
def CookieRequest.dropped (r : CookieRequest) : Bool :=
  r.agedOut.getD r.outdated

/-- Reads what a site asks to keep. -/
def CookieRequest.parse? (header : String) : Option CookieRequest :=
  match header.splitOn ";" with
  | [] => none
  | first :: attributes =>
    let first := Text.trim first
    let (name, value) := assignment first
    let name := Text.trim name
    let value := unquoted value
    if name = "" || !first.contains '=' || !name.toList.all isTokenChar ||
        !value.toList.all isValueChar then none
    else some (attributes.foldl CookieRequest.attribute { name, value })

/-- The host of an address without its port, and without a dot at the end. -/
def Address.bareHost (a : Address) : String :=
  let cs := a.host.toList.takeWhile (· ≠ ':')
  Text.lower (String.ofList (if cs.getLast? == some '.' then cs.dropLast else cs))

/-- The path of an address with its escapes undone. -/
def Address.plainPath (a : Address) : String :=
  Text.ofBytes (unescapedBytes a.path.toList)

/-- The path under which a cookie is kept when none is asked for: that of the directory. -/
def defaultPath (path : String) : String :=
  let kept := (path.toList.reverse.dropWhile (· ≠ '/')).drop 1
  if kept.isEmpty then "/" else String.ofList kept.reverse

/-- Whether a host is given by its four numbers. -/
def isNumericHost (host : String) : Bool :=
  let parts := host.splitOn "."
  parts.length == 4 && parts.all fun p =>
    !p.isEmpty && p.length ≤ 3 && p.toList.all Char.isDigit && p.toNat?.getD 256 < 256

/-- Whether a text ends with a dot and another text. -/
def endsBelow (text domain : String) : Bool :=
  ("." ++ domain).toList.isSuffixOf text.toList && domain.length + 1 < text.length

/-- The host a cookie is kept for, if the address may ask for it, and whether only that host gets it.
A domain of one word is nobody's but the host's own. -/
def CookieRequest.host? (r : CookieRequest) (a : Address) : Option (String × Bool) :=
  let host := a.bareHost
  if r.domain = "" then some (host, true)
  else if isNumericHost host then (if host = r.domain then some (host, true) else none)
  else
    let domain := Text.lower
      (if r.domain.startsWith "." then String.ofList r.domain.toList.tail else r.domain)
    if domain = "" || domain.startsWith "." || domain.endsWith "." then none
    else if !domain.contains '.' then (if host = domain then some (host, true) else none)
    else if host = domain || endsBelow host domain then some (domain, false)
    else none

namespace Jar

/-- Keeps what the site of an address asks to keep. -/
def set (jar : Jar) (a : Address) (header : String) : Jar :=
  match CookieRequest.parse? header with
  | none => jar
  | some r =>
    match r.host? a with
    | none => jar
    | some (host, hostOnly) =>
      let path := if r.path.startsWith "/" then r.path else defaultPath a.plainPath
      let same (c : Cookie) : Bool := c.name = r.name && c.host = host && c.path = path
      let new : Cookie := ⟨r.name, r.value, host, hostOnly, path, r.secure⟩
      if r.dropped then jar.filter fun c => !same c
      else if jar.any same then jar.map fun c => if same c then new else c
      else jar ++ [new]

/-- Whether a cookie goes to an address. -/
def goesTo (a : Address) (c : Cookie) : Bool :=
  let host := a.bareHost
  let path := if a.path = "" then "/" else a.plainPath
  (c.host = host || (!c.hostOnly && endsBelow host c.host)) &&
    (path = c.path || (path.startsWith c.path &&
      (c.path.endsWith "/" || (path.toList.drop c.path.length).head? == some '/'))) &&
    (!c.secure || a.secure)

/-- The cookies that go to an address, as they are sent. -/
def header (jar : Jar) (a : Address) : String :=
  let quoted (v : String) : String :=
    if v.contains ' ' || v.contains ',' then "\"" ++ v ++ "\"" else v
  let sent := (jar.filter (goesTo a)).mergeSort fun c d => d.path.utf8ByteSize ≤ c.path.utf8ByteSize
  "; ".intercalate (sent.map fun c => c.name ++ "=" ++ quoted c.value)

end Jar

end Sessions.Web
