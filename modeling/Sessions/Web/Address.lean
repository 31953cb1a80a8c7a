import Sessions.Text.Bytes
import Sessions.Text.Quoted

/-!
# Sessions.Web.Address

Addresses on the web. `Address.parse` takes one apart and says what is wrong with it; `render`
writes it as it is sent, with the characters escaped that may not stand in an address.
-/

namespace Sessions.Web

/-- What is wrong with an address. -/
inductive AddressCause where
  | control
  | escape (text : String)
  | port (text : String)
  | bracket
  | hostCharacter (text : String)
  | userInfo
deriving DecidableEq, Repr

structure AddressError where
  address : String
  cause : AddressCause
deriving DecidableEq, Repr

def AddressCause.message : AddressCause → String
  | .control => "net/url: invalid control character in URL"
  | .escape t => "invalid URL escape " ++ Text.quoted t
  | .port t => "invalid port " ++ Text.quoted t ++ " after host"
  | .bracket => "missing ']' in host"
  | .hostCharacter t => "invalid character " ++ Text.quoted t ++ " in host name"
  | .userInfo => "net/url: invalid userinfo"

def AddressError.message (e : AddressError) : String :=
  "parse " ++ Text.quoted e.address ++ ": " ++ e.cause.message

/-- An address. The texts are as written, so escapes in them are still escapes. -/
structure Address where
  secure : Bool
  user : Option String
  host : String
  path : String
  query : Option String
  fragment : Option String
deriving DecidableEq, Repr

/-- The part of an address in which a character stands. -/
inductive Region where
  | user
  | host
  | path
  | fragment
deriving DecidableEq, Repr

/-- Whether a character stands in a region as it is. -/
def Region.allows (r : Region) (c : Char) : Bool :=
  c.isAlphanum || "-_.~$&+,:;=".contains c ||
    match r with
    | .user => false
    | .host => "!'()*[]<>\"".contains c
    | .path => "/@".contains c
    | .fragment => "/?@!()*".contains c

def isHex (c : Char) : Bool :=
  c.isDigit || ('a' ≤ c && c ≤ 'f') || ('A' ≤ c && c ≤ 'F')

/-- The first bad escape of a text. In a host only escapes of characters beyond ASCII and of the
percent sign are good. -/
def badEscape? (r : Region) : List Char → Option AddressCause
  | [] => none
  | '%' :: rest =>
    match rest with
    | a :: b :: _ =>
      let text := String.ofList ['%', a, b]
      if !(isHex a && isHex b) then some (.escape text)
      else if r == .host && '0' ≤ a && a ≤ '7' && text != "%25" then some (.escape text)
      else badEscape? r rest
    | _ => some (.escape (String.ofList ('%' :: rest)))
  | c :: rest =>
    if r == .host && c.toNat < 0x80 && !r.allows c then some (.hostCharacter (String.singleton c))
    else badEscape? r rest

/-- Whether a text is a port with its colon, or nothing. -/
def isPort : List Char → Bool
  | [] => true
  | c :: rest => c == ':' && rest.all Char.isDigit

/-- The text from the last colon on, if there is one. -/
def fromLastColon? (cs : List Char) : Option (List Char) :=
  if cs.contains ':' then some (':' :: (cs.reverse.takeWhile (· ≠ ':')).reverse) else none

/-- What is wrong with a host and its port. -/
def hostFault? (host : List Char) : Option AddressCause :=
  match host with
  | '[' :: _ =>
    if !host.contains ']' then some .bracket
    else
      let after := (host.reverse.takeWhile (· ≠ ']')).reverse
      if isPort after then badEscape? .host host else some (.port (String.ofList after))
  | _ =>
    match fromLastColon? host with
    | some port =>
      if isPort port then badEscape? .host host else some (.port (String.ofList port))
    | none => badEscape? .host host

/-- Splits a text at the first of a character. -/
def cut (c : Char) (cs : List Char) : List Char × Option (List Char) :=
  match cs.dropWhile (· ≠ c) with
  | [] => (cs, none)
  | _ :: rest => (cs.takeWhile (· ≠ c), some rest)

/-- A host without a colon that has no port after it. -/
def dropEmptyPort (host : List Char) : List Char :=
  match host.reverse with
  | ':' :: rest => rest.reverse
  | _ => host

/-- Takes an address apart that starts with `http://` or `https://`. -/
def Address.parse (text : String) : Except AddressError Address :=
  let (whole, fragment) := cut '#' text.toList
  let refuse (t : List Char) (c : AddressCause) : Except AddressError Address :=
    .error ⟨String.ofList t, c⟩
  if whole.any fun c => c.toNat < 0x20 || c.toNat = 0x7f then refuse whole .control
  else
    let secure := "https://".toList.isPrefixOf whole
    let rest := whole.drop (if secure then 8 else 7)
    let (before, query) := cut '?' rest
    let authority := before.takeWhile (· ≠ '/')
    let path := before.dropWhile (· ≠ '/')
    let host := (authority.reverse.takeWhile (· ≠ '@')).reverse
    let user := if authority.contains '@'
      then some (authority.take (authority.length - host.length - 1)) else none
    match hostFault? host with
    | some c => refuse whole c
    | none =>
      if (user.getD []).any fun c => !(Region.user.allows c || "!*'()%@".contains c) then
        refuse whole .userInfo
      else
        match badEscape? .user (user.getD []), badEscape? .path path,
            badEscape? .fragment (fragment.getD []) with
        | some c, _, _ => refuse whole c
        | none, some c, _ => refuse whole c
        | none, none, some c => refuse text.toList c
        | none, none, none =>
          .ok { secure, user := user.map String.ofList, host := String.ofList (dropEmptyPort host),
                path := String.ofList path, query := query.map String.ofList,
                fragment := fragment.map String.ofList }

/-- A byte as an escape. -/
def percent (b : UInt8) : List Char :=
  let digit (n : Nat) : Char := Char.ofNat (if n < 10 then 0x30 + n else 0x37 + n)
  ['%', digit (b.toNat / 16), digit (b.toNat % 16)]

/-- A character as it stands in a region: itself, or the escapes of its bytes. -/
def sentChar (r : Region) (c : Char) : List Char :=
  if r.allows c then [c] else (Text.charBytes c).flatMap percent

/-- The bytes that a text with escapes stands for. -/
def unescapedBytes : List Char → List UInt8
  | '%' :: a :: b :: rest =>
    let digit (c : Char) : Nat :=
      if c.isDigit then c.toNat - '0'.toNat else (c.toLower.toNat - 'a'.toNat) + 10
    UInt8.ofNat (16 * digit a + digit b) :: unescapedBytes rest
  | c :: rest => Text.charBytes c ++ unescapedBytes rest
  | [] => []

/-- A byte as it stands in a path. -/
def sentByte (b : UInt8) : List Char :=
  let c := Char.ofNat b.toNat
  if b.toNat < 0x80 && Region.path.allows c then [c] else percent b

/-- A path as it is sent: as written if every character of it may stand, else escaped anew. -/
def sentPath (path : String) : String :=
  if path.toList.all fun c => Region.path.allows c || "!'()*[]%".contains c then path
  else String.ofList ((unescapedBytes path.toList).flatMap sentByte)

/-- What stands before the host: its scheme and, after the slashes, the user. An address that has
neither user nor host nor path has no slashes. -/
def Address.start (a : Address) : String :=
  (if a.secure then "https:" else "http:") ++
    (if a.user.isNone && a.host = "" && a.path = "" then "" else "//") ++
    (match a.user with | some u => u ++ "@" | none => "")

/-- The address as it is sent. -/
def Address.render (a : Address) : String :=
  a.start ++ a.host ++ sentPath a.path ++
    (match a.query with | some q => "?" ++ q | none => "") ++
    (match a.fragment with
      | some "" | none => ""
      | some f => "#" ++ String.ofList (f.toList.flatMap fun c =>
          if c = '%' then [c] else sentChar .fragment c))

/-- The address as it is shown to people: a password in it is hidden. -/
def Address.masked (a : Address) : Address :=
  { a with user := a.user.map fun u =>
      match cut ':' u.toList with
      | (_, none) => u
      | (name, some _) => String.ofList name ++ ":***" }

end Sessions.Web
