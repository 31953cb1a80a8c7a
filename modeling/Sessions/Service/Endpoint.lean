import Sessions.Text.Lower

/-!
# Sessions.Service.Endpoint

Addresses that the service listens on or connects to: a host and a port with a colon between them.
-/

namespace Sessions.Service

/-- What is wrong with an address. -/
inductive EndpointFault where
  | missingPort (address : String)
  | tooManyColons (address : String)
  | missingBracket (address : String)
  | unexpectedOpening (address : String)
  | unexpectedClosing (address : String)
  | invalidPort (port : String)
  | unknownPort (port : String)
deriving DecidableEq, Repr

def EndpointFault.message : EndpointFault → String
  | .missingPort a => "address " ++ a ++ ": missing port in address"
  | .tooManyColons a => "address " ++ a ++ ": too many colons in address"
  | .missingBracket a => "address " ++ a ++ ": missing ']' in address"
  | .unexpectedOpening a => "address " ++ a ++ ": unexpected '[' in address"
  | .unexpectedClosing a => "address " ++ a ++ ": unexpected ']' in address"
  | .invalidPort p => "address " ++ p ++ ": invalid port"
  | .unknownPort p => "lookup tcp/" ++ p ++ ": unknown port"

/-- Splits an address into host and port. -/
def splitEndpoint (address : String) : Except EndpointFault (String × String) :=
  let cs := address.toList
  if !cs.contains ':' then .error (.missingPort address)
  else
    let port := (cs.reverse.takeWhile (· ≠ ':')).reverse
    let before := cs.take (cs.length - port.length - 1)
    match cs with
    | '[' :: rest =>
      if !rest.contains ']' then .error (.missingBracket address)
      else
        let host := rest.takeWhile (· ≠ ']')
        match (rest.dropWhile (· ≠ ']')).drop 1 with
        | [] => .error (.missingPort address)
        | ':' :: more =>
          if more.contains ':' then .error (.tooManyColons address)
          else if rest.contains '[' then .error (.unexpectedOpening address)
          else if more.contains ']' then .error (.unexpectedClosing address)
          else .ok (String.ofList host, String.ofList port)
        | _ => .error (.missingPort address)
    | _ =>
      if before.contains ':' then .error (.tooManyColons address)
      else if cs.contains '[' then .error (.unexpectedOpening address)
      else if cs.contains ']' then .error (.unexpectedClosing address)
      else .ok (String.ofList before, String.ofList port)

/-- Ports with a name. -/
def namedPorts : List (String × Nat) :=
  [("domain", 53), ("ftp", 21), ("ftps", 990), ("gopher", 70), ("http", 80), ("https", 443),
   ("imap2", 143), ("imap3", 220), ("imaps", 993), ("pop3", 110), ("pop3s", 995), ("smtp", 25),
   ("submissions", 465), ("ssh", 22), ("telnet", 23)]

/-- What is wrong with a port. -/
def portFault? (port : String) : Option EndpointFault :=
  let digits := match port.toList with
    | '+' :: rest | '-' :: rest => rest
    | cs => cs
  if !digits.all Char.isDigit then
    if (namedPorts.lookup (Text.lower port)).isSome then none else some (.unknownPort port)
  else
    let n := digits.foldl (fun n c => 10 * n + (c.toNat - '0'.toNat)) 0
    if 65535 < n || (port.startsWith "-" && n ≠ 0) then some (.invalidPort port) else none

/-- Why the service can not listen on an address. An empty address means the port of the web. -/
def listenFault? (address : String) : Option EndpointFault :=
  match splitEndpoint (if address = "" then ":http" else address) with
  | .error e => some e
  | .ok (_, port) => portFault? port

/-- What is said when listening fails. -/
def listenMessage (e : EndpointFault) : String :=
  "listen tcp: " ++ e.message

/-- What is said when a broker can not be reached. Without a scheme the address is one of the plain
protocol. -/
def brokerMessage (broker : String) : String :=
  let full := if broker.startsWith ":" then "127.0.0.1" ++ broker else broker
  let (scheme, host) := match full.splitOn "://" with
    | scheme :: rest@(_ :: _) => (scheme, "://".intercalate rest)
    | _ => ("tcp", full)
  let host := String.ofList (host.toList.takeWhile (· ≠ '/'))
  let reason :=
    if !(["tcp", "mqtt", "ws", "wss", "ssl", "tls", "mqtts", "mqtt+ssl", "tcps"].contains scheme) then
      "unknown protocol"
    else
      match splitEndpoint host with
      | .error e => "dial tcp: " ++ e.message
      | .ok (_, port) =>
        match portFault? port with
        | some e => "dial tcp: " ++ e.message
        | none => "dial tcp " ++ host ++ ": connect: connection refused"
  "network Error : " ++ reason

end Sessions.Service
