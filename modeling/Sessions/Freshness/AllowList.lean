import Sessions.Check.Walk
import Sessions.Freshness.Predicate

/-!
# Sessions.Freshness.AllowList

Which calls yield fresh, unguessable values. An allow-list trusts the calls that match one of its
sources; a source may have pattern variables. For what a list of sources cannot say, it may carry a
predicate, which is asked when no source matches.
-/

namespace Sessions.Freshness

/-- A trusted call. Each part may be a pattern variable: `?` matches anything, and `?x` matches
anything but the same thing wherever it stands in the source. -/
structure Source where
  service : String
  operation : String
deriving DecidableEq, Repr, Inhabited

namespace Source

def render (s : Source) : String :=
  s.operation ++ "@" ++ s.service

def isVariable (pattern : String) : Bool :=
  pattern.toList.head? == some '?'

/-- Matches one part, given what the pattern variables stand for already; returns what they stand
for afterwards. -/
def matchPart (bound : List (String × String)) (pattern fact : String) :
    Option (List (String × String)) :=
  if !isVariable pattern then (if pattern = fact then some bound else none)
  else if pattern = "?" then some bound
  else
    match bound.lookup pattern with
    | some value => if value = fact then some bound else none
    | none => some ((pattern, fact) :: bound)

/-- Whether a call is one that the source describes. -/
def accepts (s : Source) (service operation : String) : Bool :=
  ((matchPart [] s.service service).bind fun bound =>
    matchPart bound s.operation operation).isSome

end Source

/-- Trusted sources, and a predicate for the calls that none of them accepts; an empty predicate
is none. -/
structure AllowList where
  sources : List Source := []
  predicate : String := ""
deriving DecidableEq, Repr, Inhabited

namespace AllowList

/-- Trusts only the tokens of the security service. -/
def standard : AllowList :=
  { sources := [⟨"SecurityUtils", "createSecureToken"⟩] }

/-- Why the predicate can not be used, if it can not. -/
def compileError? (a : AllowList) : Option String :=
  if a.predicate = "" then none
  else
    match Predicate.parse a.predicate with
    | .ok _ => none
    | .error e => some e

/-- Asks the predicate about a call. -/
def ask (a : AllowList) (service operation : String) : Check.Judgement :=
  if a.predicate = "" then ⟨false, none⟩
  else
    match Predicate.parse a.predicate with
    | .error e => ⟨false, some ("fresh predicate compile error: " ++ e)⟩
    | .ok script =>
      match Predicate.decide script service operation with
      | .ok b => ⟨b, none⟩
      | .error e =>
        ⟨false, some ("fresh predicate error for " ++ operation ++ "@" ++ service ++ ": " ++
          e.message)⟩

/-- Whether a call yields a fresh value. -/
def judge (a : AllowList) (service operation : String) : Check.Judgement :=
  if a.sources.any fun s => s.accepts service operation then ⟨true, none⟩
  else a.ask service operation

end AllowList

/-- The recogniser of an allow-list that may be absent; without one nothing is fresh. -/
def recogniser (a : Option AllowList) : Check.Recogniser :=
  fun service operation => (a.map fun l => l.judge service operation).getD ⟨false, none⟩

end Sessions.Freshness
