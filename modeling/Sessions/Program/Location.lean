/-!
# Sessions.Program.Location

Where a part of a program stands: the name of its source and a line, line zero meaning that none
is known.
-/

namespace Sessions

structure Location where
  source : String := ""
  line : Int := 0
deriving DecidableEq, Repr, Inhabited

namespace Location

/-- `source:line`, or the source alone when no line is known. -/
def render (l : Location) : String :=
  if l.line = 0 then l.source else l.source ++ ":" ++ toString l.line

end Location

end Sessions
