/-!
# Sessions.Program.Mode

How a program executes: many sessions at once, one session after another, or a single run without
sessions.
-/

namespace Sessions

inductive Mode where
  /-- Many sessions at the same time; each must be identifiable by correlation. -/
  | concurrent
  /-- Sessions one after another; they still exist, so correlation still matters. -/
  | sequential
  /-- One run and no sessions; correlation of operations is not checked. -/
  | single
deriving DecidableEq, Repr, Inhabited

namespace Mode

def name : Mode → String
  | .concurrent => "concurrent"
  | .sequential => "sequential"
  | .single => "single"

/-- The mode of a name; no name at all means concurrent. -/
def ofName? : String → Option Mode
  | "" => some .concurrent
  | "concurrent" => some .concurrent
  | "sequential" => some .sequential
  | "single" => some .single
  | _ => none

/-- The modes in the order of their numbers. -/
def every : List Mode :=
  [.concurrent, .sequential, .single]

/-- The number of a mode. -/
def number : Mode → Nat
  | .concurrent => 0
  | .sequential => 1
  | .single => 2

/-- The name of the mode with a number, if there is one. -/
def nameOfNumber (n : Int) : String :=
  ((every.find? fun m => (m.number : Int) == n).map name).getD "unknown"

theorem ofName?_name (m : Mode) : ofName? m.name = some m := by
  cases m <;> rfl

end Mode

end Sessions
