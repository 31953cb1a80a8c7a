import Sessions.Program.Path

/-!
# Sessions.Facts.PathSet

Sets of paths that remember the order of insertion. Paths are told apart by their keys. Adding a
path that is there already keeps the path that came first, with its location, and only joins the
freshness flags.
-/

namespace Sessions

/-- A member of a path set. Freshness matters only for provided correlation paths. -/
structure PathEntry where
  path : Path
  fresh : Bool
deriving Inhabited

def PathEntry.key (e : PathEntry) : String :=
  e.path.key

structure PathSet where
  entries : List PathEntry := []
deriving Inhabited

namespace PathSet

def empty : PathSet := ⟨[]⟩

/-- The entry of a path, if it is a member. -/
def get? (s : PathSet) (p : Path) : Option PathEntry :=
  s.entries.find? fun e => e.key == p.key

def contains (s : PathSet) (p : Path) : Bool :=
  s.entries.any fun e => e.key == p.key

/-- Adds a path. -/
def add (s : PathSet) (p : Path) (fresh : Bool) : PathSet :=
  if s.contains p then
    ⟨s.entries.map fun e => if e.key == p.key then ⟨e.path, e.fresh || fresh⟩ else e⟩
  else ⟨s.entries ++ [⟨p, fresh⟩]⟩

/-- Takes a path out, if it is there. -/
def remove (s : PathSet) (p : Path) : PathSet :=
  ⟨s.entries.filter fun e => e.key != p.key⟩

def size (s : PathSet) : Nat :=
  s.entries.length

def isEmpty (s : PathSet) : Bool :=
  s.entries.isEmpty

/-- The members in the order of insertion. -/
def paths (s : PathSet) : List Path :=
  s.entries.map (·.path)

def keys (s : PathSet) : List String :=
  s.entries.map (·.key)

/-- The text of each member. -/
def texts (s : PathSet) : List String :=
  s.entries.map (·.path.render)

end PathSet

end Sessions
