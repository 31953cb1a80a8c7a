import Sessions.History.Archive

/-!
# Sessions.History.Store

Where verdicts are kept: in a database, which can be closed, or nowhere. Each operation answers or
says why not, and notes what it does.
-/

namespace Sessions.History

/-- Why a store refuses. -/
inductive StoreError where
  | nameRequired
  | incompatible
  | notOpen
  /-- The record has no text. -/
  | unwritable
deriving DecidableEq, Repr

def StoreError.message : StoreError → String
  | .nameRequired => "bucket name required"
  | .incompatible => "incompatible value"
  | .notOpen => "database not open"
  | .unwritable => "year outside of range [0,9999]"

inductive Store where
  | nowhere
  | database (isOpen : Bool) (archive : Archive)
deriving DecidableEq, Repr, Inhabited

/-- An answer with what was noted on the way. -/
structure Noted (α : Type) where
  answer : Except StoreError α
  log : List String := []

namespace Store

def note (text : String) : String :=
  "BoltDB Storage." ++ text

/-- Keeps a record. -/
def write (s : Store) (r : Record) : Noted Store :=
  match s with
  | .nowhere => ⟨.ok .nowhere, []⟩
  | .database isOpen a =>
    if !r.isWritable then ⟨.error .unwritable, []⟩
    else
      let first := note ("WriteRecord " ++ Json.compact r.toDatum)
      if !isOpen then ⟨.error .notOpen, [first]⟩
      else if r.program = "" then ⟨.error .nameRequired, [first]⟩
      else
        let dropped := (a.shelf r.program).dropped a.limit r
        ⟨.ok (.database true (a.write r)),
          first :: dropped.map fun f =>
            note ("WriteRecord " ++ r.program ++ " dropping " ++ f.key)⟩

/-- The history of a program. -/
def history (s : Store) (program : String) : Noted (List Record) :=
  match s with
  | .nowhere => ⟨.ok [], []⟩
  | .database isOpen a =>
    let first := note ("GetHistory " ++ program)
    if !isOpen then ⟨.error .notOpen, [first]⟩
    else
      let found := a.history program
      ⟨.ok found,
        [first, note ("GetHistory " ++ program ++ " found " ++ toString found.length ++ " records")]⟩

/-- Forgets a program. In an empty database the empty name stands for something that can not be
forgotten. -/
def erase (s : Store) (program : String) : Noted Store :=
  match s with
  | .nowhere => ⟨.ok .nowhere, []⟩
  | .database isOpen a =>
    let first := note ("RemProgram " ++ program)
    if !isOpen then ⟨.error .notOpen, [first]⟩
    else if program = "" && a.shelves.isEmpty then ⟨.error .incompatible, [first]⟩
    else ⟨.ok (.database true (a.erase program)), [first]⟩

/-- The programs with history, in order. -/
def programs (s : Store) : Noted (List String) :=
  match s with
  | .nowhere => ⟨.ok [], []⟩
  | .database isOpen a => if isOpen then ⟨.ok a.programs, []⟩ else ⟨.error .notOpen, []⟩

/-- Closes the store. -/
def close : Store → Store
  | .nowhere => .nowhere
  | .database _ a => .database false a

/-- Opens a store that was closed. -/
def reopen : Store → Store
  | .nowhere => .nowhere
  | .database _ a => .database true a

end Store

end Sessions.History
