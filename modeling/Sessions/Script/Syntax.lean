import Sessions.Decimal.Double
import Sessions.Script.Pattern

/-!
# Sessions.Script.Syntax

The terms and statements of the scripting language.
-/

namespace Sessions

namespace Script

inductive Unary where
  | not
  | negate
  | plus
  | complement
  | typeOf
  | void
deriving DecidableEq, Repr

inductive Binary where
  | add
  | sub
  | mul
  | div
  | rem
  | less
  | lessEq
  | greater
  | greaterEq
  /-- Equality after conversion. -/
  | like
  | unlike
  /-- Equality of values of one type. -/
  | same
  | different
  | and
  | or
  | xor
  | shiftLeft
  | shiftRight
  | shiftRightZero
  /-- Whether something has a member. -/
  | member
  /-- Whether something is of a kind. -/
  | kind
deriving DecidableEq, Repr

/-- Operators that may leave their right side alone. -/
inductive Junction where
  | both
  | either
  | orElse
deriving DecidableEq, Repr

/-- How names are declared. -/
inductive Declaration where
  /-- In the whole function. -/
  | function
  /-- In the block. -/
  | block
  /-- In the block, and never assigned again. -/
  | constant
deriving DecidableEq, Repr

mutual

inductive Term where
  | undefined
  | null
  | bool (b : Bool)
  | number (x : Double)
  | text (s : String)
  | pattern (p : Pattern) (fold : Bool)
  | name (s : String)
  | list (items : List Term)
  | record (fields : List (String × Term))
  | function (parameters : List String) (body : List Statement)
  | member (t key : Term)
  /-- A member of something, or nothing of nothing. -/
  | softMember (t key : Term)
  | invoke (f : Term) (arguments : List Term)
  | construct (f : Term) (arguments : List Term)
  | unary (op : Unary) (t : Term)
  | binary (op : Binary) (a b : Term)
  | join (op : Junction) (a b : Term)
  | choose (test yes no : Term)
  | assign (target : Term) (op : Option Binary) (value : Term)
  /-- One more or one less; the answer is the value before or after. -/
  | step (up before : Bool) (target : Term)
  | sequence (a b : Term)

inductive Statement where
  | result (t : Term)
  | raise (t : Term)
  | perform (t : Term)
  | declare (how : Declaration) (names : List (String × Option Term))
  | define (name : String) (parameters : List String) (body : List Statement)
  | block (body : List Statement)
  | cond (test : Term) (yes no : Statement)
  | loop (test : Term) (body : Statement)
  | loopAfter (body : Statement) (test : Term)
  /-- A loop with a start, a test, and what is done after each round. -/
  | count (start : List Statement) (test update : Option Term) (body : Statement)
  /-- A loop over the keys or the items of something. -/
  | each (how : Declaration) (name : String) (keys : Bool) (source : Term) (body : Statement)
  | leave
  | next
  | attempt (body : List Statement) (name : Option String) (handler last : Option (List Statement))
  | select (value : Term) (cases : List (Option Term × List Statement))

end

instance : Inhabited Term := ⟨.undefined⟩

instance : Inhabited Statement := ⟨.block []⟩

end Script

/-- A script: the body of a function. -/
structure Script where
  statements : List Script.Statement
deriving Inhabited

end Sessions
