import Sessions.Decimal.Arithmetic
import Sessions.Decimal.Layout
import Sessions.Script.Token
import Sessions.Text.Units

/-!
# Sessions.Script.Value

The values of scripts and the machine that keeps their variables and objects. A run is a function
from a machine to an answer and a machine; it ends early if something is raised or if the script
takes too many steps.
-/

namespace Sessions.Script

inductive Value where
  | undefined
  | null
  | bool (b : Bool)
  | number (x : Double)
  | text (s : String)
  /-- An object of the machine. -/
  | object (address : Nat)
  /-- A function, or a collection of functions, that every script has. -/
  | builtin (name : String)
deriving DecidableEq, Repr, Inhabited

/-- The cell of a variable, and whether it is never assigned again. -/
structure Binding where
  cell : Nat
  constant : Bool

/-- The variables that can be seen from a place, innermost first. -/
abbrev Scope := List (String × Binding)

/-- What an object is besides its fields. -/
inductive Nature where
  | record
  | list (items : List Value)
  | error
  | pattern (p : Pattern) (fold : Bool)
  | function (scope : Scope) (parameters : List String) (body : List Statement)

structure Object where
  nature : Nature := .record
  fields : List (String × Value) := []

/-- The state of a run. A cell is empty until its variable is initialised. -/
structure Machine where
  cells : Array (Option Value) := #[]
  objects : Array Object := #[]
  steps : Nat

/-- Why a run ended early. -/
inductive Stop where
  | timeout
  | raised (v : Value)

abbrev Run := ExceptT Stop (StateM Machine)

namespace Run

/-- Makes an object. -/
def make (o : Object) : Run Value := do
  let m ← get
  set { m with objects := m.objects.push o }
  return .object m.objects.size

def makeList (items : List Value) : Run Value :=
  make { nature := .list items }

/-- Makes an error. -/
def makeError (name message : String) : Run Value :=
  make { nature := .error, fields := [("name", .text name), ("message", .text message)] }

/-- Raises an error. -/
def fail {α : Type} (name message : String) : Run α := do
  throw (.raised (← makeError name message))

def objectAt (address : Nat) : Run Object := do
  return ((← get).objects[address]?).getD {}

def changeObject (address : Nat) (o : Object) : Run Unit :=
  modify fun m => { m with objects := m.objects.setIfInBounds address o }

/-- Makes a cell. -/
def makeCell (v : Option Value) : Run Nat := do
  let m ← get
  set { m with cells := m.cells.push v }
  return m.cells.size

def changeCell (cell : Nat) (v : Value) : Run Unit :=
  modify fun m => { m with cells := m.cells.setIfInBounds cell (some v) }

/-- Uses up one step. -/
def tick : Run Unit := do
  let m ← get
  if m.steps = 0 then throw .timeout else set { m with steps := m.steps - 1 }

/-- Repeats something until it gives an answer, at most so many times. -/
def iterate {α : Type} (round : Run (Option α)) : Nat → Run α
  | 0 => throw .timeout
  | n + 1 => ExceptT.mk fun m =>
    match (round.run.run m : Except Stop (Option α) × Machine) with
    | (.ok (some a), m) => (.ok a, m)
    | (.ok none, m) => (iterate round n).run.run m
    | (.error e, m) => (.error e, m)

end Run

/-! ## Conversions -/

/-- The text of a number. -/
def numberText (x : Double) : String :=
  if x.isNaN then "NaN"
  else if x.isInfinite then (if x.isNegative then "-Infinity" else "Infinity")
  else if x.isZero then "0"
  else Decimal.render .json x

/-- The number that a text writes; an empty text writes zero. -/
def textNumber (s : String) : Double :=
  let cs := Text.trimmed s.toList
  let unsigned (negative : Bool) (cs : List Char) : Double :=
    if cs = "Infinity".toList then Double.infinity negative
    else
      let (x, rest) := Token.decimal cs
      let isNumber := (cs.head?.map Char.isDigit).getD false ||
        (cs.head? = some '.' && ((cs[1]?).map Char.isDigit).getD false)
      if isNumber && rest.isEmpty then (if negative then x.negate else x) else .nan
  let based (base : Nat) (cs : List Char) : Double :=
    match Token.based? base cs with
    | some (x, []) => x
    | _ => .nan
  match cs with
  | [] => .zero false
  | '-' :: rest => unsigned true rest
  | '+' :: rest => unsigned false rest
  | '0' :: 'x' :: rest => based 16 rest
  | '0' :: 'X' :: rest => based 16 rest
  | '0' :: 'o' :: rest => based 8 rest
  | '0' :: 'O' :: rest => based 8 rest
  | '0' :: 'b' :: rest => based 2 rest
  | '0' :: 'B' :: rest => based 2 rest
  | _ => unsigned false cs

/-- The text of a value; lists inside lists count to a given depth. -/
def Machine.textOf (m : Machine) : (depth : Nat) → Value → String
  | 0, _ => ""
  | depth + 1, v =>
    match v with
    | .undefined => "undefined"
    | .null => "null"
    | .bool b => if b then "true" else "false"
    | .number x => numberText x
    | .text s => s
    | .builtin name => "function " ++ name ++ "() \x7b [native code] \x7d"
    | .object a =>
      let o := (m.objects[a]?).getD {}
      match o.nature with
      | .list items =>
        ",".intercalate (items.map fun
          | .undefined => ""
          | .null => ""
          | v => m.textOf depth v)
      | .error =>
        let part (key : String) : String := ((o.fields.lookup key).map (m.textOf depth)).getD ""
        if part "message" = "" then part "name" else part "name" ++ ": " ++ part "message"
      | _ => "[object Object]"

/-- How deep lists inside lists count. -/
def textDepth : Nat := 64

def Run.textOf (v : Value) : Run String := do
  return (← get).textOf textDepth v

/-- The number that a value counts as. -/
def Run.numberOf (v : Value) : Run Double := do
  match v with
  | .undefined => return .nan
  | .null => return .zero false
  | .bool b => return Double.ofInt (if b then 1 else 0)
  | .number x => return x
  | .text s => return textNumber s
  | .builtin _ => return .nan
  | .object _ => return textNumber (← Run.textOf v)

namespace Value

/-- Whether a value counts as true. -/
def isTrue : Value → Bool
  | .undefined => false
  | .null => false
  | .bool b => b
  | .number x => !(x.isNaN || x.isZero)
  | .text s => s ≠ ""
  | .object _ => true
  | .builtin _ => true

def ofInt (n : Int) : Value := .number (Double.ofInt n)

def isObject : Value → Bool
  | .object _ => true
  | .builtin _ => true
  | _ => false

def isNothing : Value → Bool
  | .undefined => true
  | .null => true
  | _ => false

/-- Equality of values of one type. -/
def same : Value → Value → Bool
  | .number x, .number y => x.numEq y
  | a, b => a == b

end Value

/-- The value that an object counts as where only simple values do. -/
def Run.plain (v : Value) : Run Value := do
  if v.isObject then return .text (← Run.textOf v) else return v

/-- Equality after conversion. -/
def Run.like (a b : Value) : Run Bool := do
  match a, b with
  | .undefined, _ => return b.isNothing
  | .null, _ => return b.isNothing
  | _, .undefined => return false
  | _, .null => return false
  | _, _ =>
    if a.isObject && b.isObject then return Value.same a b
    else
      match ← Run.plain a, ← Run.plain b with
      | .text s, .text t => return s == t
      | x, y => return (← Run.numberOf x).numEq (← Run.numberOf y)

/-- The type of a value. -/
def Run.typeOf (v : Value) : Run String := do
  match v with
  | .undefined => return "undefined"
  | .null => return "object"
  | .bool _ => return "boolean"
  | .number _ => return "number"
  | .text _ => return "string"
  | .builtin name => return if name = "Math" then "object" else "function"
  | .object a =>
    match (← Run.objectAt a).nature with
    | .function _ _ _ => return "function"
    | _ => return "object"

/-- The place in a list that a key names. -/
def placeKey? (key : String) : Option Nat :=
  let ds := key.toList
  if ds.isEmpty || !ds.all Char.isDigit || (ds.head? = some '0' && 1 < ds.length) then none
  else some (Json.Number.digitsValue ds)

/-! ## Operators -/

/-- The low 32 bits of a number, with a sign. -/
def word (x : Double) : Int :=
  if x.isFinite then x.truncate.bmod (Nat.pow 2 32) else 0

/-- The low 32 bits of a number. -/
def wordNat (x : Double) : Nat :=
  (word x % Int.pow 2 32).toNat

def ofWordNat (n : Nat) : Value :=
  .ofInt ((n : Int).bmod (Nat.pow 2 32))

/-- Whether one value comes before another; nothing if they have no order. -/
def Run.less? (a b : Value) : Run (Option Bool) := do
  match ← Run.plain a, ← Run.plain b with
  | .text s, .text t => return some (decide (Text.units s < Text.units t))
  | x, y => return (← Run.numberOf x).less? (← Run.numberOf y)

/-- Applies an operator. -/
def Run.binary (op : Binary) (a b : Value) : Run Value := do
  let arithmetic (f : Double → Double → Double) : Run Value := do
    return .number (f (← Run.numberOf a) (← Run.numberOf b))
  let bits (f : Nat → Nat → Nat) : Run Value := do
    return ofWordNat (f (wordNat (← Run.numberOf a)) (wordNat (← Run.numberOf b)))
  match op with
  | .add =>
    match ← Run.plain a, ← Run.plain b with
    | .text s, y => return .text (s ++ (← Run.textOf y))
    | x, .text t => return .text ((← Run.textOf x) ++ t)
    | x, y => return .number ((← Run.numberOf x).add (← Run.numberOf y))
  | .sub => arithmetic Double.sub
  | .mul => arithmetic Double.mul
  | .div => arithmetic Double.div
  | .rem => arithmetic Double.rem
  | .less => return .bool ((← Run.less? a b).getD false)
  | .greater => return .bool ((← Run.less? b a).getD false)
  | .lessEq => return .bool (((← Run.less? b a).map (!·)).getD false)
  | .greaterEq => return .bool (((← Run.less? a b).map (!·)).getD false)
  | .like => return .bool (← Run.like a b)
  | .unlike => return .bool !(← Run.like a b)
  | .same => return .bool (Value.same a b)
  | .different => return .bool !(Value.same a b)
  | .and => bits (· &&& ·)
  | .or => bits (· ||| ·)
  | .xor => bits (· ^^^ ·)
  | .shiftLeft => bits fun x y => x <<< (y % 32)
  | .shiftRight =>
    let x := word (← Run.numberOf a)
    let y := wordNat (← Run.numberOf b) % 32
    return .ofInt (x.fdiv (Int.pow 2 y))
  | .shiftRightZero =>
    let x := wordNat (← Run.numberOf a)
    let y := wordNat (← Run.numberOf b) % 32
    return .ofInt (x / Nat.pow 2 y : Nat)
  | .member =>
    match b with
    | .object address =>
      let key ← Run.textOf a
      let o ← Run.objectAt address
      match o.nature with
      | .list items =>
        let isPlace := ((placeKey? key).map (decide <| · < items.length)).getD false
        return .bool (isPlace || key = "length" || (o.fields.lookup key).isSome)
      | _ => return .bool (o.fields.lookup key).isSome
    | _ => Run.fail "TypeError" "Value is not an object"
  | .kind =>
    match b with
    | .builtin name =>
      match a with
      | .object address =>
        let o ← Run.objectAt address
        match o.nature with
        | .error =>
          let own := o.fields.lookup "name" == some (.text name)
          return .bool (own || name = "Error" || name = "Object")
        | .list _ => return .bool (name = "Array" || name = "Object")
        | _ => return .bool (name = "Object")
      | .builtin _ => return .bool (name = "Object")
      | _ => return .bool false
    | .object _ => return .bool false
    | _ => Run.fail "TypeError" "Expecting a function in instanceof check"

def Run.unary (op : Unary) (v : Value) : Run Value := do
  match op with
  | .not => return .bool !v.isTrue
  | .negate => return .number (← Run.numberOf v).negate
  | .plus => return .number (← Run.numberOf v)
  | .complement => return .ofInt (-(word (← Run.numberOf v)) - 1)
  | .typeOf => return .text (← Run.typeOf v)
  | .void => return .undefined

end Sessions.Script
