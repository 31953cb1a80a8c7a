import Sessions.Script.Value

/-!
# Sessions.Script.Builtin

What every script can use without defining it: the global names, the members of texts, lists,
patterns and numbers, and the functions among them that call no function of the script.
-/

namespace Sessions.Script

/-! ## Names -/

/-- The kinds of errors that a script can make. -/
def errorNames : List String :=
  ["Error", "TypeError", "RangeError", "SyntaxError", "ReferenceError", "EvalError", "URIError"]

/-- The names of the functions and of their collections. -/
def globals : List String :=
  ["Math", "String", "Number", "Boolean", "Array", "Object", "parseInt", "parseFloat", "isNaN",
   "isFinite"] ++ errorNames

/-- The value of a name that is not declared anywhere. -/
def global? (name : String) : Option Value :=
  match name with
  | "undefined" => some .undefined
  | "NaN" => some (.number .nan)
  | "Infinity" => some (.number (.infinity false))
  | _ => if globals.contains name then some (.builtin name) else none

/-- Functions that are members of a collection. -/
def statics : List String :=
  ["Math.floor", "Math.ceil", "Math.round", "Math.trunc", "Math.abs", "Math.sign", "Math.max",
   "Math.min", "Array.isArray", "Object.keys", "Object.values", "Number.isInteger", "Number.isNaN",
   "Number.isFinite", "Number.parseInt", "Number.parseFloat", "String.fromCharCode"]

def textMethods : List String :=
  ["charAt", "charCodeAt", "concat", "endsWith", "includes", "indexOf", "lastIndexOf", "match",
   "padEnd", "padStart", "repeat", "replace", "search", "slice", "split", "startsWith", "substr",
   "substring", "toLowerCase", "toUpperCase", "trim", "trimEnd", "trimStart"]

/-- Methods of lists that call a function. -/
def callingMethods : List String :=
  ["every", "filter", "find", "findIndex", "forEach", "map", "some"]

def listMethods : List String :=
  ["concat", "includes", "indexOf", "join", "lastIndexOf", "pop", "push", "reverse", "shift",
   "slice"] ++ callingMethods

def patternMethods : List String := ["exec", "test"]

def commonMethods : List String := ["hasOwnProperty", "toString", "valueOf"]

/-- A method, if it is among those of a kind or among those of all values. -/
def method (kind : String) (methods : List String) (key : String) : Value :=
  if methods.contains key then .builtin (kind ++ "#" ++ key)
  else if commonMethods.contains key then .builtin ("Object#" ++ key)
  else .undefined

/-- A member of a value. -/
def Run.member (v : Value) (key : String) : Run Value := do
  match v with
  | .undefined => Run.fail "TypeError" ("Cannot read property '" ++ key ++ "' of undefined")
  | .null => Run.fail "TypeError" ("Cannot read property '" ++ key ++ "' of null")
  | .text s =>
    let us := Text.units s
    if key = "length" then return .ofInt us.length
    else
      match placeKey? key with
      | some n => return ((us[n]?).map fun u => .text (Text.ofUnits [u])).getD .undefined
      | none => return method "String" textMethods key
  | .bool _ => return method "Boolean" [] key
  | .number _ => return method "Number" [] key
  | .builtin name =>
    if statics.contains (name ++ "." ++ key) then return .builtin (name ++ "." ++ key)
    else if key = "name" then return .text name
    else return method "Function" [] key
  | .object address =>
    let o ← Run.objectAt address
    match o.fields.lookup key with
    | some v => return v
    | none =>
      match o.nature with
      | .list items =>
        if key = "length" then return .ofInt items.length
        else
          match placeKey? key with
          | some n => return (items[n]?).getD .undefined
          | none => return method "Array" listMethods key
      | .pattern _ _ => return method "RegExp" patternMethods key
      | _ => return method "Object" [] key

/-- Replaces or adds a field. -/
def putField (key : String) (v : Value) : List (String × Value) → List (String × Value)
  | [] => [(key, v)]
  | (k, w) :: rest => if k = key then (key, v) :: rest else (k, w) :: putField key v rest

/-- Assigns to a member. -/
def Run.assignMember (target : Value) (key : String) (v : Value) : Run Unit := do
  match target with
  | .object address =>
    let o ← Run.objectAt address
    match o.nature, placeKey? key with
    | .list items, some n =>
      let items := items ++ List.replicate (n - items.length) .undefined
      let items := if n < items.length then items.set n v else items ++ [v]
      Run.changeObject address { o with nature := .list items }
    | _, _ => Run.changeObject address { o with fields := putField key v o.fields }
  | .undefined => Run.fail "TypeError" ("Cannot set property '" ++ key ++ "' of undefined")
  | .null => Run.fail "TypeError" ("Cannot set property '" ++ key ++ "' of null")
  | _ => Run.fail "TypeError" ("Cannot assign to property '" ++ key ++ "'")

/-! ## Numbers -/

/-- The integer part of a number; what is not a number counts as zero. -/
def integerOf (x : Double) : Int :=
  if x.isNaN then 0
  else if x.isInfinite then (if x.isNegative then -Int.pow 2 53 else Int.pow 2 53)
  else x.truncate

/-- The integer part of an argument, or what stands for a missing one. -/
def Run.integer (v : Option Value) (missing : Int) : Run Int := do
  match v with
  | none => return missing
  | some .undefined => return missing
  | some v => return integerOf (← Run.numberOf v)

/-- A place counted from the start, or from the end if it is negative. -/
def relative (length : Nat) (n : Int) : Nat :=
  if n < 0 then (length + n).toNat else min n.toNat length

/-- A place within a length. -/
def clamped (length : Nat) (n : Int) : Nat :=
  min n.toNat length

/-- The integer that a text starts with, in a base. -/
def leadingInteger (s : String) (base : Int) : Double :=
  let cs := s.toList.dropWhile Text.isBlank
  let (negative, cs) := match cs with
    | '-' :: rest => (true, rest)
    | '+' :: rest => (false, rest)
    | _ => (false, cs)
  let isHex := cs.take 2 = ['0', 'x'] || cs.take 2 = ['0', 'X']
  let (base, cs) :=
    if isHex && (base = 0 || base = 16) then (16, cs.drop 2)
    else if base = 0 then (10, cs)
    else (base, cs)
  let digit (c : Char) : Option Nat :=
    if c.isDigit then some (c.toNat - '0'.toNat)
    else if c.isAlpha then some (c.toLower.toNat - 'a'.toNat + 10)
    else none
  let ds := (cs.takeWhile fun c => ((digit c).map fun d => decide ((d : Int) < base)).getD false)
  if base < 2 || 36 < base || ds.isEmpty then .nan
  else
    let n := ds.foldl (fun n c => base.toNat * n + (digit c).getD 0) 0
    if n = 0 then .zero negative else Double.ofInt (if negative then -n else n)

/-- The number that a text starts with. -/
def leadingNumber (s : String) : Double :=
  let cs := s.toList.dropWhile Text.isBlank
  let (negative, cs) := match cs with
    | '-' :: rest => (true, rest)
    | '+' :: rest => (false, rest)
    | _ => (false, cs)
  let isNumber := (cs.head?.map Char.isDigit).getD false ||
    (cs.head? = some '.' && ((cs[1]?).map Char.isDigit).getD false)
  if "Infinity".toList.isPrefixOf cs then .infinity negative
  else if !isNumber then .nan
  else
    let x := (Token.decimal cs).1
    if negative then x.negate else x

/-- A number rounded by a rule for integers; the rest stays as it is. -/
def rounded (f : Double → Int) (x : Double) : Double :=
  if !x.isFinite || x.isZero then x
  else
    let n := f x
    if n = 0 then .zero x.isNegative else Double.ofInt n

/-- The greatest or the least of numbers. -/
def extreme (greatest : Bool) (xs : List Double) : Double :=
  xs.foldl
    (fun a x =>
      if a.isNaN || x.isNaN then .nan
      else if ((if greatest then a.less? x else x.less? a)).getD false then x
      else if a.isZero && x.isZero && a.isNegative == greatest then x
      else a)
    (.infinity greatest)

/-! ## Texts -/

/-- A text repeated to a length in units. -/
def padding (length : Nat) (pad : List Nat) : List Nat :=
  if pad.isEmpty then [] else ((List.replicate length pad).flatten).take length

/-- The parts of a text between occurrences of another. -/
def splitUnits (sought : List Nat) : (bound : Nat) → List Nat → List (List Nat)
  | 0, us => [us]
  | bound + 1, us =>
    match Text.occurs? sought 0 us with
    | some n => us.take n :: splitUnits sought bound (us.drop (n + sought.length))
    | none => [us]

/-- The pattern that a value is, if it is one. -/
def Run.pattern? (v : Value) : Run (Option (Pattern × Bool)) := do
  match v with
  | .object address =>
    match (← Run.objectAt address).nature with
    | .pattern p fold => return some (p, fold)
    | _ => return none
  | _ => return none

/-- Searches a text for a pattern. -/
def Run.find (v : Option Value) (s : String) :
    Run (Option (List Char × List Char × List Char)) := do
  let v := v.getD (.text "")
  match ← Run.pattern? v with
  | some (p, fold) => return p.search? fold s.toList
  | none =>
    match Pattern.parse? (← Run.textOf v) with
    | some p => return p.search? false s.toList
    | none => Run.fail "SyntaxError" "Invalid regular expression"

/-- Applies a method of texts. -/
def Run.textMethod (name : String) (s : String) (args : List Value) : Run Value := do
  let us := Text.units s
  let argument : Run (List Nat) := do return Text.units (← Run.textOf (args.head?.getD .undefined))
  let place (n : Option Nat) : Value := .ofInt ((n.map Int.ofNat).getD (-1))
  let cut (a b : Nat) : Value := .text (Text.ofUnits ((us.take b).drop a))
  match name with
  | "charAt" =>
    let n ← Run.integer args[0]? 0
    return .text (if n < 0 then "" else Text.ofUnits (us[n.toNat]?).toList)
  | "charCodeAt" =>
    let n ← Run.integer args[0]? 0
    return if n < 0 then .number .nan
      else ((us[n.toNat]?).map fun u => .ofInt u).getD (.number .nan)
  | "concat" => return .text (s ++ String.join (← args.mapM Run.textOf))
  | "endsWith" =>
    let t ← argument
    let stop := clamped us.length (← Run.integer args[1]? us.length)
    return .bool (t.isSuffixOf (us.take stop))
  | "startsWith" =>
    let t ← argument
    let start := clamped us.length (← Run.integer args[1]? 0)
    return .bool (t.isPrefixOf (us.drop start))
  | "includes" =>
    let t ← argument
    let start := clamped us.length (← Run.integer args[1]? 0)
    return .bool (Text.occurs? t 0 (us.drop start)).isSome
  | "indexOf" =>
    let t ← argument
    let start := clamped us.length (← Run.integer args[1]? 0)
    return place (Text.occurs? t start (us.drop start))
  | "lastIndexOf" =>
    let t ← argument
    let start := clamped us.length (← Run.integer args[1]? us.length)
    return place (Text.lastOccurs? t us start)
  | "match" =>
    match ← Run.find args[0]? s with
    | some (_, found, _) => Run.makeList [.text (String.ofList found)]
    | none => return .null
  | "search" =>
    match ← Run.find args[0]? s with
    | some (before, _, _) => return .ofInt (Text.units (String.ofList before)).length
    | none => return .ofInt (-1)
  | "replace" =>
    let substitute ← Run.textOf (args[1]?.getD .undefined)
    match ← Run.pattern? (args.head?.getD .undefined) with
    | some (p, fold) =>
      match p.search? fold s.toList with
      | some (before, _, after) =>
        return .text (String.ofList before ++ substitute ++ String.ofList after)
      | none => return .text s
    | none =>
      let t ← argument
      match Text.occurs? t 0 us with
      | some n =>
        let after := Text.ofUnits (us.drop (n + t.length))
        return .text (Text.ofUnits (us.take n) ++ substitute ++ after)
      | none => return .text s
  | "repeat" =>
    let n ← Run.integer args[0]? 0
    if n < 0 || Int.pow 2 20 < n then Run.fail "RangeError" "Invalid count value"
    else return .text (String.join (List.replicate n.toNat s))
  | "padStart" =>
    let n ← Run.integer args[0]? 0
    let pad ← match args[1]? with
      | some v => Run.textOf v
      | none => pure " "
    let width := min n.toNat (Nat.pow 2 20)
    return .text (Text.ofUnits (padding (width - us.length) (Text.units pad) ++ us))
  | "padEnd" =>
    let n ← Run.integer args[0]? 0
    let pad ← match args[1]? with
      | some v => Run.textOf v
      | none => pure " "
    let width := min n.toNat (Nat.pow 2 20)
    return .text (Text.ofUnits (us ++ padding (width - us.length) (Text.units pad)))
  | "slice" =>
    let a := relative us.length (← Run.integer args[0]? 0)
    let b := relative us.length (← Run.integer args[1]? us.length)
    return cut a b
  | "substring" =>
    let a := clamped us.length (← Run.integer args[0]? 0)
    let b := clamped us.length (← Run.integer args[1]? us.length)
    return cut (min a b) (max a b)
  | "substr" =>
    let a := relative us.length (← Run.integer args[0]? 0)
    let n ← Run.integer args[1]? us.length
    return cut a (a + n.toNat)
  | "split" =>
    match args.head?.getD .undefined with
    | .undefined => Run.makeList [.text s]
    | _ =>
      let t ← argument
      if t.isEmpty then Run.makeList (us.map fun u => .text (Text.ofUnits [u]))
      else Run.makeList ((splitUnits t us.length us).map fun p => .text (Text.ofUnits p))
  | "toLowerCase" => return .text (String.ofList (s.toList.map Char.toLower))
  | "toUpperCase" => return .text (String.ofList (s.toList.map Char.toUpper))
  | "trim" => return .text (Text.trim s)
  | "trimStart" => return .text (String.ofList (s.toList.dropWhile Text.isBlank))
  | "trimEnd" => return .text (String.ofList (s.toList.reverse.dropWhile Text.isBlank).reverse)
  | _ => return .undefined

/-! ## Lists -/

/-- Applies a method of lists that calls no function. -/
def Run.listMethod (name : String) (address : Nat) (items : List Value) (args : List Value) :
    Run Value := do
  let first := args.head?.getD .undefined
  let place (n : Option Nat) : Value := .ofInt ((n.map Int.ofNat).getD (-1))
  let change (items : List Value) : Run Unit := do
    Run.changeObject address { ← Run.objectAt address with nature := .list items }
  match name with
  | "concat" =>
    let more ← args.mapM fun v => do
      match v with
      | .object a =>
        match (← Run.objectAt a).nature with
        | .list items => return items
        | _ => return [v]
      | _ => return [v]
    Run.makeList (items ++ more.flatten)
  | "includes" =>
    let isNaN (v : Value) : Bool := match v with
      | .number x => x.isNaN
      | _ => false
    return .bool (items.any fun v => Value.same v first || (isNaN v && isNaN first))
  | "indexOf" => return place (items.findIdx? fun v => Value.same v first)
  | "lastIndexOf" =>
    return place ((items.reverse.findIdx? fun v => Value.same v first).map (items.length - 1 - ·))
  | "join" =>
    let sep ← if first = .undefined then pure "," else Run.textOf first
    let texts ← items.mapM fun v => if v.isNothing then pure "" else Run.textOf v
    return .text (sep.intercalate texts)
  | "push" =>
    change (items ++ args)
    return .ofInt (items.length + args.length)
  | "pop" =>
    change items.dropLast
    return items.getLast?.getD .undefined
  | "shift" =>
    change items.tail
    return items.head?.getD .undefined
  | "reverse" =>
    change items.reverse
    return .object address
  | "slice" =>
    let a := relative items.length (← Run.integer args[0]? 0)
    let b := relative items.length (← Run.integer args[1]? items.length)
    Run.makeList ((items.take b).drop a)
  | _ => return .undefined

/-! ## Functions -/

/-- The keys of an object's own members. -/
def Run.keys (v : Value) : Run (List String) := do
  match v with
  | .text s => return (List.range (Text.units s).length).map toString
  | .object address =>
    let o ← Run.objectAt address
    match o.nature with
    | .list items => return (List.range items.length).map toString ++ o.fields.map Prod.fst
    | .error => return []
    | _ => return o.fields.map Prod.fst
  | _ => return []

/-- Applies a function that belongs to no value. -/
def Run.static (name : String) (args : List Value) : Run Value := do
  let first := args.head?.getD .undefined
  let number (f : Double → Double) : Run Value := do return .number (f (← Run.numberOf first))
  match name with
  | "String" =>
    return .text (← if args.isEmpty then pure "" else Run.textOf first)
  | "Number" => return .number (← if args.isEmpty then pure (.zero false) else Run.numberOf first)
  | "Boolean" => return .bool first.isTrue
  | "Array" => Run.makeList args
  | "Object" => if first.isObject then return first else Run.make {}
  | "parseInt" => return .number (leadingInteger (← Run.textOf first) (← Run.integer args[1]? 0))
  | "Number.parseInt" =>
    return .number (leadingInteger (← Run.textOf first) (← Run.integer args[1]? 0))
  | "parseFloat" => return .number (leadingNumber (← Run.textOf first))
  | "Number.parseFloat" => return .number (leadingNumber (← Run.textOf first))
  | "isNaN" => return .bool (← Run.numberOf first).isNaN
  | "isFinite" => return .bool (← Run.numberOf first).isFinite
  | "Number.isInteger" =>
    return .bool (match first with
      | .number x => x.isWhole
      | _ => false)
  | "Number.isNaN" =>
    return .bool (match first with
      | .number x => x.isNaN
      | _ => false)
  | "Number.isFinite" =>
    return .bool (match first with
      | .number x => x.isFinite
      | _ => false)
  | "Math.floor" => number (rounded Double.floor)
  | "Math.ceil" => number (rounded fun x => -x.negate.floor)
  | "Math.round" => number (rounded fun x => (x.add (Double.ofRatio false 1 2)).floor)
  | "Math.trunc" => number (rounded Double.truncate)
  | "Math.abs" => number fun x => if x.isNegative then x.negate else x
  | "Math.sign" =>
    number fun x => if x.isNaN || x.isZero then x else Double.ofInt (if x.isNegative then -1 else 1)
  | "Math.max" => return .number (extreme true (← args.mapM Run.numberOf))
  | "Math.min" => return .number (extreme false (← args.mapM Run.numberOf))
  | "Array.isArray" =>
    match first with
    | .object a =>
      match (← Run.objectAt a).nature with
      | .list _ => return .bool true
      | _ => return .bool false
    | _ => return .bool false
  | "Object.keys" => Run.makeList ((← Run.keys first).map .text)
  | "Object.values" => Run.makeList (← (← Run.keys first).mapM (Run.member first))
  | "String.fromCharCode" =>
    return .text (Text.ofUnits ((← args.mapM Run.numberOf).map fun x => wordNat x % 0x10000))
  | _ =>
    if errorNames.contains name then
      Run.makeError name (← if first = .undefined then pure "" else Run.textOf first)
    else Run.fail "TypeError" (name ++ " is not a function")

/-- Applies a builtin function to a value and arguments. -/
def Run.builtin (name : String) (this : Value) (args : List Value) : Run Value := do
  let first := args.head?.getD .undefined
  match name.splitOn "#" with
  | ["String", key] => Run.textMethod key (← Run.textOf this) args
  | ["Array", key] =>
    match this with
    | .object a =>
      match (← Run.objectAt a).nature with
      | .list items => Run.listMethod key a items args
      | _ => return .undefined
    | _ => return .undefined
  | ["RegExp", key] =>
    let found ← Run.find (some this) (← Run.textOf first)
    if key = "test" then return .bool found.isSome
    else
      match found with
      | some (_, text, _) => Run.makeList [.text (String.ofList text)]
      | none => return .null
  | ["Object", "hasOwnProperty"] => return .bool ((← Run.keys this).contains (← Run.textOf first))
  | ["Object", "toString"] => return .text (← Run.textOf this)
  | ["Object", "valueOf"] => return this
  | _ => Run.static name args

end Sessions.Script
