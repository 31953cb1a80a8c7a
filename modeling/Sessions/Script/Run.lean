import Sessions.Script.Builtin
import Sessions.Script.Grammar

/-!
# Sessions.Script.Run

What scripts mean. `eval` gives the value of a term and `exec` says how a statement ends; both are
given how deep they may go. A script that goes deeper, or that takes too many steps, is stopped.
-/

namespace Sessions.Script

/-- How a statement ends. -/
inductive Flow where
  | normal
  | leave
  | next
  | result (v : Value)

/-- The names that statements declare for the whole function around them. -/
def functionNames : (depth : Nat) → Statement → List String
  | 0, _ => []
  | depth + 1, s =>
    let all (ss : List Statement) : List String := ss.flatMap (functionNames depth)
    match s with
    | .declare .function names => names.map Prod.fst
    | .block ss => all ss
    | .cond _ yes no => functionNames depth yes ++ functionNames depth no
    | .loop _ body => functionNames depth body
    | .loopAfter body _ => functionNames depth body
    | .count start _ _ body => all start ++ functionNames depth body
    | .each how name _ _ body =>
      (if how = .function then [name] else []) ++ functionNames depth body
    | .attempt body _ handler last => all body ++ all (handler.getD []) ++ all (last.getD [])
    | .select _ cases => cases.flatMap fun c => all c.2
    | _ => []

/-- Adds a variable to a scope. -/
def Run.declare (scope : Scope) (name : String) (constant : Bool) (v : Option Value) :
    Run Scope := do
  return (name, ⟨← Run.makeCell v, constant⟩) :: scope

/-- The value of a name. -/
def Run.lookup (scope : Scope) (name : String) : Run Value := do
  match scope.lookup name with
  | some b =>
    match ((← get).cells[b.cell]?).join with
    | some v => return v
    | none => Run.fail "ReferenceError" ("Cannot access '" ++ name ++ "' before initialization")
  | none =>
    match global? name with
    | some v => return v
    | none => Run.fail "ReferenceError" (name ++ " is not defined")

/-- Assigns to a name. -/
def Run.assign (scope : Scope) (name : String) (v : Value) : Run Unit := do
  match scope.lookup name with
  | some b =>
    if b.constant then Run.fail "TypeError" "Assignment to constant variable."
    else Run.changeCell b.cell v
  | none =>
    if (global? name).isSome then
      Run.fail "TypeError" ("Cannot assign to read only property '" ++ name ++ "'")
    else Run.fail "ReferenceError" (name ++ " is not defined")

/-- How many rounds a loop has at most. -/
def roundLimit : Nat := 1000000

mutual

/-- The value of a term. -/
def eval : Nat → Scope → Term → Run Value
  | 0, _, _ => throw .timeout
  | depth + 1, scope, t => do
    match t with
    | .undefined => return .undefined
    | .null => return .null
    | .bool b => return .bool b
    | .number x => return .number x
    | .text s => return .text s
    | .pattern p fold => Run.make { nature := .pattern p fold }
    | .name w => Run.lookup scope w
    | .list items => Run.makeList (← items.mapM fun t => eval depth scope t)
    | .record fields =>
      let fields ← fields.mapM fun f => do return (f.1, ← eval depth scope f.2)
      Run.make { fields := fields.foldl (fun fs f => putField f.1 f.2 fs) [] }
    | .function ws body => Run.make { nature := .function scope ws body }
    | .member t key =>
      let v ← eval depth scope t
      let k ← eval depth scope key
      Run.member v (← Run.textOf k)
    | .softMember t key =>
      let v ← eval depth scope t
      if v.isNothing then return .undefined
      else
        let k ← eval depth scope key
        Run.member v (← Run.textOf k)
    | .invoke (.member t key) args =>
      let this ← eval depth scope t
      let k ← Run.textOf (← eval depth scope key)
      let f ← Run.member this k
      let args ← args.mapM fun t => eval depth scope t
      if f = .undefined then Run.fail "TypeError" ("Object has no member '" ++ k ++ "'")
      else apply depth f this args
    | .invoke (.softMember t key) args =>
      let this ← eval depth scope t
      if this.isNothing then return .undefined
      else
        let k ← Run.textOf (← eval depth scope key)
        let f ← Run.member this k
        let args ← args.mapM fun t => eval depth scope t
        apply depth f this args
    | .invoke f args =>
      let f ← eval depth scope f
      let args ← args.mapM fun t => eval depth scope t
      apply depth f .undefined args
    | .construct f args =>
      let f ← eval depth scope f
      let args ← args.mapM fun t => eval depth scope t
      match f with
      | .builtin _ => apply depth f .undefined args
      | _ =>
        let v ← apply depth f .undefined args
        if v.isObject then return v else Run.make {}
    | .unary .typeOf (.name w) =>
      if (scope.lookup w).isNone && (global? w).isNone then return .text "undefined"
      else return .text (← Run.typeOf (← Run.lookup scope w))
    | .unary op t => Run.unary op (← eval depth scope t)
    | .binary op a b =>
      let x ← eval depth scope a
      let y ← eval depth scope b
      Run.binary op x y
    | .join .both a b =>
      let x ← eval depth scope a
      if x.isTrue then eval depth scope b else return x
    | .join .either a b =>
      let x ← eval depth scope a
      if x.isTrue then return x else eval depth scope b
    | .join .orElse a b =>
      let x ← eval depth scope a
      if x.isNothing then eval depth scope b else return x
    | .choose test yes no =>
      if (← eval depth scope test).isTrue then eval depth scope yes else eval depth scope no
    | .assign target op value =>
      change depth scope target fun old => do
        let v ← eval depth scope value
        let v ← match op with
          | some op => do Run.binary op (← old) v
          | none => pure v
        return (v, v)
    | .step up before target =>
      change depth scope target fun old => do
        let x ← Run.numberOf (← old)
        let y := x.add (Double.ofInt (if up then 1 else -1))
        return (.number y, .number (if before then x else y))
    | .sequence a b =>
      let _ ← eval depth scope a
      eval depth scope b

/-- Changes what a term names; the function is given the old value and says the new one and the
answer. -/
def change : Nat → Scope → Term → (Run Value → Run (Value × Value)) → Run Value
  | 0, _, _, _ => throw .timeout
  | depth + 1, scope, target, f => do
    match target with
    | .name w =>
      let (new, answer) ← f (Run.lookup scope w)
      Run.assign scope w new
      return answer
    | .member t key =>
      let v ← eval depth scope t
      let k ← Run.textOf (← eval depth scope key)
      let (new, answer) ← f (Run.member v k)
      Run.assignMember v k new
      return answer
    | _ => Run.fail "ReferenceError" "Invalid assignment target"

/-- Applies a function. -/
def apply : Nat → Value → Value → List Value → Run Value
  | 0, _, _, _ => throw .timeout
  | depth + 1, f, this, args => do
    Run.tick
    match f with
    | .builtin name =>
      match name.splitOn "#", this with
      | ["Array", key], .object a =>
        match callingMethods.contains key, (← Run.objectAt a).nature with
        | true, .list items =>
          let g := args.head?.getD .undefined
          match key with
          | "some" => return .bool ((← through depth g this (some true) 0 items).any Value.isTrue)
          | "every" => return .bool ((← through depth g this (some false) 0 items).all Value.isTrue)
          | "find" =>
            let answers ← through depth g this (some true) 0 items
            return ((answers.zip items).find? (·.1.isTrue)).map Prod.snd |>.getD .undefined
          | "findIndex" =>
            let answers ← through depth g this (some true) 0 items
            return .ofInt (((answers.findIdx? Value.isTrue).map Int.ofNat).getD (-1))
          | "filter" =>
            let answers ← through depth g this none 0 items
            Run.makeList (((answers.zip items).filter (·.1.isTrue)).map Prod.snd)
          | "map" => Run.makeList (← through depth g this none 0 items)
          | _ =>
            let _ ← through depth g this none 0 items
            return .undefined
        | _, _ => Run.builtin name this args
      | _, _ => Run.builtin name this args
    | .object a =>
      match (← Run.objectAt a).nature with
      | .function scope ws body =>
        let scope ← ws.zipIdx.foldlM
          (fun scope (w, i) => Run.declare scope w false (some (args[i]?.getD .undefined))) scope
        let names := (body.flatMap (functionNames depth)).filter fun w => !ws.contains w
        let scope ← names.eraseDups.foldlM
          (fun scope w => Run.declare scope w false (some .undefined)) scope
        match ← execBlock depth scope body with
        | .result v => return v
        | _ => return .undefined
      | _ => Run.fail "TypeError" "Not a function"
    | _ => Run.fail "TypeError" "Not a function"

/-- Applies a function to the items of a list in turn, up to one whose answer counts as given. -/
def through : Nat → Value → Value → Option Bool → Nat → List Value → Run (List Value)
  | 0, _, _, _, _, _ => throw .timeout
  | _ + 1, _, _, _, _, [] => return []
  | depth + 1, f, list, stop, i, v :: rest => do
    let answer ← apply depth f .undefined [v, .ofInt i, list]
    if stop = some answer.isTrue then return [answer]
    else return answer :: (← through depth f list stop (i + 1) rest)

/-- Executes the statements of a block. -/
def execBlock : Nat → Scope → List Statement → Run Flow
  | 0, _, _ => throw .timeout
  | depth + 1, scope, ss => do
    let scope ← (blockNames ss).foldlM
      (fun scope (w, constant) => Run.declare scope w constant none) scope
    for s in ss do
      match s with
      | .define w ws body =>
        match scope.lookup w with
        | some b => Run.changeCell b.cell (← Run.make { nature := .function scope ws body })
        | none => pure ()
      | _ => pure ()
    execAll depth scope ss

/-- Executes statements until one of them does not end normally. -/
def execAll : Nat → Scope → List Statement → Run Flow
  | 0, _, _ => throw .timeout
  | _ + 1, _, [] => return .normal
  | depth + 1, scope, s :: rest => do
    match ← exec depth scope s with
    | .normal => execAll depth scope rest
    | flow => return flow

/-- Executes the body of a loop once; the answer says how the loop ends, if it does. -/
def round : Nat → Scope → Statement → Run (Option Flow)
  | 0, _, _ => throw .timeout
  | depth + 1, scope, body => do
    match ← exec depth scope body with
    | .leave => return some .normal
    | .result v => return some (.result v)
    | _ => return none

/-- Executes a statement. -/
def exec : Nat → Scope → Statement → Run Flow
  | 0, _, _ => throw .timeout
  | depth + 1, scope, s => do
    match s with
    | .result t => return .result (← eval depth scope t)
    | .raise t => throw (.raised (← eval depth scope t))
    | .perform t =>
      let _ ← eval depth scope t
      return .normal
    | .declare how names =>
      for (w, value) in names do
        match value with
        | some t =>
          let v ← eval depth scope t
          match scope.lookup w with
          | some b => Run.changeCell b.cell v
          | none => pure ()
        | none =>
          match how, scope.lookup w with
          | .function, _ => pure ()
          | _, some b => Run.changeCell b.cell .undefined
          | _, none => pure ()
      return .normal
    | .define _ _ _ => return .normal
    | .block ss => execBlock depth scope ss
    | .cond test yes no =>
      if (← eval depth scope test).isTrue then exec depth scope yes else exec depth scope no
    | .loop test body =>
      Run.iterate
        (do
          Run.tick
          if (← eval depth scope test).isTrue then round depth scope body
          else return some .normal)
        roundLimit
    | .loopAfter body test =>
      Run.iterate
        (do
          Run.tick
          match ← round depth scope body with
          | some flow => return some flow
          | none =>
            if (← eval depth scope test).isTrue then return none else return some .normal)
        roundLimit
    | .count start test update body =>
      let scope ← (blockNames start).foldlM
        (fun scope (w, _) => Run.declare scope w false none) scope
      let _ ← execAll depth scope start
      Run.iterate
        (do
          Run.tick
          let goesOn ← match test with
            | some t => do pure (← eval depth scope t).isTrue
            | none => pure true
          if !goesOn then return some .normal
          else
            match ← round depth scope body with
            | some flow => return some flow
            | none =>
              match update with
              | some t =>
                let _ ← eval depth scope t
                return none
              | none => return none)
        roundLimit
    | .each how w keys source body =>
      let v ← eval depth scope source
      let items ←
        if keys then do pure ((← Run.keys v).map Value.text)
        else
          match v with
          | .text s => pure (s.toList.map fun c => Value.text (String.singleton c))
          | .object a => do
            match (← Run.objectAt a).nature with
            | .list items => pure items
            | _ => Run.fail "TypeError" "object is not iterable"
          | _ => Run.fail "TypeError" "object is not iterable"
      eachItem depth scope how w body items
    | .leave => return .leave
    | .next => return .next
    | .attempt body name handler last =>
      let guarded : Run Flow :=
        match handler with
        | none => execBlock depth scope body
        | some ss =>
          tryCatch (execBlock depth scope body) fun
            | .timeout => throw .timeout
            | .raised v => do
              let scope ← match name with
                | some w => Run.declare scope w false (some v)
                | none => pure scope
              execBlock depth scope ss
      match last with
      | none => guarded
      | some ss =>
        let outcome ← tryCatch (do return Except.ok (← guarded)) fun e => return Except.error e
        match outcome with
        | .error .timeout => throw .timeout
        | _ =>
          match ← execBlock depth scope ss with
          | .normal =>
            match outcome with
            | .ok flow => return flow
            | .error e => throw e
          | flow => return flow
    | .select value cases =>
      let v ← eval depth scope value
      let scope ← (blockNames (cases.flatMap Prod.snd)).foldlM
        (fun scope (w, constant) => Run.declare scope w constant none) scope
      let otherwise := (cases.findIdx? fun (t, _) => t.isNone).map fun n => cases.drop n
      match (← chosen depth scope v cases).or otherwise with
      | none => return .normal
      | some cases =>
        match ← execAll depth scope (cases.flatMap Prod.snd) with
        | .leave => return .normal
        | flow => return flow

/-- The cases of a selection from the first one on whose value is the given one. -/
def chosen : Nat → Scope → Value → List (Option Term × List Statement) →
    Run (Option (List (Option Term × List Statement)))
  | 0, _, _, _ => throw .timeout
  | _ + 1, _, _, [] => return none
  | depth + 1, scope, v, c :: rest => do
    match c.1 with
    | some t =>
      if Value.same v (← eval depth scope t) then return some (c :: rest)
      else chosen depth scope v rest
    | none => chosen depth scope v rest

/-- Executes the body of a loop for each item. -/
def eachItem : Nat → Scope → Declaration → String → Statement → List Value → Run Flow
  | 0, _, _, _, _, _ => throw .timeout
  | _ + 1, _, _, _, _, [] => return .normal
  | depth + 1, scope, how, w, body, v :: rest => do
    Run.tick
    let inner ← match how, scope.lookup w with
      | .function, some b => do
        Run.changeCell b.cell v
        pure scope
      | _, _ => Run.declare scope w (how = .constant) (some v)
    match ← round depth inner body with
    | some flow => return flow
    | none => eachItem depth scope how w body rest

end

/-- How deep a script may go. -/
def depthLimit : Nat := 4000

/-- How many steps a script may take. -/
def stepLimit : Nat := 200000

/-- Runs a script with one given object, and gives its answer and the machine afterwards. -/
def run (s : Script) (name : String) (given : List (String × Value)) :
    Except Stop Value × Machine :=
  let body : Run Value := do
    let v ← Run.make { fields := given }
    let scope ← Run.declare [] name false (some v)
    let f ← Run.make { nature := .function scope [] s.statements }
    apply depthLimit f .undefined []
  body.run.run { steps := stepLimit }

end Sessions.Script
