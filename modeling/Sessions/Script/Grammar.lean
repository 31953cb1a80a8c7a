import Sessions.Script.Token

/-!
# Sessions.Script.Grammar

The grammar of scripts. Every reader takes tokens and gives back what it read and the tokens that are
left; nothing is read from tokens that do not fit. A statement may leave out its semicolon before a
closing brace, before a new line and at the end.
-/

namespace Sessions.Script

/-- Words that can not name a value. -/
def reserved : List String :=
  ["break", "case", "catch", "class", "const", "continue", "debugger", "default", "delete", "do",
   "else", "enum", "export", "extends", "false", "finally", "for", "function", "if", "implements",
   "import", "in", "instanceof", "interface", "let", "new", "null", "package", "private",
   "protected", "public", "return", "static", "super", "switch", "this", "throw", "true", "try",
   "typeof", "var", "void", "while", "with", "yield"]

def isName (w : String) : Bool :=
  !reserved.contains w

/-- Takes a mark. -/
def mark? (m : String) : List Placed → Option (List Placed)
  | ⟨.mark n, _⟩ :: rest => if n = m then some rest else none
  | _ => none

/-- Takes a word. -/
def word? (w : String) : List Placed → Option (List Placed)
  | ⟨.word v, _⟩ :: rest => if v = w then some rest else none
  | _ => none

/-- Takes a name. -/
def name? : List Placed → Option (String × List Placed)
  | ⟨.word w, _⟩ :: rest => if isName w then some (w, rest) else none
  | _ => none

/-- Names between commas up to a closing parenthesis. -/
def parameters? : (bound : Nat) → List Placed → Option (List String × List Placed)
  | 0, _ => none
  | bound + 1, ts =>
    match mark? ")" ts with
    | some rest => some ([], rest)
    | none =>
      match name? ts with
      | none => none
      | some (w, rest) =>
        match mark? ")" rest, mark? "," rest with
        | some rest, _ => some ([w], rest)
        | none, some rest => (parameters? bound rest).map fun (ws, rest) => (w :: ws, rest)
        | none, none => none

/-- The parameters of a short function, and what follows its arrow. -/
def arrow? (ts : List Placed) : Option (List String × List Placed) :=
  let afterArrow (ws : List String) : List Placed → Option (List String × List Placed)
    | ⟨.mark "=>", false⟩ :: rest => some (ws, rest)
    | _ => none
  match name? ts with
  | some (w, rest) => afterArrow [w] rest
  | none =>
    match (mark? "(" ts).bind fun rest => parameters? rest.length rest with
    | some (ws, rest) => afterArrow ws rest
    | none => none

/-! ## Operators -/

inductive Operator where
  | binary (op : Binary)
  | join (op : Junction)

/-- The operators between two values, with how tightly they bind. -/
def operators : List (String × Nat × Operator) :=
  [("??", 1, .join .orElse), ("||", 2, .join .either), ("&&", 3, .join .both),
   ("|", 4, .binary .or), ("^", 5, .binary .xor), ("&", 6, .binary .and),
   ("==", 7, .binary .like), ("!=", 7, .binary .unlike), ("===", 7, .binary .same),
   ("!==", 7, .binary .different), ("<", 8, .binary .less), (">", 8, .binary .greater),
   ("<=", 8, .binary .lessEq), (">=", 8, .binary .greaterEq), ("in", 8, .binary .member),
   ("instanceof", 8, .binary .kind), ("<<", 9, .binary .shiftLeft), (">>", 9, .binary .shiftRight),
   (">>>", 9, .binary .shiftRightZero), ("+", 10, .binary .add), ("-", 10, .binary .sub),
   ("*", 11, .binary .mul), ("/", 11, .binary .div), ("%", 11, .binary .rem)]

def operator? : List Placed → Option (Nat × Operator × List Placed)
  | ⟨.mark m, _⟩ :: rest => (operators.lookup m).map fun (n, op) => (n, op, rest)
  | ⟨.word w, _⟩ :: rest => (operators.lookup w).map fun (n, op) => (n, op, rest)
  | _ => none

def Operator.apply (a b : Term) : Operator → Term
  | .binary op => .binary op a b
  | .join op => .join op a b

/-- The marks of an assignment with the operator that they apply. -/
def assignments : List (String × Option Binary) :=
  [("=", none), ("+=", some .add), ("-=", some .sub), ("*=", some .mul), ("/=", some .div),
   ("%=", some .rem), ("&=", some .and), ("|=", some .or), ("^=", some .xor),
   ("<<=", some .shiftLeft), (">>=", some .shiftRight), (">>>=", some .shiftRightZero)]

def assignment? : List Placed → Option (Option Binary × List Placed)
  | ⟨.mark m, _⟩ :: rest => (assignments.lookup m).map (·, rest)
  | _ => none

def unaries : List (String × Unary) :=
  [("!", .not), ("-", .negate), ("+", .plus), ("~", .complement), ("typeof", .typeOf),
   ("void", .void)]

def unary? : List Placed → Option (Unary × List Placed)
  | ⟨.mark m, _⟩ :: rest => (unaries.lookup m).map (·, rest)
  | ⟨.word w, _⟩ :: rest => (unaries.lookup w).map (·, rest)
  | _ => none

/-- Whether something can be assigned to a term. -/
def Term.isTarget : Term → Bool
  | .name w => w ≠ "eval" && w ≠ "arguments"
  | .member _ _ => true
  | _ => false

/-! ## Ends of statements -/

/-- The end of a simple statement. -/
def statementEnd? : List Placed → Option (List Placed)
  | [] => some []
  | ⟨.mark ";", _⟩ :: rest => some rest
  | ⟨.mark "\x7d", l⟩ :: rest => some (⟨.mark "\x7d", l⟩ :: rest)
  | ⟨t, true⟩ :: rest => some (⟨t, true⟩ :: rest)
  | _ => none

/-- Whether nothing more of a statement follows on the line. -/
def endsHere (ts : List Placed) : Bool :=
  (statementEnd? ts).isSome

/-- Where a statement stands: whether a loop or a selection can be left there, and whether a loop can
go on to its next round. -/
structure Place where
  leaves : Bool := false
  nexts : Bool := false

/-- The names that statements declare in their own block. -/
def blockNames (ss : List Statement) : List (String × Bool) :=
  ss.flatMap fun
    | .declare .block names => names.map fun (w, _) => (w, false)
    | .declare .constant names => names.map fun (w, _) => (w, true)
    | .define name _ _ => [(name, false)]
    | _ => []

/-- Statements of one block, unless they declare a name twice. -/
def asBlock? (ss : List Statement) : Option (List Statement) :=
  if ((blockNames ss).map Prod.fst).Nodup then some ss else none

mutual

def primary : Nat → List Placed → Option (Term × List Placed)
  | 0, _ => none
  | bound + 1, ts =>
    match ts with
    | ⟨.word w, _⟩ :: rest =>
      match w with
      | "true" => some (.bool true, rest)
      | "false" => some (.bool false, rest)
      | "null" => some (.null, rest)
      | "this" => some (.undefined, rest)
      | "function" =>
        let rest := ((name? rest).map Prod.snd).getD rest
        (callable bound rest).map fun ((ws, ss), rest) => (.function ws ss, rest)
      | "new" =>
        match (primary bound rest).bind fun (t, rest) => members bound t rest with
        | none => none
        | some (t, rest) =>
          match mark? "(" rest with
          | some rest => (items bound ")" rest).map fun (as, rest) => (.construct t as, rest)
          | none => some (.construct t [], rest)
      | _ => if isName w then some (.name w, rest) else none
    | ⟨.number x, _⟩ :: rest => some (.number x, rest)
    | ⟨.text s, _⟩ :: rest => some (.text s, rest)
    | ⟨.pattern p fold, _⟩ :: rest => some (.pattern p fold, rest)
    | ⟨.mark "(", _⟩ :: rest =>
      (expression bound rest).bind fun (t, rest) => (mark? ")" rest).map (t, ·)
    | ⟨.mark "[", _⟩ :: rest => (items bound "]" rest).map fun (ts, rest) => (.list ts, rest)
    | ⟨.mark "\x7b", _⟩ :: rest => (fields bound rest).map fun (fs, rest) => (.record fs, rest)
    | _ => none

/-- The parameters in parentheses and the body of a function. -/
def callable : Nat → List Placed → Option ((List String × List Statement) × List Placed)
  | 0, _ => none
  | bound + 1, ts =>
    match (mark? "(" ts).bind fun rest => parameters? rest.length rest with
    | none => none
    | some (ws, rest) =>
      match (mark? "\x7b" rest).bind fun rest => blockBody bound {} rest with
      | none => none
      | some (ss, rest) => (mark? "\x7d" rest).map fun rest => ((ws, ss), rest)

/-- Terms between commas up to a closing mark. -/
def items : Nat → String → List Placed → Option (List Term × List Placed)
  | 0, _, _ => none
  | bound + 1, close, ts =>
    match mark? close ts with
    | some rest => some ([], rest)
    | none =>
      match assignment bound ts with
      | none => none
      | some (t, rest) =>
        match mark? close rest, mark? "," rest with
        | some rest, _ => some ([t], rest)
        | none, some rest => (items bound close rest).map fun (ts, rest) => (t :: ts, rest)
        | none, none => none

/-- The fields of a record up to its closing brace. -/
def fields : Nat → List Placed → Option (List (String × Term) × List Placed)
  | 0, _ => none
  | bound + 1, ts =>
    match mark? "\x7d" ts with
    | some rest => some ([], rest)
    | none =>
      let field : Option ((String × Term) × List Placed) :=
        match ts with
        | ⟨.word w, _⟩ :: ⟨.mark ":", _⟩ :: rest =>
          (assignment bound rest).map fun (t, rest) => ((w, t), rest)
        | ⟨.text s, _⟩ :: ⟨.mark ":", _⟩ :: rest =>
          (assignment bound rest).map fun (t, rest) => ((s, t), rest)
        | ⟨.word w, _⟩ :: rest => if isName w then some ((w, .name w), rest) else none
        | _ => none
      match field with
      | none => none
      | some (f, rest) =>
        match mark? "\x7d" rest, mark? "," rest with
        | some rest, _ => some ([f], rest)
        | none, some rest => (fields bound rest).map fun (fs, rest) => (f :: fs, rest)
        | none, none => none

/-- Members after a value. -/
def members : Nat → Term → List Placed → Option (Term × List Placed)
  | 0, _, _ => none
  | bound + 1, t, ts =>
    match ts with
    | ⟨.mark ".", _⟩ :: ⟨.word w, _⟩ :: rest => members bound (.member t (.text w)) rest
    | ⟨.mark ".", _⟩ :: _ => none
    | ⟨.mark "?.", _⟩ :: ⟨.word w, _⟩ :: rest => members bound (.softMember t (.text w)) rest
    | ⟨.mark "?.", _⟩ :: ⟨.mark "[", _⟩ :: rest =>
      match (expression bound rest).bind fun (k, rest) => (mark? "]" rest).map (k, ·) with
      | some (k, rest) => members bound (.softMember t k) rest
      | none => none
    | ⟨.mark "[", _⟩ :: rest =>
      match (expression bound rest).bind fun (k, rest) => (mark? "]" rest).map (k, ·) with
      | some (k, rest) => members bound (.member t k) rest
      | none => none
    | _ => some (t, ts)

/-- Members and calls after a value. -/
def suffixes : Nat → Term → List Placed → Option (Term × List Placed)
  | 0, _, _ => none
  | bound + 1, t, ts =>
    match members bound t ts with
    | none => none
    | some (t, rest) =>
      match mark? "(" rest with
      | none => some (t, rest)
      | some rest =>
        match items bound ")" rest with
        | some (as, rest) => suffixes bound (.invoke t as) rest
        | none => none

/-- A value with the marks that stand before and after it. -/
def operand : Nat → List Placed → Option (Term × List Placed)
  | 0, _ => none
  | bound + 1, ts =>
    let stepped (up : Bool) (rest : List Placed) : Option (Term × List Placed) :=
      (operand bound rest).bind fun (t, rest) =>
        if t.isTarget then some (.step up false t, rest) else none
    match ts with
    | ⟨.mark "++", _⟩ :: rest => stepped true rest
    | ⟨.mark "--", _⟩ :: rest => stepped false rest
    | _ =>
      match unary? ts with
      | some (op, rest) => (operand bound rest).map fun (t, rest) => (.unary op t, rest)
      | none =>
        match (primary bound ts).bind fun (t, rest) => suffixes bound t rest with
        | some (t, ⟨.mark "++", false⟩ :: rest) =>
          if t.isTarget then some (.step true true t, rest) else none
        | some (t, ⟨.mark "--", false⟩ :: rest) =>
          if t.isTarget then some (.step false true t, rest) else none
        | r => r

/-- Operators after a value that bind at least so tightly. -/
def operations : Nat → (least : Nat) → Term → List Placed → Option (Term × List Placed)
  | 0, _, _, _ => none
  | bound + 1, least, a, ts =>
    match operator? ts with
    | none => some (a, ts)
    | some (n, op, rest) =>
      if n < least then some (a, ts)
      else
        match (operand bound rest).bind fun (b, rest) => operations bound (n + 1) b rest with
        | some (b, rest) => operations bound least (op.apply a b) rest
        | none => none

def conditional : Nat → List Placed → Option (Term × List Placed)
  | 0, _ => none
  | bound + 1, ts =>
    match (operand bound ts).bind fun (t, rest) => operations bound 0 t rest with
    | none => none
    | some (t, rest) =>
      match mark? "?" rest with
      | none => some (t, rest)
      | some rest =>
        match (assignment bound rest).bind fun (a, rest) => (mark? ":" rest).map (a, ·) with
        | some (a, rest) => (assignment bound rest).map fun (b, rest) => (.choose t a b, rest)
        | none => none

/-- A term without a comma. -/
def assignment : Nat → List Placed → Option (Term × List Placed)
  | 0, _ => none
  | bound + 1, ts =>
    match arrow? ts with
    | some (ws, rest) =>
      match mark? "\x7b" rest with
      | some rest =>
        (blockBody bound {} rest).bind fun (ss, rest) =>
          (mark? "\x7d" rest).map (.function ws ss, ·)
      | none =>
        (assignment bound rest).map fun (t, rest) => (.function ws [.result t], rest)
    | none =>
      match conditional bound ts with
      | none => none
      | some (t, rest) =>
        match assignment? rest with
        | none => some (t, rest)
        | some (op, rest) =>
          if t.isTarget then
            (assignment bound rest).map fun (v, rest) => (.assign t op v, rest)
          else none

def expression : Nat → List Placed → Option (Term × List Placed)
  | 0, _ => none
  | bound + 1, ts =>
    match assignment bound ts with
    | none => none
    | some (a, rest) =>
      match mark? "," rest with
      | some rest => (expression bound rest).map fun (b, rest) => (.sequence a b, rest)
      | none => some (a, rest)

/-- A term in parentheses. -/
def condition : Nat → List Placed → Option (Term × List Placed)
  | 0, _ => none
  | bound + 1, ts =>
    ((mark? "(" ts).bind fun rest => expression bound rest).bind fun (t, rest) =>
      (mark? ")" rest).map (t, ·)

/-- Declared names between commas. -/
def declared : Nat → Declaration → List Placed → Option (List (String × Option Term) × List Placed)
  | 0, _, _ => none
  | bound + 1, how, ts =>
    match name? ts with
    | none => none
    | some (w, rest) =>
      let value : Option (Option Term × List Placed) :=
        match mark? "=" rest with
        | some rest => (assignment bound rest).map fun (t, rest) => (some t, rest)
        | none => if how = .constant then none else some (none, rest)
      match value with
      | none => none
      | some (v, rest) =>
        match mark? "," rest with
        | some rest => (declared bound how rest).map fun (ds, rest) => ((w, v) :: ds, rest)
        | none => some ([(w, v)], rest)

/-- The head of a loop after its opening parenthesis, given how to read its body. -/
def loopHead : Nat → Place → List Placed → Option (Statement × List Placed)
  | 0, _, _ => none
  | bound + 1, place, ts =>
    let counted (start : List Statement) (rest : List Placed) : Option (Statement × List Placed) := do
      let (test, rest) ← match mark? ";" rest with
        | some rest => some (none, rest)
        | none => do
          let (t, rest) ← expression bound rest
          let rest ← mark? ";" rest
          some (some t, rest)
      let (update, rest) ← match mark? ")" rest with
        | some rest => some (none, rest)
        | none => do
          let (t, rest) ← expression bound rest
          let rest ← mark? ")" rest
          some (some t, rest)
      let (body, rest) ← statement bound place rest
      some (.count start test update body, rest)
    let through (how : Declaration) (w : String) (keys : Bool) (rest : List Placed) :
        Option (Statement × List Placed) := do
      let (t, rest) ← expression bound rest
      let rest ← mark? ")" rest
      let (body, rest) ← statement bound place rest
      some (.each how w keys t body, rest)
    let declaring (how : Declaration) (rest : List Placed) : Option (Statement × List Placed) :=
      match rest with
      | ⟨.word w, _⟩ :: ⟨.word "in", _⟩ :: more => if isName w then through how w true more else none
      | ⟨.word w, _⟩ :: ⟨.word "of", _⟩ :: more => if isName w then through how w false more else none
      | _ => do
        let (ds, rest) ← declared bound how rest
        let rest ← mark? ";" rest
        counted [.declare how ds] rest
    match ts with
    | ⟨.word "var", _⟩ :: rest => declaring .function rest
    | ⟨.word "let", _⟩ :: rest => declaring .block rest
    | ⟨.word "const", _⟩ :: rest => declaring .constant rest
    | ⟨.mark ";", _⟩ :: rest => counted [] rest
    | _ => do
      let (t, rest) ← expression bound ts
      let rest ← mark? ";" rest
      counted [.perform t] rest

/-- The cases of a selection up to its closing brace. -/
def cases : Nat → Place → List Placed → Option (List (Option Term × List Statement) × List Placed)
  | 0, _, _ => none
  | bound + 1, place, ts =>
    match mark? "\x7d" ts with
    | some rest => some ([], rest)
    | none =>
      let head : Option (Option Term × List Placed) :=
        match ts with
        | ⟨.word "case", _⟩ :: rest => (expression bound rest).map fun (t, rest) => (some t, rest)
        | ⟨.word "default", _⟩ :: rest => some (none, rest)
        | _ => none
      match head.bind fun (t, rest) => (mark? ":" rest).map (t, ·) with
      | none => none
      | some (t, rest) =>
        match blockBody bound { place with leaves := true } rest with
        | none => none
        | some (ss, rest) => (cases bound place rest).map fun (cs, rest) => ((t, ss) :: cs, rest)

/-- Statements in braces. -/
def braces : Nat → Place → List Placed → Option (List Statement × List Placed)
  | 0, _, _ => none
  | bound + 1, place, ts =>
    ((mark? "\x7b" ts).bind fun rest => blockBody bound place rest).bind fun (ss, rest) =>
      (mark? "\x7d" rest).map (ss, ·)

def statement : Nat → Place → List Placed → Option (Statement × List Placed)
  | 0, _, _ => none
  | bound + 1, place, ts =>
    let round : Place := ⟨true, true⟩
    let declaration (how : Declaration) (rest : List Placed) : Option (Statement × List Placed) := do
      let (ds, rest) ← declared bound how rest
      let rest ← statementEnd? rest
      some (.declare how ds, rest)
    match ts with
    | ⟨.mark ";", _⟩ :: rest => some (.block [], rest)
    | ⟨.mark "\x7b", _⟩ :: _ => (braces bound place ts).map fun (ss, rest) => (.block ss, rest)
    | ⟨.word "return", _⟩ :: rest =>
      if endsHere rest then (statementEnd? rest).map fun rest => (.result .undefined, rest)
      else do
        let (t, rest) ← expression bound rest
        let rest ← statementEnd? rest
        some (.result t, rest)
    | ⟨.word "throw", _⟩ :: rest =>
      if endsHere rest then none
      else do
        let (t, rest) ← expression bound rest
        let rest ← statementEnd? rest
        some (.raise t, rest)
    | ⟨.word "var", _⟩ :: rest => declaration .function rest
    | ⟨.word "let", _⟩ :: rest => declaration .block rest
    | ⟨.word "const", _⟩ :: rest => declaration .constant rest
    | ⟨.word "function", _⟩ :: rest => do
      let (w, rest) ← name? rest
      let ((ws, ss), rest) ← callable bound rest
      some (.define w ws ss, rest)
    | ⟨.word "if", _⟩ :: rest => do
      let (t, rest) ← condition bound rest
      let (yes, rest) ← statement bound place rest
      match word? "else" rest with
      | some rest => do
        let (no, rest) ← statement bound place rest
        some (.cond t yes no, rest)
      | none => some (.cond t yes (.block []), rest)
    | ⟨.word "while", _⟩ :: rest => do
      let (t, rest) ← condition bound rest
      let (body, rest) ← statement bound round rest
      some (.loop t body, rest)
    | ⟨.word "do", _⟩ :: rest => do
      let (body, rest) ← statement bound round rest
      let rest ← word? "while" rest
      let (t, rest) ← condition bound rest
      some (.loopAfter body t, (mark? ";" rest).getD rest)
    | ⟨.word "for", _⟩ :: rest => do
      let rest ← mark? "(" rest
      loopHead bound round rest
    | ⟨.word "break", _⟩ :: rest =>
      if place.leaves then (statementEnd? rest).map (.leave, ·) else none
    | ⟨.word "continue", _⟩ :: rest =>
      if place.nexts then (statementEnd? rest).map (.next, ·) else none
    | ⟨.word "switch", _⟩ :: rest => do
      let (t, rest) ← condition bound rest
      let rest ← mark? "\x7b" rest
      let (cs, rest) ← cases bound place rest
      if 1 < (cs.filter fun c => c.1.isNone).length then none else some (.select t cs, rest)
    | ⟨.word "try", _⟩ :: rest => do
      let (body, rest) ← braces bound place rest
      let (name, handler, rest) ← match word? "catch" rest with
        | none => some (none, none, rest)
        | some rest =>
          match mark? "(" rest with
          | none => do
            let (ss, rest) ← braces bound place rest
            some (none, some ss, rest)
          | some rest => do
            let (w, rest) ← name? rest
            let rest ← mark? ")" rest
            let (ss, rest) ← braces bound place rest
            some (some w, some ss, rest)
      let (last, rest) ← match word? "finally" rest with
        | none => some (none, rest)
        | some rest => (braces bound place rest).map fun (ss, rest) => (some ss, rest)
      if handler.isNone && last.isNone then none else some (.attempt body name handler last, rest)
    | _ => do
      let (t, rest) ← expression bound ts
      let rest ← statementEnd? rest
      some (.perform t, rest)

/-- Statements up to the end of a block, of a case or of the script. -/
def blockBody : Nat → Place → List Placed → Option (List Statement × List Placed)
  | 0, _, _ => none
  | bound + 1, place, ts =>
    let readOn (ts : List Placed) : Option (List Statement × List Placed) :=
      match statement bound place ts with
      | none => none
      | some (s, rest) =>
        (blockBody bound place rest).bind fun (more, rest) =>
          (asBlock? (s :: more)).map (·, rest)
    match ts with
    | [] => some ([], [])
    | ⟨.mark "\x7d", _⟩ :: _ => some ([], ts)
    | ⟨.word "case", _⟩ :: _ => some ([], ts)
    | ⟨.word "default", _⟩ :: _ => some ([], ts)
    | _ => readOn ts

end

/-- Reads a script. -/
def parse? (source : String) : Option Script := do
  let cs := source.toList
  let ts ← Token.scan (cs.length + 1) true none cs
  match blockBody (16 * ts.length + 16) {} ts with
  | some (ss, []) => some ⟨ss⟩
  | _ => none

end Sessions.Script
