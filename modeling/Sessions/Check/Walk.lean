import Sessions.Check.Diagnostic
import Sessions.Correlation.Table
import Sessions.Facts.Merge
import Sessions.Program.Mode
import Sessions.Program.Activity

/-!
# Sessions.Check.Walk

The walk over activities that computes facts and finds problems.

Facts of definitions are computed once and kept in a table. A definition that is still being walked
when it is called again contributes no facts. The walk of an activity is structural and takes the
look-up of definitions as a parameter (`Setting.lookup`); `define` ties the two together by
recursion on the number of definitions that may still be opened, which never runs out because each
one is opened inside different other ones.

The flag `starter` says that the input which starts a session has not been met yet.
-/

namespace Sessions.Check

/-- The answer to whether a call yields a fresh value, with a remark for the log. -/
structure Judgement where
  fresh : Bool
  remark : Option String := none
deriving DecidableEq, Repr

/-- Decides whether a call to an operation of a service yields a fresh value. -/
abbrev Recogniser := (service operation : String) → Judgement

/-- What a walk has found so far: the facts of finished definitions, the definitions that are
being walked, the diagnostics, and all that is worth logging. -/
structure Progress where
  table : List (String × Facts) := []
  active : List String := []
  diagnostics : List Diagnostic := []
  log : List String := []
deriving Inhabited

/-- A computation that makes progress. -/
abbrev Walk := StateM Progress

/-- Writes a line to the log. -/
def note (line : String) : Walk Unit :=
  modify fun s => { s with log := s.log ++ [line] }

/-- Reports a problem, in the diagnostics and in the log. -/
def report (loc : Location) (p : Problem) : Walk Unit :=
  let d := Diagnostic.ofProblem loc p
  modify fun s => { s with
    diagnostics := s.diagnostics ++ [d]
    log := s.log ++ [d.render] }

/-- What a walk depends on and does not change. -/
structure Setting where
  mode : Mode
  correlation : Option Correlation.Table
  fresh : Recogniser
  /-- The facts of a definition; nothing for an unknown name. -/
  lookup : String → Walk (Option Facts)

/-- Initialising the same correlation path twice. -/
def reportClashes : List Path → Walk Unit
  | [] => pure ()
  | p :: rest => do
    report p.loc (.initialisedTwice p)
    reportClashes rest

/-- Facts of two parts that run one after the other. -/
def inSequence (a b : Facts) : Walk Facts := do
  let (r, conflicts) := a.sequence b
  reportClashes conflicts
  return r

/-- Facts of two parts that run in no relative order. -/
def inParallel (a b : Facts) : Walk Facts := do
  let (r, conflicts) := a.parallel b
  reportClashes conflicts
  return r

/-- Reports the paths over which branches disagree, each key once; returns the keys reported. -/
def reportMismatches (branching : Branching) : List String → List Path → Walk (List String)
  | reported, [] => pure reported
  | reported, p :: rest =>
    if reported.contains p.key then reportMismatches branching reported rest
    else do
      report p.loc (.branchesDisagree branching p)
      reportMismatches branching (p.key :: reported) rest

/-- Loops may not initialise correlation variables. -/
def forbidInit (loc : Location) (f : Facts) : Walk Unit :=
  if f.providedCorr.isEmpty then pure ()
  else report loc (.initialisedInLoop f.providedCorr.texts)

/-- The facts of an input operation: it provides the variables of its correlation set when it
starts a session, and needs them otherwise. What comes with a message is not fresh. -/
def input (w : Setting) (loc : Location) (operation : String) (target : Option Path)
    (starter : Bool) : Walk Facts := do
  match target with
  | some p => if p.isCorrelation then report loc (.receivesOn operation p)
  | none => pure ()
  if w.mode = .single then return Facts.empty
  let set := w.correlation.bind (·.setFor? operation)
  let paths := (set.map (·.paths)).getD []
  if !starter && paths.isEmpty then report loc (.noSet operation)
  return paths.foldl
    (fun f p => if starter then f.provide (p.relocate loc) false else f.need (p.relocate loc))
    Facts.empty

/-- What an assignment provides, if anything, and whether the value is fresh: its target has to be
static, and its value a literal, a fresh token or the target itself counted up or down. -/
def assigned (target : Path) (value : Expr) : Option Bool :=
  if target.isStatic then
    match value with
    | .constant _ _ => some false
    | .fresh _ => some true
    | .increment _ p _ _ => if p.same target then some false else none
    | _ => none
  else none

/-- The facts of an assignment. -/
def assignment (loc : Location) (target : Path) (op : String) (value : Expr) : Walk Facts := do
  if op ≠ "" && op ≠ "=" then
    if target.isCorrelation then report loc (.updated target op)
    return Facts.empty
  match assigned target value with
  | some fresh => return Facts.empty.provide target fresh
  | none =>
    if target.isCorrelation then report loc (.notLiteral target)
    return Facts.empty

mutual

/-- The facts of an activity, and whether the input that starts a session is still to come. -/
def walk (w : Setting) : Activity → (starter : Bool) → Walk (Facts × Bool)
  | .missing, starter => return (Facts.empty, starter)
  | .sequence _ [], starter => return (Facts.empty, starter)
  | .sequence _ (p :: rest), starter => do
    let (f, starter) ← walk w p starter
    walkSequence w rest f starter
  | .parallel _ [], starter => return (Facts.empty, starter)
  | .parallel _ (p :: rest), starter => do
    let (f, starter) ← walk w p starter
    walkParallel w rest f starter
  | .choice _ [], starter => return (Facts.empty, starter)
  | .choice _ (⟨guard, body⟩ :: rest), starter => do
    let (g, s) ← walk w guard starter
    let (b, _) ← walk w body s
    let f ← inSequence g b
    let f ← walkBranches w rest starter f []
    return (f, false)
  | .cond _ [] otherwise, starter => walk w otherwise starter
  | .cond _ (⟨_, body⟩ :: rest) otherwise, starter => do
    let (f, s) ← walk w body starter
    let (f, s, reported) ← walkArms w rest starter f (starter && s) []
    let (g, s') ← walk w otherwise starter
    let (f, mismatched) := f.choice g
    let _ ← reportMismatches .cond reported mismatched
    return (f, s && s')
  | .whileLoop l _ body, starter => do
    let (f, starter) ← walk w body starter
    forbidInit l f
    return (f, starter)
  | .forEach l _ _ body, starter => do
    let (f, starter) ← walk w body starter
    forbidInit l f
    return (f, starter)
  | .forLoop l first _ post body, starter => do
    let (a, starter) ← walk w first starter
    let (b, starter) ← walk w body starter
    let (c, starter) ← walk w post starter
    let turn ← inSequence b c
    forbidInit l turn
    let f ← inSequence a turn
    return (f, starter)
  | .call l name, starter => do
    match ← w.lookup name with
    | some f => return (f, starter)
    | none =>
      report l (.noDefinition name)
      return (Facts.empty, starter)
  | .oneWay l op target, starter => do
    let f ← input w l op target starter
    return (f, false)
  | .requestResponse l op target _ handler, starter => do
    let f ← input w l op target starter
    let (b, _) ← walk w handler false
    return (f.handler b, false)
  | .solicitResponse _ op port _ target, starter => do
    match target with
    | some p =>
      if p.isCorrelation then
        let j := w.fresh port op
        match j.remark with
        | some line => note line
        | none => pure ()
        return (Facts.empty.provide p j.fresh, starter)
      else return (Facts.empty, starter)
    | none => return (Facts.empty, starter)
  | .assign l target op value, starter => do
    let f ← assignment l target op value
    return (f, starter)
  | .increment l p _ _, starter => do
    if p.isCorrelation then report l (.incremented p)
    return (Facts.empty, starter)
  | .scope _ _ body, starter => walk w body starter
  | .synchronized _ _ body, starter => walk w body starter
  | .install _ handlers, starter => do
    walkHandlers w handlers
    return (Facts.empty, starter)
  | .pointer _ left right, starter =>
    return ((Facts.empty.invalidate right).invalidate left, starter)
  | .deepCopy _ left right, starter =>
    return ((Facts.empty.invalidate right).invalidate left, starter)
  | .undef _ target, starter => return (Facts.empty.invalidate target, starter)
  | .notification _ _ _ _, starter => return (Facts.empty, starter)
  | .spawn _ _, starter => return (Facts.empty, starter)
  | .nothing _, starter => return (Facts.empty, starter)
  | .exit _, starter => return (Facts.empty, starter)
  | .throw _ _, starter => return (Facts.empty, starter)
  | .compensate _ _, starter => return (Facts.empty, starter)
  | .linkIn _ _, starter => return (Facts.empty, starter)
  | .linkOut _ _, starter => return (Facts.empty, starter)
  | .run _ _, starter => return (Facts.empty, starter)
  | .currentHandler _, starter => return (Facts.empty, starter)

/-- The rest of a sequence, after the facts of what ran already. -/
def walkSequence (w : Setting) : List Activity → Facts → (starter : Bool) → Walk (Facts × Bool)
  | [], f, starter => return (f, starter)
  | p :: rest, f, starter => do
    let (g, starter) ← walk w p starter
    let f ← inSequence f g
    walkSequence w rest f starter

/-- The rest of a parallel block. -/
def walkParallel (w : Setting) : List Activity → Facts → (starter : Bool) → Walk (Facts × Bool)
  | [], f, starter => return (f, starter)
  | p :: rest, f, starter => do
    let (g, starter) ← walk w p starter
    let f ← inParallel f g
    walkParallel w rest f starter

/-- The rest of a choice. A choice that starts the session may bind a different set in each of its
branches. -/
def walkBranches (w : Setting) : List Branch → (starter : Bool) → Facts → List String → Walk Facts
  | [], _, f, _ => return f
  | ⟨guard, body⟩ :: rest, starter, f, reported => do
    let (g, s) ← walk w guard starter
    let (b, _) ← walk w body s
    let r ← inSequence g b
    let (f, mismatched) := f.choice r
    let reported ← if starter then pure reported
      else reportMismatches .choice reported mismatched
    walkBranches w rest starter f reported

/-- The rest of the arms of a conditional, all but the last activity. The flag `after` says that no
arm so far has met the input that starts a session. -/
def walkArms (w : Setting) : List Arm → (starter : Bool) → Facts → (after : Bool) → List String →
    Walk (Facts × Bool × List String)
  | [], _, f, after, reported => return (f, after, reported)
  | ⟨_, body⟩ :: rest, starter, f, after, reported => do
    let (g, s) ← walk w body starter
    let (f, mismatched) := f.choice g
    let reported ← reportMismatches .cond reported mismatched
    walkArms w rest starter f (after && s) reported

/-- Fault handlers run only on faults, so nothing they do is certain; their problems count. -/
def walkHandlers (w : Setting) : List Handler → Walk Unit
  | [] => return ()
  | ⟨_, body⟩ :: rest => do
    let _ ← walk w body false
    walkHandlers w rest

end

/-- The definitions of a program by name, the name of its entry, and what else a walk needs. -/
structure Scope where
  mode : Mode
  correlation : Option Correlation.Table
  fresh : Recogniser
  definitions : List Definition
  entry : String

namespace Scope

def definition? (s : Scope) (name : String) : Option Definition :=
  s.definitions.find? fun d => d.name == name

/-- The facts of a definition, from the table or else by walking its body; nothing for an unknown
name. At most `depth` bodies are opened inside each other. -/
def define (s : Scope) : (depth : Nat) → String → Walk (Option Facts)
  | depth, name => do
    let progress ← get
    match progress.table.lookup name with
    | some f => return some f
    | none =>
      match s.definition? name with
      | none => return none
      | some d =>
        if progress.active.contains name then return some Facts.empty
        else
          match depth with
          | 0 => return some Facts.empty
          | depth + 1 => do
            modify fun p => { p with active := name :: p.active }
            let setting : Setting := ⟨s.mode, s.correlation, s.fresh, s.define depth⟩
            let (f, _) ← walk setting d.body (name == s.entry)
            modify fun p => { p with
              active := p.active.erase name
              table := p.table ++ [(name, f)] }
            return some f

/-- Walks the definitions one after the other. -/
def defineAll (s : Scope) : List Definition → Walk Unit
  | [] => return ()
  | d :: rest => do
    let _ ← s.define s.definitions.length d.name
    defineAll s rest

end Scope

end Sessions.Check
