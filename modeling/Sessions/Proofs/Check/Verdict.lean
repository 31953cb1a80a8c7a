import Sessions.Proofs.Check.Define

/-!
# Sessions.Proofs.Check.Verdict

A check in two steps: all definitions are walked (`Checker.walked`), and then the rules for the
program as a whole report what is wrong with the facts of the initial definition and of the entry
point (`Checker.verdict`). The second step is a function of these two facts alone, and
`check_diagnostics` puts the two together.

Much is said of the diagnostics of one kind or of a few; `Sorts` is what such a sort has to satisfy,
and `filter_verdict` says when the rules for the program as a whole report none of it.
-/

namespace Sessions.Check

/-! ## Diagnostics of one sort -/

theorem kind_name_injective : Function.Injective Kind.name := by
  intro k k' h
  cases k <;> cases k' <;> first | rfl | exact absurd h (by decide)

/-- Whether the diagnostic is of the kind. -/
def Diagnostic.isOf (k : Kind) (d : Diagnostic) : Bool :=
  d.kind == k.name

/-- Whether the report of a problem is of the sort depends on the kind of the problem. -/
def Sorts (sort : Diagnostic → Bool) (kinds : Kind → Bool) : Prop :=
  ∀ l pr, sort (Diagnostic.ofProblem l pr) = kinds pr.kind

theorem sorts_isOf (k : Kind) : Sorts (Diagnostic.isOf k) (· == k) := by
  intro l pr
  rw [Bool.eq_iff_iff, beq_iff_eq, ← kind_name_injective.eq_iff]
  exact beq_iff_eq

section Sorts

variable {sort : Diagnostic → Bool} {kinds : Kind → Bool}

theorem Sorts.filter_ofProblem (h : Sorts sort kinds) (l : Location) (pr : Problem) :
    [Diagnostic.ofProblem l pr].filter sort =
      if kinds pr.kind then [Diagnostic.ofProblem l pr] else [] := by
  rw [List.filter_cons, List.filter_nil, h]

theorem Sorts.filter_pathDiagnostics (h : Sorts sort kinds) (problem : Path → Problem)
    (hk : ∀ p, kinds (problem p).kind = false) (ps : List Path) :
    (pathDiagnostics problem ps).filter sort = [] := by
  rw [List.filter_eq_nil_iff]
  intro d hd
  obtain ⟨p, -, rfl⟩ := List.mem_map.1 hd
  simp [h p.loc (problem p), hk]

end Sorts

/-- The kinds of problems that a program has as a whole. -/
def Kind.ofVerdict : List Kind :=
  [.missingEntryPoint, .initMayNotSetCorrelation, .duplicateCorrelationInit, .usedBeforeInitialized,
    .noFreshCorrelationValue]

namespace Checker

theorem reportEach_gives (problem : Path → Problem) (ps : List Path) :
    Gives (reportEach problem ps) () (pathDiagnostics problem ps) := by
  induction ps with
  | nil => exact .pure ()
  | cons p rest ih =>
    rw [reportEach]
    exact (Gives.report p.loc (problem p)).bind ih

theorem noteHidden_gives (ns : List String) : Gives (noteHidden ns) () [] := by
  induction ns with
  | nil => exact .pure ()
  | cons n rest ih =>
    rw [noteHidden]
    exact (Gives.note _).bind ih

/-- What is reported of the sets that have no fresh value. -/
def staleSets (f : Facts) (sets : List Correlation.CorrelationSet) : List Diagnostic :=
  (sets.filter fun s => !isFresh f s.paths).map fun s =>
    Diagnostic.ofProblem s.loc (.notFresh s.name)

theorem requireFresh_gives (f : Facts) (sets : List Correlation.CorrelationSet) :
    Gives (requireFresh f sets) () (staleSets f sets) := by
  induction sets with
  | nil => exact .pure ()
  | cons s rest ih =>
    rw [requireFresh, staleSets, List.filter_cons]
    by_cases h : (!isFresh f s.paths) = true
    · rw [if_pos h, if_pos h]
      exact (Gives.report s.loc (.notFresh s.name)).bind ih
    · rw [if_neg h, if_neg h]
      exact ih

/-- The correlation sets that need a fresh value. -/
def sets (c : Checker) : List Correlation.CorrelationSet :=
  if c.mode = .single then [] else (c.correlation.map (·.sets)).getD []

/-- What is reported of the facts of a whole run. -/
def shortcomings (c : Checker) (f : Facts) : List Diagnostic :=
  pathDiagnostics .unmetCorrelation f.neededCorr.paths ++
    (pathDiagnostics .unmetVariable f.neededVar.paths ++ staleSets f c.sets)

/-- What is reported of the facts of the initial definition and of the entry point. -/
def verdict (c : Checker) : Option Facts → Option Facts → List Diagnostic
  | _, none => [Diagnostic.ofProblem ((c.program.map (·.loc)).getD {}) .noEntry]
  | none, some main => c.shortcomings main
  | some init, some main =>
    pathDiagnostics .initialisedInInit init.providedCorr.paths ++
      (pathDiagnostics .initialisedTwice (init.sequence main).2 ++
        c.shortcomings (init.sequence main).1)

section Sorts

variable {sort : Diagnostic → Bool} {kinds : Kind → Bool}

theorem filter_shortcomings (h : Sorts sort kinds) (hk : ∀ k ∈ Kind.ofVerdict, kinds k = false)
    (c : Checker) (f : Facts) : (c.shortcomings f).filter sort = [] := by
  have hunmet : kinds .usedBeforeInitialized = false := hk _ (by decide)
  have hfresh : kinds .noFreshCorrelationValue = false := hk _ (by decide)
  have hstale : (staleSets f c.sets).filter sort = [] := by
    rw [List.filter_eq_nil_iff]
    intro d hd
    obtain ⟨s, -, rfl⟩ := List.mem_map.1 hd
    simp [h s.loc (.notFresh s.name), Problem.kind, hfresh]
  rw [shortcomings, List.filter_append, List.filter_append, hstale,
    h.filter_pathDiagnostics .unmetCorrelation fun _ => hunmet,
    h.filter_pathDiagnostics .unmetVariable fun _ => hunmet]
  rfl

/-- Of other kinds than these the rules for the program as a whole report nothing. -/
theorem filter_verdict (h : Sorts sort kinds) (hk : ∀ k ∈ Kind.ofVerdict, kinds k = false)
    (c : Checker) (init main : Option Facts) : (c.verdict init main).filter sort = [] := by
  cases main with
  | none =>
    have hentry : kinds .missingEntryPoint = false := hk _ (by decide)
    cases init <;> simp [verdict, h _ .noEntry, Problem.kind, hentry]
  | some main =>
    cases init with
    | none => exact filter_shortcomings h hk c main
    | some init =>
      have hinit : kinds .initMayNotSetCorrelation = false := hk _ (by decide)
      have htwice : kinds .duplicateCorrelationInit = false := hk _ (by decide)
      rw [verdict, List.filter_append, List.filter_append, filter_shortcomings h hk,
        h.filter_pathDiagnostics .initialisedInInit fun _ => hinit,
        h.filter_pathDiagnostics .initialisedTwice fun _ => htwice]
      rfl

end Sorts

/-- The rules for the program as a whole, given the facts of the whole run. -/
def judge (c : Checker) (f : Facts) : Walk Unit := do
  reportEach .unmetCorrelation f.neededCorr.paths
  reportEach .unmetVariable f.neededVar.paths
  requireFresh f c.sets

theorem judge_gives (c : Checker) (f : Facts) : Gives (c.judge f) () (c.shortcomings f) :=
  (reportEach_gives _ _).bind ((reportEach_gives _ _).bind (requireFresh_gives f c.sets))

/-- The rules for the program as a whole, given the facts of the initial definition and of the
entry point. -/
def concluding (c : Checker) : Option Facts → Option Facts → Walk Unit
  | _, none => report ((c.program.map (·.loc)).getD {}) .noEntry
  | none, some main => c.judge main
  | some init, some main => do
    reportEach .initialisedInInit init.providedCorr.paths
    let f ← inSequence init main
    c.judge f

theorem concluding_gives (c : Checker) (init main : Option Facts) :
    Gives (c.concluding init main) () (c.verdict init main) := by
  cases main with
  | none => cases init <;> exact .report _ _
  | some main =>
    cases init with
    | none => exact c.judge_gives main
    | some init =>
      exact (reportEach_gives _ _).bind ((inSequence_gives init main).bind (c.judge_gives _))

/-- Freshness is looked at only where there are sets to look at. -/
theorem conclude_eq (c : Checker) : c.conclude = (do
    match (← get).table.lookup c.entryName with
    | none => report ((c.program.map (·.loc)).getD {}) .noEntry
    | some main => c.runFacts main >>= c.judge) := by
  unfold conclude judge sets
  cases c.mode <;> cases c.correlation <;> rfl

theorem runFacts_run (c : Checker) (main : Facts) (p : Progress) :
    (c.runFacts main).run p = (match p.table.lookup c.initName with
      | none => pure main
      | some init => do
        reportEach .initialisedInInit init.providedCorr.paths
        inSequence init main : Walk Facts).run p := rfl

/-- The facts of the whole run: those of the entry point, after the initial definition if there is
one. -/
theorem runFacts_value (c : Checker) (main : Facts) (p : Progress) :
    ((c.runFacts main).run p).1 = match p.table.lookup c.initName with
      | none => main
      | some init => (init.sequence main).1 := by
  rw [runFacts_run]
  cases p.table.lookup c.initName with
  | none => rfl
  | some init =>
    have hgives := (reportEach_gives .initialisedInInit init.providedCorr.paths).bind
      (f := fun _ => inSequence init main) (inSequence_gives init main)
    exact hgives.value p

theorem conclude_run (c : Checker) (p : Progress) :
    c.conclude.run p =
      (c.concluding (p.table.lookup c.initName) (p.table.lookup c.entryName)).run p := by
  rw [conclude_eq, run_bind]
  show StateT.run (match p.table.lookup c.entryName with | none => _ | some main => _) p = _
  cases p.table.lookup c.entryName with
  | none => cases p.table.lookup c.initName <;> rfl
  | some main =>
    simp only [run_bind, runFacts_run]
    cases p.table.lookup c.initName <;> rfl

/-! ## The two steps of a check -/

/-- The progress from which the definitions are walked: the repeated names are in the log. -/
def start (c : Checker) : Progress :=
  ((noteHidden (hiddenDefinitions [] c.declared)).run {}).2

theorem start_table (c : Checker) : c.start.table = [] :=
  (noteHidden_gives _).table {}

theorem start_active (c : Checker) : c.start.active = [] :=
  (noteHidden_gives _).active {}

theorem start_diagnostics (c : Checker) : c.start.diagnostics = [] :=
  (noteHidden_gives _).diagnostics {}

/-- What is found when all definitions were walked. -/
def walked (c : Checker) : Progress :=
  ((c.scope.defineAll c.scope.definitions).run c.start).2

theorem walked_lookup (c : Checker) {n : String} {d : Definition}
    (hd : c.scope.definition? n = some d) : ∃ f, c.walked.table.lookup n = some f := by
  have hname : d.name = n := by
    simpa using List.find?_some (p := fun d : Definition => d.name == n) hd
  subst hname
  exact Scope.defineAll_lookup hd (List.mem_of_find?_eq_some hd) c.start_active

/-- If the bodies of two programs correspond, so do the facts of all definitions in the end, and
what was reported of them. -/
theorem walked_related {L : Link} {c c' : Checker} (B : Bodies L c.scope c'.scope)
    (hknown : ∀ n, L.known n)
    (hnames : List.Forall₂ (fun d d' : Definition => d.name = d'.name) c.scope.definitions
      c'.scope.definitions) (hstage : L.stage c.walked) :
    (∀ n, Option.Rel (L.facts n) (c.walked.table.lookup n) (c'.walked.table.lookup n)) ∧
      L.reports c.walked.diagnostics c'.walked.diagnostics := by
  have hstart : Linked L [] c.start c'.start :=
    ⟨c.start_active, c'.start_active, fun n _ => by
      rw [c.start_table, c'.start_table]; exact .none⟩
  obtain ⟨-, hend, ds, ds', hd, hd', hr⟩ :=
    defineAll_related B (hnames.imp fun _ _ h => ⟨h, hknown _⟩) _ _ hstart hstage
  rw [start_diagnostics, List.nil_append] at hd hd'
  refine ⟨fun n => hend.table n (hknown n), ?_⟩
  rw [walked, walked, hd, hd']
  exact hr

theorem progress_eq (c : Checker) : c.progress = (c.conclude.run c.walked).2 := rfl

theorem progress_table (c : Checker) : c.progress.table = c.walked.table := by
  rw [progress_eq, conclude_run, (c.concluding_gives _ _).table]

/-- The problems found in the definitions, and then those of the program as a whole. -/
theorem check_diagnostics (c : Checker) :
    c.check.diagnostics = c.walked.diagnostics ++
      c.verdict (c.walked.table.lookup c.initName) (c.walked.table.lookup c.entryName) := by
  show c.progress.diagnostics = _
  rw [progress_eq, conclude_run, (c.concluding_gives _ _).diagnostics]

theorem check_definitions (c : Checker) :
    c.check.definitions = c.scope.definitions.filterMap fun d =>
      (c.walked.table.lookup d.name).map (Summary.ofFacts d.name) := by
  rw [← progress_table]; rfl

/-- What is made of the facts in two tables corresponds, name by name. -/
theorem forall₂_lookup {α : Type} {A : Facts → Facts → Prop} {B : α → α → Prop}
    {t t' : List (String × Facts)} (ht : ∀ n, Option.Rel A (t.lookup n) (t'.lookup n))
    (g : String → Facts → α) (hg : ∀ {n f f'}, A f f' → B (g n f) (g n f'))
    {ds ds' : List Definition} (h : List.Forall₂ (fun d d' => d.name = d'.name) ds ds') :
    List.Forall₂ B (ds.filterMap fun d => (t.lookup d.name).map (g d.name))
      (ds'.filterMap fun d => (t'.lookup d.name).map (g d.name)) := by
  induction h with
  | nil => exact .nil
  | @cons d d' _ _ h _ ih =>
    have hd := ht d.name
    rw [List.filterMap_cons, List.filterMap_cons, ← h]
    revert hd
    generalize t.lookup d.name = o
    generalize t'.lookup d.name = o'
    intro ho
    cases ho with
    | none => exact ih
    | some hf => exact .cons (hg hf) ih

theorem report_eq {r r' : Report} (h : r.diagnostics = r'.diagnostics)
    (h' : r.definitions = r'.definitions) : r = r' := by
  cases r
  cases r'
  cases h
  cases h'
  rfl

theorem valid_iff (c : Checker) :
    c.check.valid ↔ c.walked.diagnostics = [] ∧
      c.verdict (c.walked.table.lookup c.initName) (c.walked.table.lookup c.entryName) = [] := by
  rw [Report.valid, List.isEmpty_iff, check_diagnostics, List.append_eq_nil_iff]

/-! ## Small programs -/

/-- The same check for another program. -/
def on (c : Checker) (q : Program) : Checker :=
  { c with program := some q }

/-- The check of a program that consists of an entry point. -/
def ofMain (t : Correlation.Table) (body : Activity) : Checker where
  program := some ⟨{}, [.definition ⟨{}, defaultEntry, body⟩]⟩
  correlation := some t
  fresh _ _ := ⟨false, none⟩

end Checker

/-- A correlation path right below the root. -/
def corrPath (name : String) : Path :=
  ⟨{}, [⟨Path.correlationRoot, none⟩, ⟨name, none⟩]⟩

/-- A set of correlation variables right below the root. -/
def corrSet (name : String) (vars : List String) : Correlation.CorrelationSet :=
  ⟨name, {}, vars.map fun v => ⟨v, ⟨{}, [⟨v, none⟩]⟩⟩⟩

/-- Gives the correlation variable a fresh value. -/
def token (name : String) : Activity :=
  .assign {} (corrPath name) "=" (.fresh {})

/-- Receives a message and stores nothing. -/
def receive (op : String) : Activity :=
  .oneWay {} op none

end Sessions.Check
