import Sessions.Proofs.Check.Ledger

/-!
# Sessions.Proofs.Check.Scan

The problems that the text of a program decides: calls of names that nobody declares, inputs that
receive into correlation variables, and assignments of values that such variables may not have.
The check meets them on its way from call to call, in whatever order that takes;
`textual_diagnostics` says that it reports each of them once, as a scan of the bodies would that
follows no call. What the scan reports of an activity, `Activity.textualDiagnostics`, is written out
with its place, its path and its words.
-/

namespace Sessions

open Check

/-- What is reported of an input, by what it receives into. -/
def Activity.inputDiagnostics (l : Location) (operation : String) : Option Path → List Diagnostic
  | some p =>
    if p.isCorrelation then
      [{ kind := "CorrelationOnInput"
         loc := l
         path := p.render
         message := "input operation " ++ operation ++
          " can not receive on correlation variable " ++ p.render }]
    else []
  | none => []

/-- What is reported of the text of an activity, its parts left aside, if these are the names that
are declared. -/
def Activity.textualDiagnostics (names : List String) : Activity → List Diagnostic
  | .call l n =>
    if n ∈ names then []
    else
      [{ kind := "UndefinedDefinition"
         loc := l
         path := ""
         message := "can not find definition " ++ n }]
  | .oneWay l operation target => inputDiagnostics l operation target
  | .requestResponse l operation target _ _ => inputDiagnostics l operation target
  | .increment l p _ _ =>
    if p.isCorrelation then
      [{ kind := "NonLiteralCorrelationAssign"
         loc := l
         path := p.render
         message := "correlation variable " ++ p.render ++ " can not be incremented or decremented" }]
    else []
  | .assign l target op value =>
    if !target.isCorrelation then []
    else if op ≠ "" && op ≠ "=" then
      [{ kind := "NonLiteralCorrelationAssign"
         loc := l
         path := target.render
         message := "correlation variable " ++ target.render ++ " can not be updated with " ++ op }]
    else if target.isStatic && value.suits target then []
    else
      [{ kind := "NonLiteralCorrelationAssign"
         loc := l
         path := target.render
         message := "correlation variable " ++ target.render ++
          " must either be initialised with a constant or with a fresh value" }]
  | _ => []

namespace Check

/-- What is reported of a finding, if these are the names that are declared. -/
def Finding.diagnostics (names : List String) : Finding → List Diagnostic
  | .call l n => if n ∈ names then [] else [Diagnostic.ofProblem l (.noDefinition n)]
  | .fault l pr => [Diagnostic.ofProblem l pr]

theorem reception_diagnostics (names : List String) (l : Location) (operation : String)
    (target : Option Path) :
    (receptionFindings l operation target).flatMap (Finding.diagnostics names) =
      Activity.inputDiagnostics l operation target := by
  cases target with
  | none => rfl
  | some p =>
    rw [receptionFindings, Activity.inputDiagnostics]
    split <;> rfl

theorem findings_diagnostics (names : List String) (a : Activity) :
    a.findings.flatMap (Finding.diagnostics names) = a.textualDiagnostics names := by
  cases a with
  | call l n =>
    rw [Activity.findings, List.flatMap_singleton]
    rfl
  | oneWay l operation target => exact reception_diagnostics names l operation target
  | requestResponse l operation target output handler =>
    exact reception_diagnostics names l operation target
  | increment l p isPrefix decrement =>
    rw [Activity.findings, Activity.textualDiagnostics]
    split <;> rfl
  | assign l target op value =>
    rw [Activity.findings, Activity.textualDiagnostics]
    split
    · rfl
    · split
      · rfl
      · split <;> rfl
  | _ => rfl

theorem scan_diagnostics (names : List String) (a : Activity) :
    a.scan.flatMap (Finding.diagnostics names) =
      a.parts.flatMap (Activity.textualDiagnostics names) := by
  rw [Activity.scan, List.flatMap_assoc]
  exact List.flatMap_congr fun b _ => findings_diagnostics names b

/-- Whether a diagnostic is of a kind that the text alone decides. -/
def Diagnostic.isTextual (d : Diagnostic) : Bool :=
  ["UndefinedDefinition", "CorrelationOnInput", "NonLiteralCorrelationAssign"].contains d.kind

theorem sorts_isTextual : Sorts Diagnostic.isTextual Kind.isTextual := by
  intro l pr
  have hkind : ∀ k : Kind,
      ["UndefinedDefinition", "CorrelationOnInput", "NonLiteralCorrelationAssign"].contains k.name =
        k.isTextual := by
    intro k
    cases k <;> decide
  exact hkind pr.kind

/-! ## One body -/

theorem Gives.textual {α : Type} {m : Walk α} {a : α} {ds : List Diagnostic} (h : Gives m a ds)
    (p : Progress) :
    (m.run p).2.diagnostics.filter Diagnostic.isTextual =
      p.diagnostics.filter Diagnostic.isTextual ++ ds.filter Diagnostic.isTextual := by
  rw [h.diagnostics, List.filter_append]

/-- A walk that follows no call reports its findings, and else only what depends on facts. -/
theorem Performs.textual {α : Type} {w w' : Setting} {names : List String}
    {look : String → Option Facts} (hlook : ∀ n, w.lookup n = Pure.pure (look n))
    (hnames : ∀ n, (look n).isSome = true ↔ n ∈ names) {xs : List Finding} {m m' : Walk α}
    (h : Performs w w' xs m m') (p : Progress) :
    (m.run p).2.diagnostics.filter Diagnostic.isTextual =
      p.diagnostics.filter Diagnostic.isTextual ++ xs.flatMap (Finding.diagnostics names) := by
  induction h generalizing p with
  | pure a => exact (Gives.pure a).textual p
  | note line => exact (Gives.note line).textual p
  | report l h =>
    rw [(Gives.report l _).textual, sorts_isTextual.filter_ofProblem, h]
    rfl
  | fault l h =>
    rw [(Gives.report l _).textual, sorts_isTextual.filter_ofProblem, h]
    rfl
  | call l n s =>
    rw [hlook, pure_bind, List.flatMap_singleton, Finding.diagnostics]
    cases hn : look n with
    | some f =>
      rw [if_pos ((hnames n).1 (by rw [hn]; rfl))]
      exact (Gives.pure (f, s)).textual p
    | none =>
      have hmem : n ∉ names := fun hmem => by simpa [hn] using (hnames n).2 hmem
      rw [if_neg hmem]
      exact ((Gives.report l (.noDefinition n)).map fun _ => (Facts.empty, s)).textual p
  | bind _ _ ih ihf => rw [run_bind, ihf, ih, List.flatMap_append, List.append_assoc]

theorem Scope.apart_textual {s : Scope} {names : List String} {look : String → Option Facts}
    (hnames : ∀ n, (look n).isSome = true ↔ n ∈ names) (d : Definition) (n : String) :
    (s.apart look d n).2.filter Diagnostic.isTextual =
      d.body.scan.flatMap (Finding.diagnostics names) := by
  have hwalk := walk_performs (s.sameRules (fun n => pure (look n)) fun n => pure (look n))
    d.body (n == s.entry)
  exact (hwalk.textual (fun _ => rfl) hnames {}).trans (List.nil_append _)

/-- A definition that reaches one is itself one. -/
theorem Scope.isSome_of_reaches {s : Scope} {m n : String} {d : Definition}
    (hn : s.definition? n = some d) (h : Relation.ReflTransGen s.Calls m n) :
    (s.definition? m).isSome = true := by
  rcases h.cases_head with rfl | ⟨_, ⟨e, he, -⟩, -⟩
  · rw [hn]; rfl
  · rw [he]; rfl

namespace Checker

/-! ## All bodies -/

theorem declared_iff (c : Checker) (n : String) :
    (c.scope.definition? n).isSome = true ↔ n ∈ c.declared.map (·.name) := by
  rw [definition?_eq, List.find?_isSome, List.mem_map]
  simp

/-- The scan of one definition, by its name. -/
def scanOf (c : Checker) (n : String) : List Diagnostic :=
  ((c.scope.definition? n).map fun d =>
    d.body.scan.flatMap (Finding.diagnostics (c.declared.map (·.name)))).getD []

theorem explains_textual {c : Checker} {e : String × Facts} {ds : List Diagnostic}
    (h : c.scope.Explains c.walked.table e ds) :
    ds.filter Diagnostic.isTextual = c.scanOf e.1 := by
  obtain ⟨d, cut, hd, -, hreach, hapart⟩ := h
  have hnames : ∀ n, (answer c.walked.table cut n).isSome = true ↔
      n ∈ c.declared.map (·.name) := by
    intro n
    rw [← declared_iff, answer]
    by_cases hn : n ∈ cut
    · -- What is open reaches the entry, so it is defined.
      simp [hn, Scope.isSome_of_reaches hd (hreach n hn)]
    · rw [if_neg hn, walked_isSome_iff]
  have := c.scope.apart_textual hnames d e.1
  rw [hapart] at this
  rw [this, scanOf, hd]
  rfl

theorem walked_textual (c : Checker) :
    (c.walked.diagnostics.filter Diagnostic.isTextual).Perm
      (c.scope.definitions.flatMap fun d => c.scanOf d.name) := by
  have hwalked := c.filter_walked Diagnostic.isTextual fun _ _ h => explains_textual h
  rwa [List.flatMap_map] at hwalked

/-- The rules for the program as a whole depend on facts. -/
theorem verdict_textual (c : Checker) (init main : Option Facts) :
    (c.verdict init main).filter Diagnostic.isTextual = [] :=
  filter_verdict sorts_isTextual (by decide) c init main

/-- Of what the text decides, nothing is left out and nothing is reported twice. -/
theorem textual_diagnostics (c : Checker) :
    (c.check.diagnostics.filter Diagnostic.isTextual).Perm
      ((firstDefinitions c.declared).flatMap fun d =>
        d.body.parts.flatMap (Activity.textualDiagnostics (c.declared.map (·.name)))) := by
  have hbody : ∀ d ∈ c.scope.definitions, c.scanOf d.name =
      d.body.parts.flatMap (Activity.textualDiagnostics (c.declared.map (·.name))) := by
    intro d hd
    rw [scanOf, definition?_of_mem hd, ← scan_diagnostics]
    rfl
  rw [check_diagnostics, List.filter_append, verdict_textual, List.append_nil]
  refine c.walked_textual.trans (.of_eq ?_)
  exact List.flatMap_congr hbody

end Checker

end Check

end Sessions
