import Sessions.Proofs.Check.Origin

/-!
# Sessions.Proofs.Check.Modes

What a check takes from the mode and from the correlation table. Both matter only through the paths
that inputs correlate and through the sets that need a fresh value; so checks that agree on these
give the same report (`check_congr`). In single mode there are none, whatever the table is.
-/

namespace Sessions.Check

/-- The kinds of problems that are about sessions. -/
def Kind.ofSessions : List Kind :=
  [.missingCorrelationSet, .usedBeforeInitialized, .noFreshCorrelationValue]

theorem merges_same : Merges (.uniform Eq) Eq Eq := by
  constructor
  case mismatches =>
    rintro f _ g _ r _ b rfl rfl rfl
    exact ⟨rfl, rfl⟩
  all_goals intros; subst_vars; rfl

theorem eq_of_rel {o o' : Option Facts} (h : Option.Rel Eq o o') : o = o' := by
  cases h with
  | none => rfl
  | some h => rw [h]

namespace Checker

variable {c c' : Checker}

/-- The two checks differ at most in how they come by the paths that inputs correlate and the sets
that need a fresh value. -/
structure SameRules (c c' : Checker) : Prop where
  program : c.program = c'.program
  entry : c.entry = c'.entry
  init : c.init = c'.init
  fresh : c.fresh = c'.fresh
  single : c.mode = .single ↔ c'.mode = .single
  paths : ∀ depth depth', inputPaths (c.scope.setting depth) = inputPaths (c'.scope.setting depth')
  sets : c.sets = c'.sets

theorem SameRules.entryName (R : c.SameRules c') : c.entryName = c'.entryName := by
  rw [Checker.entryName, Checker.entryName, R.entry]

theorem SameRules.initName (R : c.SameRules c') : c.initName = c'.initName := by
  rw [Checker.initName, Checker.initName, R.init]

theorem SameRules.definitions (R : c.SameRules c') :
    c.scope.definitions = c'.scope.definitions := by
  show firstDefinitions c.declared = firstDefinitions c'.declared
  rw [declared, declared, R.program]

theorem SameRules.corresponds (R : c.SameRules c') :
    Scope.Corresponds (.uniform Eq) Eq Eq c.scope c'.scope where
  toMerges := merges_same
  definitions := R.definitions
  entry := R.entryName
  known _ := trivial
  facts _ := rfl
  own depth depth' a t := by
    refine ownFacts_congr (R.paths depth depth') (fun port op => ?_) a t
    show (c.fresh port op).fresh = (c'.fresh port op).fresh
    rw [R.fresh]
  reports depth depth' a t := ownDiagnostics_congr (R.paths depth depth') R.single a t
  loops l h := by rw [h]; rfl
  unknown _ _ := rfl

theorem SameRules.verdict (R : c.SameRules c') (init main : Option Facts) :
    c.verdict init main = c'.verdict init main := by
  have hshort : ∀ f, c.shortcomings f = c'.shortcomings f := fun f => by
    rw [shortcomings, shortcomings, R.sets]
  cases main with
  | none => rw [Checker.verdict, Checker.verdict, R.program]
  | some main =>
    cases init with
    | none => rw [Checker.verdict, Checker.verdict, hshort]
    | some init => rw [Checker.verdict, Checker.verdict, hshort]

/-- Checks with the same rules compute the same facts and give the same report. -/
theorem check_congr (R : c.SameRules c') : c.facts = c'.facts ∧ c.check = c'.check := by
  obtain ⟨htable, hreports⟩ := walked_related R.corresponds.bodies (fun _ => trivial)
    (R.definitions ▸ List.forall₂_refl _) trivial
  have hlookup : ∀ n, c.walked.table.lookup n = c'.walked.table.lookup n :=
    fun n => eq_of_rel (htable n)
  have hreports : c.walked.diagnostics = c'.walked.diagnostics := hreports
  refine ⟨?_, report_eq ?_ ?_⟩
  · simp only [facts, progress_table, hlookup, R.definitions]
  · rw [check_diagnostics, check_diagnostics, hreports, hlookup, hlookup, R.initName, R.entryName,
      R.verdict]
  · simp only [check_definitions, hlookup, R.definitions]

/-- The same check in another mode and with another table. -/
def under (c : Checker) (m : Mode) (t : Option Correlation.Table) : Checker :=
  { c with mode := m, correlation := t }

theorem sameRules_under {m m' : Mode} {t t' : Option Correlation.Table}
    (hm : m = .single ↔ m' = .single) (ht : m ≠ .single → t = t') :
    (c.under m t).SameRules (c.under m' t') where
  program := rfl
  entry := rfl
  init := rfl
  fresh := rfl
  single := hm
  paths _ _ := by
    funext op
    show (if m = .single then [] else ((t.bind (·.setFor? op)).map (·.paths)).getD []) =
      if m' = .single then [] else ((t'.bind (·.setFor? op)).map (·.paths)).getD []
    by_cases h : m = .single
    · rw [if_pos h, if_pos (hm.1 h)]
    · rw [if_neg h, if_neg (mt hm.2 h), ht h]
  sets := by
    show (if m = .single then [] else (t.map (·.sets)).getD []) =
      if m' = .single then [] else (t'.map (·.sets)).getD []
    by_cases h : m = .single
    · rw [if_pos h, if_pos (hm.1 h)]
    · rw [if_neg h, if_neg (mt hm.2 h), ht h]

/-- Without sessions there are no problems about them. -/
theorem not_ofSessions (hc : c.mode = .single) {l : Location} {pr : Problem}
    (h : c.Grounded l pr) : pr.kind ∉ Kind.ofSessions := by
  cases h with
  | walk h =>
    cases h with
    | noSet _ _ hm => exact absurd hc hm
    | _ => simp [Problem.kind, Kind.ofSessions]
  | unmet h =>
    obtain ⟨_, _, _, _, _, _, hm, _⟩ := h
    exact absurd hc hm
  | stale h => rw [sets, if_pos hc] at h; exact (List.not_mem_nil h).elim
  | _ => simp [Problem.kind, Kind.ofSessions]

/-- Single mode does not depend on correlation: whatever the table is, the facts and the report are
the same, and no problem is about sessions. Sessions one after another are checked as sessions at
the same time are. -/
theorem single_ignores_correlation (c : Checker) :
    (∀ t t', (c.under .single t).facts = (c.under .single t').facts ∧
      (c.under .single t).check = (c.under .single t').check) ∧
    (∀ t, ∀ d ∈ (c.under .single t).check.diagnostics,
      d.kind ∉ ["MissingCorrelationSet", "UsedBeforeInitialized", "NoFreshCorrelationValue"]) ∧
    ∀ t, (c.under .sequential t).facts = (c.under .concurrent t).facts ∧
      (c.under .sequential t).check = (c.under .concurrent t).check := by
  refine ⟨fun t t' => ?_, fun t d hd hk => ?_, fun t => ?_⟩
  · exact check_congr (sameRules_under Iff.rfl fun h => absurd rfl h)
  · obtain ⟨l, pr, h, rfl⟩ := check_grounded _ d hd
    have hname : pr.kind.name ∈ Kind.ofSessions.map Kind.name := hk
    obtain ⟨k, hk, hname⟩ := List.mem_map.1 hname
    obtain rfl : pr.kind = k := kind_name_injective hname.symm
    exact not_ofSessions rfl h hk
  · exact check_congr (sameRules_under (by decide) fun _ => rfl)

/-- Of what is wrong with the courier, single mode still reports that one id is given twice, and it
does so without a table as well. -/
theorem single_ignores_correlation_courier :
    (courier.under .concurrent courier.correlation).check.kinds =
      ["DuplicateCorrelationInit", "DuplicateCorrelationInit", "UsedBeforeInitialized",
        "NoFreshCorrelationValue", "NoFreshCorrelationValue"] ∧
    (∃ d ∈ (courier.under .single courier.correlation).check.diagnostics,
      d.kind = "DuplicateCorrelationInit" ∧
      d.kind ∉ ["MissingCorrelationSet", "UsedBeforeInitialized", "NoFreshCorrelationValue"]) ∧
    (courier.under .single courier.correlation).check = (courier.under .single none).check := by
  obtain ⟨hsame, hkinds, -⟩ := single_ignores_correlation courier
  have hd : ∃ d ∈ (courier.under .single courier.correlation).check.diagnostics,
      d.kind = "DuplicateCorrelationInit" := by decide +kernel
  obtain ⟨d, hd, hk⟩ := hd
  exact ⟨by decide +kernel, ⟨d, hd, hk, hkinds _ d hd⟩, (hsame _ _).2⟩

end Checker

end Sessions.Check
