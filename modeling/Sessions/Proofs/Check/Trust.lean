import Sessions.Freshness.AllowList
import Sessions.Proofs.Check.WellFormed
import Sessions.Proofs.Facts.Fresher

/-!
# Sessions.Proofs.Check.Trust

Trusting more sources of fresh values. If all that one recogniser takes for fresh is fresh for
another one too, then the two walks of a program find the same, apart from the freshness of what is
provided; so the only problems that can go away are sets without a fresh value, and none can come.
-/

namespace Sessions.Check

/-- Whatever the first recogniser takes for fresh, the second does too. -/
def Recogniser.Within (r r' : Recogniser) : Prop :=
  ∀ service operation, (r service operation).fresh = true → (r' service operation).fresh = true

/-- Whether the diagnostic is about a set without a fresh value. -/
def Diagnostic.isStale (d : Diagnostic) : Bool :=
  d.kind == "NoFreshCorrelationValue"

/-- The second summary has more that is fresh and is the same otherwise. -/
structure Summary.Improves (s s' : Summary) : Prop where
  fresh : s.freshCorr.Sublist s'.freshCorr
  rest : { s with freshCorr := [] } = { s' with freshCorr := [] }

/-- The second report has fewer sets without a fresh value and more that is fresh, and is the same
otherwise; so it is valid if the first one is. -/
structure Report.Improves (r r' : Report) : Prop where
  others : r.diagnostics.filter (!·.isStale) = r'.diagnostics.filter (!·.isStale)
  stale : (r'.diagnostics.filter (·.isStale)).Sublist (r.diagnostics.filter (·.isStale))
  definitions : List.Forall₂ Summary.Improves r.definitions r'.definitions
  valid : r.valid = true → r'.valid = true

/-! ## Diagnostics -/

/-- The second list is the first one with fewer sets without a fresh value at its end. -/
def Trims (ds ds' : List Diagnostic) : Prop :=
  ∃ common stale stale', ds = common ++ stale ∧ ds' = common ++ stale' ∧ stale'.Sublist stale ∧
    ∀ d ∈ stale, d.isStale = true

theorem Trims.refl (ds : List Diagnostic) : Trims ds ds :=
  ⟨ds, [], [], (List.append_nil ds).symm, (List.append_nil ds).symm, .slnil, List.forall_mem_nil _⟩

theorem Trims.append_left {ds ds' : List Diagnostic} (h : Trims ds ds') (es : List Diagnostic) :
    Trims (es ++ ds) (es ++ ds') := by
  obtain ⟨common, stale, stale', rfl, rfl, hsub, hstale⟩ := h
  exact ⟨es ++ common, stale, stale', (List.append_assoc ..).symm, (List.append_assoc ..).symm,
    hsub, hstale⟩

theorem Trims.others {ds ds' : List Diagnostic} (h : Trims ds ds') :
    ds.filter (!·.isStale) = ds'.filter (!·.isStale) := by
  obtain ⟨common, stale, stale', rfl, rfl, hsub, hstale⟩ := h
  have hnil : ∀ es : List Diagnostic, es ⊆ stale → es.filter (!·.isStale) = [] := by
    intro es hes
    rw [List.filter_eq_nil_iff]
    intro d hd
    simp [hstale d (hes hd)]
  rw [List.filter_append, List.filter_append, hnil stale (List.Subset.refl _),
    hnil stale' hsub.subset]

theorem Trims.stale {ds ds' : List Diagnostic} (h : Trims ds ds') :
    (ds'.filter (·.isStale)).Sublist (ds.filter (·.isStale)) := by
  obtain ⟨common, stale, stale', rfl, rfl, hsub, -⟩ := h
  exact ((List.Sublist.refl common).append hsub).filter _

theorem Trims.eq_nil {ds ds' : List Diagnostic} (h : Trims ds ds') (hnil : ds = []) : ds' = [] := by
  obtain ⟨common, stale, stale', rfl, rfl, hsub, -⟩ := h
  obtain ⟨rfl, rfl⟩ := List.append_eq_nil_iff.1 hnil
  exact List.sublist_nil.1 hsub

/-! ## Walks -/

theorem merges_fresher : Merges (.uniform Facts.Fresher) Facts.Fresher Eq where
  seen := rfl
  empty := .refl .empty
  sequence := .sequence
  parallel := .parallel
  clashes hf hg := by rw [hf.clashes hg]; rfl
  choice := .choice
  mismatches b hf hg hr := by rw [hf.mismatches hg, hr]; exact ⟨rfl, rfl⟩
  handler := .handler

theorem loopDiagnostics_fresher {f f' : Facts} (h : f.Fresher f') (l : Location) :
    loopDiagnostics l f = loopDiagnostics l f' := by
  rw [loopDiagnostics, loopDiagnostics, PathSet.isEmpty_congr h.paths, PathSet.texts_congr h.paths]

theorem own_fresher {w w' : Setting} (hin : inputPaths w = inputPaths w')
    (hfresh : w.fresh.Within w'.fresh) (a : Activity) (s : Bool) :
    (ownFacts w a s).Fresher (ownFacts w' a s) := by
  have hinput : ∀ l op, (inputFacts w l op s).Fresher (inputFacts w' l op s) := fun l op => by
    rw [show inputFacts w l op s = inputFacts w' l op s by rw [inputFacts, inputFacts, hin]]
    exact .refl (inputFacts_wellFormed w' l op s)
  cases a with
  | oneWay l op target => exact hinput l op
  | requestResponse l op target output handler => exact hinput l op
  | solicitResponse l op port output target =>
    cases target with
    | none => exact .refl .empty
    | some p =>
      rw [ownFacts, ownFacts]
      split
      · exact .provide (hfresh port op)
      · exact .refl .empty
  | _ => exact .refl (ownFacts_wellFormed w _ s)

namespace Checker

variable {c : Checker} {r r' : Recogniser}

/-- The same check with another recogniser. -/
def trusting (c : Checker) (r : Recogniser) : Checker :=
  { c with fresh := r }

theorem corresponds_trusting (h : r.Within r') :
    Scope.Corresponds (.uniform Facts.Fresher) Facts.Fresher Eq (c.trusting r).scope
      (c.trusting r').scope where
  toMerges := merges_fresher
  definitions := rfl
  entry := rfl
  known _ := trivial
  facts _ := rfl
  own depth depth' a s := by
    have hin : inputPaths ((c.trusting r).scope.setting depth) =
        inputPaths ((c.trusting r').scope.setting depth') := inputPaths_congr rfl rfl
    exact own_fresher hin h a s
  reports _ _ a s := ownDiagnostics_congr (inputPaths_congr rfl rfl) Iff.rfl a s
  loops l hf := loopDiagnostics_fresher hf l
  unknown _ _ := rfl

/-! ## The rules for the program as a whole -/

theorem isFresh_mono {f f' : Facts} (h : f.Fresher f') (ps : List Path)
    (hf : isFresh f ps = true) : isFresh f' ps = true := by
  rw [isFresh_iff h.right]
  obtain ⟨p, hp, hav, hfresh⟩ := (isFresh_iff h.left).1 hf
  refine ⟨p, hp, ?_, h.fresh hfresh⟩
  rw [← Facts.available_iff] at hav ⊢
  rw [← h.available]
  exact hav

theorem staleSets_sublist {f f' : Facts} (h : f.Fresher f')
    (sets : List Correlation.CorrelationSet) :
    (staleSets f' sets).Sublist (staleSets f sets) := by
  refine List.Sublist.map _ (List.monotone_filter_right _ fun set hset => ?_)
  rw [Bool.not_eq_true', ← Bool.not_eq_true] at hset ⊢
  exact fun hf => hset (isFresh_mono h _ hf)

theorem shortcomings_trims {f f' : Facts} (h : f.Fresher f') :
    Trims ((c.trusting r).shortcomings f) ((c.trusting r').shortcomings f') := by
  rw [shortcomings, shortcomings, ← h.neededCorr, h.left.neededVar, h.right.neededVar]
  refine Trims.append_left (.append_left ?_ _) _
  refine ⟨[], _, _, rfl, rfl, staleSets_sublist h _, fun d hd => ?_⟩
  obtain ⟨set, -, rfl⟩ := List.mem_map.1 hd
  exact beq_self_eq_true _

theorem verdict_trims {init init' main main' : Option Facts}
    (hinit : Option.Rel Facts.Fresher init init') (hmain : Option.Rel Facts.Fresher main main') :
    Trims ((c.trusting r).verdict init main) ((c.trusting r').verdict init' main') := by
  cases hmain with
  | none => cases hinit <;> exact .refl _
  | some hm =>
    cases hinit with
    | none => exact shortcomings_trims hm
    | some hi =>
      rw [verdict, verdict, hi.paths, hi.clashes hm]
      exact .append_left (.append_left (shortcomings_trims (hi.sequence hm)) _) _

theorem summary_improves {f f' : Facts} (h : f.Fresher f') (n : String) :
    (Summary.ofFacts n f).Improves (Summary.ofFacts n f') := by
  have hfresh : ∀ {g : Facts}, g.WellFormed → (Summary.ofFacts n g).freshCorr =
      (g.providedCorr.paths.filter fun p =>
        g.providedCorr.freshAt p.key && !g.invalidated.contains p).map Path.render := by
    intro g hg
    rw [← hg.providedCorr.map_filter_fresh fun p => !g.invalidated.contains p, List.map_map]
    rfl
  refine ⟨?_, ?_⟩
  · rw [hfresh h.left, hfresh h.right, ← h.paths, ← h.invalidated]
    refine List.Sublist.map _ (List.monotone_filter_right _ fun p hp => ?_)
    rw [Bool.and_eq_true] at hp ⊢
    exact ⟨h.fresh hp.1, hp.2⟩
  · simp only [Summary.ofFacts, PathSet.texts_congr h.paths, h.providedVar, h.neededCorr,
      h.invalidated, h.left.neededVar, h.right.neededVar]

/-! ## Reports -/

theorem walked_trusting (h : r.Within r') :
    (∀ n, Option.Rel Facts.Fresher ((c.trusting r).walked.table.lookup n)
      ((c.trusting r').walked.table.lookup n)) ∧
    (c.trusting r).walked.diagnostics = (c.trusting r').walked.diagnostics :=
  walked_related (corresponds_trusting h).bodies (fun _ => trivial) (List.forall₂_refl _) trivial

theorem check_trims (h : r.Within r') :
    Trims (c.trusting r).check.diagnostics (c.trusting r').check.diagnostics := by
  obtain ⟨htable, hreports⟩ := walked_trusting (c := c) h
  rw [check_diagnostics, check_diagnostics, hreports]
  exact .append_left (verdict_trims (htable _) (htable _)) _

theorem check_improves (h : r.Within r') :
    (c.trusting r).check.Improves (c.trusting r').check where
  others := (check_trims h).others
  stale := (check_trims h).stale
  definitions := by
    rw [check_definitions, check_definitions]
    exact forall₂_lookup (walked_trusting h).1 Summary.ofFacts (fun hf => summary_improves hf _)
      (List.forall₂_refl _)
  valid hv := List.isEmpty_iff.2 ((check_trims h).eq_nil (List.isEmpty_iff.1 hv))

theorem facts_fresher (h : r.Within r') :
    List.Forall₂ (fun e e' => e.1 = e'.1 ∧ e.2.Fresher e'.2) (c.trusting r).facts
      (c.trusting r').facts := by
  simp only [facts, progress_table]
  exact forall₂_lookup (walked_trusting h).1 (fun n f => (n, f)) (fun hf => ⟨rfl, hf⟩)
    (List.forall₂_refl _)

end Checker

/-- An allow-list with more sources and the same predicate trusts more. -/
theorem recogniser_within {a a' : Freshness.AllowList} (hsources : a.sources ⊆ a'.sources)
    (hpredicate : a.predicate = a'.predicate) :
    (Freshness.recogniser (some a)).Within (Freshness.recogniser (some a')) := by
  intro service operation h
  change (a.judge service operation).fresh = true at h
  show (a'.judge service operation).fresh = true
  have hask : a.ask service operation = a'.ask service operation := by
    rw [Freshness.AllowList.ask, Freshness.AllowList.ask, hpredicate]
  unfold Freshness.AllowList.judge at h ⊢
  split
  · rfl
  · next hnone =>
    rw [if_neg ?_, hask] at h
    · exact h
    · intro hany
      obtain ⟨source, hmem, haccepts⟩ := List.any_eq_true.1 hany
      exact hnone (List.any_eq_true.2 ⟨source, hsources hmem, haccepts⟩)

namespace Checker

/-- Trusting more can only help: the report has the same problems in the same order, apart from sets
without a fresh value, of which there are fewer; the facts are the same, apart from freshness, of
which there is more; and what was valid stays valid. -/
theorem trusting_more_improves (c : Checker) :
    (∀ r r' : Recogniser, r.Within r' →
      (c.trusting r).check.Improves (c.trusting r').check ∧
      List.Forall₂ (fun e e' => e.1 = e'.1 ∧ e.2.Fresher e'.2) (c.trusting r).facts
        (c.trusting r').facts) ∧
    ∀ a a' : Freshness.AllowList, a.sources ⊆ a'.sources → a.predicate = a'.predicate →
      (c.trusting (Freshness.recogniser (some a))).check.Improves
        (c.trusting (Freshness.recogniser (some a'))).check :=
  ⟨fun _ _ h => ⟨check_improves h, facts_fresher h⟩,
    fun _ _ hsources hpredicate => check_improves (recogniser_within hsources hpredicate)⟩

/-- A session that gets its id from a vault. -/
def vaultSession : Checker :=
  ofMain { sets := [corrSet "S" ["sid"]] }
    (.sequence {} [receive "start",
      .solicitResponse {} "mint" "Vault" .missing (some (corrPath "sid"))])

/-- An allow-list that trusts the vault as well. -/
def trustedVault : Freshness.AllowList :=
  { Freshness.AllowList.standard with
    sources := Freshness.AllowList.standard.sources ++ [⟨"Vault", "mint"⟩] }

/-- The session has no fresh value as long as the vault is not trusted, and is valid once it is. -/
theorem trusting_more_improves_vault :
    (vaultSession.trusting (Freshness.recogniser (some .standard))).check.kinds =
      ["NoFreshCorrelationValue"] ∧
    (vaultSession.trusting (Freshness.recogniser (some trustedVault))).check.valid = true ∧
    (vaultSession.trusting (Freshness.recogniser (some .standard))).check.Improves
      (vaultSession.trusting (Freshness.recogniser (some trustedVault))).check ∧
    List.Forall₂ (fun e e' => e.1 = e'.1 ∧ e.2.Fresher e'.2)
      (vaultSession.trusting (Freshness.recogniser (some .standard))).facts
      (vaultSession.trusting (Freshness.recogniser (some trustedVault))).facts := by
  have hsources : Freshness.AllowList.standard.sources ⊆ trustedVault.sources :=
    List.subset_append_left _ _
  obtain ⟨hwithin, hlists⟩ := trusting_more_improves vaultSession
  exact ⟨by decide +kernel, by decide +kernel, hlists _ _ hsources rfl,
    (hwithin _ _ (recogniser_within hsources rfl)).2⟩

end Checker

end Sessions.Check
