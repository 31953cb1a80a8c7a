import Sessions.Proofs.Check.Dispatch
import Sessions.Proofs.Check.Search

/-!
# Sessions.Proofs.Check.Branching

Branches that have to agree. A conditional, and a choice that does not start a session, compare the
facts of their branches one after the other with what the branches before them amount to, and report
a path over which two disagree once (`compare`).

What they report of their own is found by running them beside a walk that only collects the facts of
the branches: `Besides own p q` says that the two have found the same, apart from `own`, which was
reported on top. The branches take no notice of it, so that the two stay side by side
(`compare_besides`). Which facts come out (`Reconciles`) and which keys are reported
(`mem_disagreements`) is then a matter of the list of facts alone, and does not depend on its order.
-/

namespace Sessions

namespace Facts

variable {f g : Facts} {fs : List Facts} {k : String}

/-! ## What branches amount to -/

/-- The facts of a whole of which one branch runs. -/
structure Reconciles (fs : List Facts) (f : Facts) : Prop where
  providedVar : ∀ k, k ∈ f.providedVar.keys ↔
    fs ≠ [] ∧ ∀ g ∈ fs, k ∈ g.providedVar.keys ∧ k ∉ g.invalidated.keys
  providedCorr : ∀ k, k ∈ f.providedCorr.keys ↔ ∃ g ∈ fs, k ∈ g.providedCorr.keys
  fresh : ∀ k ∈ f.providedCorr.keys, (f.providedCorr.freshAt k = true ↔
    ∀ g ∈ fs, k ∈ g.providedCorr.keys → g.providedCorr.freshAt k = true)
  neededVar : ∀ k, k ∈ f.neededVar.keys ↔ ∃ g ∈ fs, k ∈ g.neededVar.keys
  neededCorr : ∀ k, k ∈ f.neededCorr.keys ↔ ∃ g ∈ fs, k ∈ g.neededCorr.keys
  invalidated : ∀ k, k ∈ f.invalidated.keys ↔ ∃ g ∈ fs, k ∈ g.invalidated.keys

namespace Reconciles

theorem nil : Reconciles [] Facts.empty := by
  have hnone (k : String) (P : Facts → Prop) : k ∈ PathSet.empty.keys ↔ ∃ g ∈ [], P g := by
    simp [PathSet.keys_empty]
  refine ⟨fun k => ?_, fun k => hnone k _, fun k hk => ?_, fun k => hnone k _, fun k => hnone k _,
    fun k => hnone k _⟩
  · exact ⟨fun hk => (List.not_mem_nil hk).elim, fun h => absurd rfl h.1⟩
  · exact (List.not_mem_nil hk).elim

theorem singleton (hf : f.WellFormed) : Reconciles [f] f := by
  have hone (P : Facts → Prop) : P f ↔ ∃ g ∈ [f], P g := by
    simp only [List.mem_singleton, exists_eq_left]
  refine ⟨fun k => ?_, fun k => hone fun g => k ∈ g.providedCorr.keys, fun k hk => ?_,
    fun k => hone fun g => k ∈ g.neededVar.keys, fun k => hone fun g => k ∈ g.neededCorr.keys,
    fun k => hone fun g => k ∈ g.invalidated.keys⟩
  · rw [List.forall_mem_singleton]
    exact ⟨fun hk => ⟨List.cons_ne_nil _ _, hk, hf.tracked k hk⟩, fun h => h.2.1⟩
  · rw [List.forall_mem_singleton]
    exact ⟨fun h _ => h, fun h => h hk⟩

theorem choice (h : Reconciles fs f) (hne : fs ≠ []) (hf : f.WellFormed) (hg : g.WellFormed) :
    Reconciles (fs ++ [g]) (f.choice g).1 := by
  have hall {P : Facts → Prop} : (∀ x ∈ fs ++ [g], P x) ↔ (∀ x ∈ fs, P x) ∧ P g := by
    simp only [List.mem_append, List.mem_singleton, or_imp, forall_and, forall_eq]
  refine ⟨fun k => ?_, fun k => ?_, fun k hk => ?_, fun k => ?_, fun k => ?_, fun k => ?_⟩
  · rw [choice_providedVar hf hg, h.providedVar, hall]
    have hlast : k ∈ g.providedVar.keys ↔ k ∈ g.providedVar.keys ∧ k ∉ g.invalidated.keys :=
      ⟨fun hk => ⟨hk, hg.tracked k hk⟩, fun hk => hk.1⟩
    rw [← hlast]
    simp [hne]
  · rw [choice_providedCorr hf hg, h.providedCorr, exists_mem_concat]
  · rw [choice_freshAt hf hg, hall]
    rw [choice_providedCorr hf hg] at hk
    by_cases hkf : k ∈ f.providedCorr.keys
    · simp only [h.fresh k hkf, hkf, not_true_eq_false, false_and, or_false]
    · -- No branch so far provides the key, so the new one alone decides.
      have hnone : ∀ x ∈ fs, k ∈ x.providedCorr.keys → x.providedCorr.freshAt k = true :=
        fun x hx hkx => absurd ((h.providedCorr k).2 ⟨x, hx, hkx⟩) hkf
      have hkg : k ∈ g.providedCorr.keys := hk.resolve_left hkf
      simp only [PathSet.freshAt_eq_false hkf, hkf, hkg, false_and, false_or, not_false_eq_true,
        true_and, forall_const, Bool.false_eq_true]
      exact ⟨fun hfresh => ⟨hnone, hfresh⟩, fun hfresh => hfresh.2⟩
  · rw [exists_mem_concat, ← h.neededVar, (hf.choice hg).neededVar, hf.neededVar, hg.neededVar]
    exact (or_self_iff).symm
  · rw [choice_neededCorr hf hg, h.neededCorr, exists_mem_concat]
  · rw [choice_invalidated hf hg, h.invalidated, exists_mem_concat]

end Reconciles

end Facts

namespace Check

open Facts (Reconciles)

variable {α : Type} {f g : Facts} {fs gs : List Facts} {k : String} {q : Path}
  {reported : List String} {ps : List Path}

theorem Reconciles.eitherOf (h : Reconciles fs f) (hne : fs ≠ []) (hf : f.WellFormed)
    (hgs : ∀ g ∈ gs, g.WellFormed) : Reconciles (fs ++ gs) (eitherOf f gs) := by
  induction gs generalizing fs f with
  | nil =>
    rw [List.append_nil]
    exact h
  | cons g rest ih =>
    obtain ⟨hg, hrest⟩ := List.forall_mem_cons.1 hgs
    rw [List.append_cons]
    exact ih (h.choice hne hf hg) (by simp) (hf.choice hg) hrest

/-- Any of the parts. -/
def anyOf : List Facts → Facts
  | [] => Facts.empty
  | f :: fs => eitherOf f fs

theorem anyOf_reconciles (h : ∀ f ∈ fs, f.WellFormed) : Reconciles fs (anyOf fs) := by
  cases fs with
  | nil => exact .nil
  | cons f rest =>
    obtain ⟨hf, hrest⟩ := List.forall_mem_cons.1 h
    exact Reconciles.eitherOf (.singleton hf) (List.cons_ne_nil _ _) hf hrest

/-! ## Where branches disagree -/

theorem mem_keys_unreported :
    k ∈ (unreported reported ps).map Path.key ↔ k ∉ reported ∧ k ∈ ps.map Path.key := by
  induction ps generalizing reported with
  | nil => simp [unreported]
  | cons p rest ih =>
    rw [unreported, List.map_cons, List.mem_cons]
    split
    · next hp =>
      rw [ih]
      refine ⟨fun h => ⟨h.1, .inr h.2⟩, fun h => ⟨h.1, h.2.resolve_left ?_⟩⟩
      rintro rfl
      exact h.1 (List.contains_iff_mem.1 hp)
    · next hp =>
      have hp : p.key ∉ reported := fun h => hp (List.contains_iff_mem.2 h)
      rw [List.map_cons, List.mem_cons, ih, List.mem_cons, not_or]
      by_cases hkp : k = p.key
      · simp [hkp, hp]
      · simp [hkp]

theorem nodup_unreported : ((unreported reported ps).map Path.key).Nodup := by
  induction ps generalizing reported with
  | nil => exact List.nodup_nil
  | cons p rest ih =>
    rw [unreported]
    split
    · exact ih
    · rw [List.map_cons, List.nodup_cons, mem_keys_unreported]
      exact ⟨fun h => h.1 List.mem_cons_self, ih⟩

/-- The paths over which one of the branches disagrees with those before it, each key once. -/
def disagreements : List String → Facts → List Facts → List Path
  | _, _, [] => []
  | reported, f, g :: rest =>
    unreported reported (f.choice g).2 ++
      disagreements (reportedAfter reported (f.choice g).2) (f.choice g).1 rest

/-- A key is reported if it was not reported before and not all branches agree on it. -/
theorem mem_disagreements (hf : f.WellFormed) (hgs : ∀ g ∈ gs, g.WellFormed) :
    k ∈ (disagreements reported f gs).map Path.key ↔ k ∉ reported ∧
      (∃ g ∈ f :: gs, k ∈ g.providedCorr.keys) ∧ ∃ g ∈ f :: gs, k ∉ g.providedCorr.keys := by
  induction gs generalizing reported f with
  | nil => simp [disagreements]
  | cons g rest ih =>
    obtain ⟨hg, hrest⟩ := List.forall_mem_cons.1 hgs
    rw [disagreements, List.map_append, List.mem_append, mem_keys_unreported, ih (hf.choice hg) hrest,
      mem_reportedAfter, Facts.choice_mismatches]
    simp only [List.exists_mem_cons_iff, Facts.choice_providedCorr hf hg]
    by_cases hkf : k ∈ f.providedCorr.keys <;> by_cases hkg : k ∈ g.providedCorr.keys <;>
      simp [hkf, hkg]

theorem nodup_disagreements (hf : f.WellFormed) (hgs : ∀ g ∈ gs, g.WellFormed) :
    ((disagreements reported f gs).map Path.key).Nodup := by
  induction gs generalizing reported f with
  | nil => exact List.nodup_nil
  | cons g rest ih =>
    obtain ⟨hg, hrest⟩ := List.forall_mem_cons.1 hgs
    rw [disagreements, List.map_append]
    refine List.nodup_append.2 ⟨nodup_unreported, ih (hf.choice hg) hrest, ?_⟩
    -- What was reported of this branch is not reported of a later one.
    rintro k hk k' hk' rfl
    refine ((mem_disagreements (hf.choice hg) hrest).1 hk').1 (mem_reportedAfter.2 (.inr ?_))
    exact (mem_keys_unreported.1 hk).2

theorem mem_paths_choice (hf : f.WellFormed) (hg : g.WellFormed)
    (hq : q ∈ (f.choice g).1.providedCorr.paths) :
    q ∈ f.providedCorr.paths ∨ q ∈ g.providedCorr.paths := by
  have hholds : (f.choice g).1.providedCorr.Holds fun e =>
      e.path ∈ f.providedCorr.paths ∨ e.path ∈ g.providedCorr.paths := by
    rw [Facts.choice_eq hf hg]
    refine (PathSet.Holds.empty.addAll ?_ fun _ _ h => h).addAll ?_ fun _ _ h => h
    · intro x hx
      obtain ⟨e, he, rfl⟩ := List.mem_map.1 hx
      exact .inl (show e.path ∈ f.providedCorr.paths from List.mem_map_of_mem he)
    · intro e he
      exact .inr (List.mem_map_of_mem (List.mem_filter.1 he).1)
  obtain ⟨e, he, rfl⟩ := List.mem_map.1 hq
  exact hholds.all e he

theorem path_of_disagreement (hf : f.WellFormed) (hgs : ∀ g ∈ gs, g.WellFormed)
    (hq : q ∈ disagreements reported f gs) : ∃ g ∈ f :: gs, q ∈ g.providedCorr.paths := by
  induction gs generalizing reported f with
  | nil => cases hq
  | cons g rest ih =>
    obtain ⟨hg, hrest⟩ := List.forall_mem_cons.1 hgs
    have hpair : q ∈ f.providedCorr.paths ∨ q ∈ g.providedCorr.paths →
        ∃ x ∈ f :: g :: rest, q ∈ x.providedCorr.paths := by
      rintro (h | h)
      · exact ⟨f, List.mem_cons_self, h⟩
      · exact ⟨g, List.mem_cons_of_mem _ List.mem_cons_self, h⟩
    rcases List.mem_append.1 hq with hq | hq
    · have hmis : q ∈ ((Facts.lacking g.providedCorr f.providedCorr.entries) ++
          (Facts.lacking f.providedCorr g.providedCorr.entries)).map (·.path) :=
        mem_of_mem_unreported hq
      obtain ⟨e, he, rfl⟩ := List.mem_map.1 hmis
      refine hpair ((List.mem_append.1 he).imp (fun he => ?_) fun he => ?_)
      · exact List.mem_map_of_mem (List.mem_filter.1 he).1
      · exact List.mem_map_of_mem (List.mem_filter.1 he).1
    · obtain ⟨x, hx, hqx⟩ := ih (hf.choice hg) hrest hq
      rcases List.mem_cons.1 hx with rfl | hx
      · exact hpair (mem_paths_choice hf hg hqx)
      · exact ⟨x, List.mem_cons_of_mem _ (List.mem_cons_of_mem _ hx), hqx⟩

def allDisagreements : List Facts → List Path
  | [] => []
  | f :: fs => disagreements [] f fs

/-- The paths to be reported of branches with the given facts. -/
structure Disagree (fs : List Facts) (ps : List Path) : Prop where
  once : (ps.map Path.key).Nodup
  keys : ∀ k, k ∈ ps.map Path.key ↔
    (∃ f ∈ fs, k ∈ f.providedCorr.keys) ∧ ∃ f ∈ fs, k ∉ f.providedCorr.keys
  provided : ∀ q ∈ ps, ∃ f ∈ fs, q ∈ f.providedCorr.paths

theorem allDisagreements_disagree (h : ∀ f ∈ fs, f.WellFormed) :
    Disagree fs (allDisagreements fs) := by
  cases fs with
  | nil => exact ⟨List.nodup_nil, fun k => by simp [allDisagreements], fun _ hq => by cases hq⟩
  | cons f rest =>
    obtain ⟨hf, hrest⟩ := List.forall_mem_cons.1 h
    refine ⟨nodup_disagreements hf hrest, fun k => ?_, fun q hq => path_of_disagreement hf hrest hq⟩
    rw [allDisagreements, mem_disagreements hf hrest]
    simp

/-! ## The walk -/

/-- The facts of an activity, without the flag. -/
def walkFacts (w : Setting) (a : Activity) (s : Bool) : Walk Facts := do
  let r ← walk w a s
  return r.1

/-- The branches of an activity, each as the walk that gives its facts. -/
def branchWalks (w : Setting) : Activity → Bool → List (Walk Facts)
  | .choice _ bs, s => bs.map fun b => walkBranch w b s
  | .cond _ arms otherwise, s => (arms.map Arm.body ++ [otherwise]).map fun a => walkFacts w a s
  | _, _ => []

/-- Compares branches with the facts `f` of those before them. -/
def compareEach (b : Branching) : List (Walk Facts) → Facts → List String → Walk Facts
  | [], f, _ => return f
  | m :: rest, f, reported => do
    let g ← m
    let reported ← reportMismatches b reported (f.choice g).2
    compareEach b rest (f.choice g).1 reported

/-- Compares branches with each other. -/
def compare (b : Branching) : List (Walk Facts) → Walk Facts
  | [] => return Facts.empty
  | m :: rest => do
    let f ← m
    compareEach b rest f []

theorem walkBranches_compare (w : Setting) (bs : List Branch) (f : Facts)
    (reported : List String) :
    walkBranches w bs false f reported =
      compareEach .choice (bs.map fun b => walkBranch w b false) f reported := by
  induction bs generalizing f reported with
  | nil => rw [walkBranches]; rfl
  | cons b rest ih =>
    rw [walkBranches_cons, List.map_cons, compareEach]
    simp only [reportBranches, Bool.false_eq_true, if_false, ih]

theorem walkFacts_choice (w : Setting) (l : Location) (bs : List Branch) :
    walkFacts w (.choice l bs) false = compare .choice (branchWalks w (.choice l bs) false) := by
  cases bs with
  | nil => rw [walkFacts, walk]; rfl
  | cons b rest =>
    rw [walkFacts, walk_choice_cons, branchWalks, List.map_cons, compare]
    simp only [walkBranches_compare, bind_assoc, pure_bind, bind_pure]

theorem walkArms_compare (w : Setting) (otherwise : Activity) (arms : List Arm) (s : Bool)
    (f : Facts) (sofar : Bool) (reported : List String) :
    (do
      let q ← walkArms w arms s f sofar reported
      let e ← walk w otherwise s
      let _ ← reportMismatches .cond q.2.2 (q.1.choice e.1).2
      return (q.1.choice e.1).1) =
      compareEach .cond ((arms.map Arm.body ++ [otherwise]).map fun a => walkFacts w a s) f
        reported := by
  induction arms generalizing f sofar reported with
  | nil =>
    rw [walkArms]
    simp only [pure_bind, List.map_nil, List.nil_append, List.map_cons, compareEach, walkFacts,
      bind_assoc]
  | cons a rest ih =>
    simp only [List.map_cons, List.cons_append, compareEach, walkFacts, bind_assoc, pure_bind] at ih ⊢
    simp only [walkArms_cons, bind_assoc, ih]

/-- A conditional with an arm compares its branches, of which the last one runs otherwise. -/
theorem walkFacts_cond (w : Setting) (l : Location) (arm : Arm) (arms : List Arm)
    (otherwise : Activity) (s : Bool) :
    walkFacts w (.cond l (arm :: arms) otherwise) s =
      compare .cond (branchWalks w (.cond l (arm :: arms) otherwise) s) := by
  have hfirst : walkFacts w arm.body s = walk w arm.body s >>= fun r => pure r.1 := rfl
  rw [walkFacts, walk_cond_cons, branchWalks, List.map_cons, List.cons_append, List.map_cons,
    compare, hfirst]
  simp only [bind_assoc, pure_bind]
  refine congrArg (walk w arm.body s >>= ·) (funext fun r => ?_)
  exact walkArms_compare w otherwise arms s r.1 (s && r.2) []

/-! ## Side by side -/

/-- The two have found the same, and `own` was reported on top. -/
structure Besides (own : List Diagnostic) (p q : Progress) : Prop where
  table : p.table = q.table
  active : p.active = q.active
  diagnostics : p.diagnostics.Perm (q.diagnostics ++ own)

namespace Besides

variable {own : List Diagnostic} {p p' : Progress}

theorem refl (p : Progress) : Besides [] p p :=
  ⟨rfl, rfl, by rw [List.append_nil]⟩

theorem append (h : Besides own p p') (ds : List Diagnostic) :
    (p.diagnostics ++ ds).Perm (p'.diagnostics ++ ds ++ own) := by
  refine (h.diagnostics.append_right ds).trans ?_
  rw [List.append_assoc, List.append_assoc]
  exact List.perm_append_comm.append_left p'.diagnostics

theorem steady (own : List Diagnostic) : Steady (Besides own) :=
  fun _ _ ds _ h => ⟨h.table, h.active, h.append ds⟩

/-- A report on one side. -/
theorem gives (h : Besides own p p') {m : Walk α} {a : α} {ds : List Diagnostic}
    (hm : Gives m a ds) : Besides (own ++ ds) (m.run p).2 p' := by
  refine ⟨(hm.table p).trans h.table, (hm.active p).trans h.active, ?_⟩
  rw [hm.diagnostics, ← List.append_assoc]
  exact h.diagnostics.append_right ds

theorem close {n : String} {r r' : (Facts × Bool) × Progress} (h : Besides own r.2 r'.2)
    (hf : r.1 = r'.1) : Besides own (Scope.close n r) (Scope.close n r') := by
  refine ⟨?_, ?_, h.diagnostics⟩
  · simp only [Scope.close, h.table, hf]
  · simp only [Scope.close, h.active]

end Besides

/-- The computation takes no notice of what was reported. -/
def Unaffected (m : Walk α) : Prop :=
  ∀ own, Simulates (fun _ => True) (Besides own) m m

theorem unaffected_define (s : Scope) (depth : Nat) (n : String) :
    Unaffected (s.define depth n) := by
  intro own
  induction depth generalizing n with
  | zero =>
    intro p p' h _
    rw [Scope.define_run, Scope.define_run, h.table]
    cases p'.table.lookup n with
    | some f => exact ⟨rfl, h⟩
    | none => cases s.definition? n <;> exact ⟨rfl, h⟩
  | succ depth ih =>
    intro p p' h _
    rw [Scope.define_run, Scope.define_run, h.table, h.active]
    cases p'.table.lookup n with
    | some f => exact ⟨rfl, h⟩
    | none =>
      cases s.definition? n with
      | none => exact ⟨rfl, h⟩
      | some d =>
        simp only []
        by_cases ha : n ∈ p'.active
        · rw [if_pos ha, if_pos ha]
          exact ⟨rfl, h⟩
        · rw [if_neg ha, if_neg ha]
          have hwalk : Simulates _ _ (walk (s.setting depth) d.body (n == s.entry))
              (walk (s.setting depth) d.body (n == s.entry)) :=
            walk_simulates ⟨rfl, rfl, rfl⟩ (fun _ _ _ _ => trivial) (Besides.steady own) d.body
              (fun m _ => ih m) _
          have hopen : Besides own { p with active := n :: p.active }
              { p' with active := n :: p'.active } :=
            ⟨h.table, congrArg (n :: ·) h.active, h.diagnostics⟩
          obtain ⟨hval, hbody⟩ := hwalk _ _ hopen trivial
          exact ⟨congrArg (fun r => some r.1) hval, hbody.close hval⟩

namespace Unaffected

variable {β : Type} {m : Walk α} {next : α → Walk β}

theorem pure (a : α) : Unaffected (Pure.pure a : Walk α) :=
  fun _ => .pure a

theorem bind [∀ a, Grows (next a)] (hm : Unaffected m) (hnext : ∀ a, Unaffected (next a)) :
    Unaffected (m >>= next) :=
  fun own => (hm own).bind (fun _ _ _ _ => trivial) fun a => hnext a own

theorem of_gives {a : α} {ds : List Diagnostic} (h : Gives m a ds) : Unaffected m := by
  intro own p p' hp _
  refine ⟨(h.value p).trans (h.value p').symm, ?_, ?_, ?_⟩
  · rw [h.table, h.table, hp.table]
  · rw [h.active, h.active, hp.active]
  · rw [h.diagnostics, h.diagnostics]
    exact hp.append ds

end Unaffected

section Walks

variable {w : Setting} [∀ n, Grows (w.lookup n)] (hlook : ∀ n, Unaffected (w.lookup n))
include hlook

theorem unaffected_walk (a : Activity) (s : Bool) : Unaffected (walk w a s) :=
  fun own => walk_simulates ⟨rfl, rfl, rfl⟩ (fun _ _ _ _ => trivial) (Besides.steady own) a
    (fun n _ => hlook n own) s

theorem unaffected_walkBranch (b : Branch) (s : Bool) : Unaffected (walkBranch w b s) := by
  refine (unaffected_walk hlook b.guard s).bind fun r => ?_
  refine (unaffected_walk hlook b.body r.2).bind fun q => ?_
  exact .of_gives (inSequence_gives r.1 q.1)

theorem unaffected_branchWalks (a : Activity) (s : Bool) :
    ∀ m ∈ branchWalks w a s, Unaffected m := by
  cases a with
  | choice l bs =>
    intro m hm
    obtain ⟨b, -, rfl⟩ := List.mem_map.1 hm
    exact unaffected_walkBranch hlook b s
  | cond l arms otherwise =>
    intro m hm
    obtain ⟨a, -, rfl⟩ := List.mem_map.1 hm
    exact (unaffected_walk hlook a s).bind fun r => .pure r.1
  | _ => exact fun _ hm => (List.not_mem_nil hm).elim

end Walks

/-- Comparing branches is collecting their facts, apart from what is reported of their
disagreements. -/
theorem compareEach_besides {ms : List (Walk Facts)} (hms : ∀ m ∈ ms, Unaffected m)
    (b : Branching) (f : Facts) (reported : List String) {own : List Diagnostic} {p p' : Progress}
    (h : Besides own p p') :
    ((compareEach b ms f reported).run p).1 = eitherOf f ((collect ms).run p').1 ∧
      Besides (own ++ pathDiagnostics (.branchesDisagree b)
          (disagreements reported f ((collect ms).run p').1))
        ((compareEach b ms f reported).run p).2 ((collect ms).run p').2 := by
  induction ms generalizing f reported own p p' with
  | nil =>
    refine ⟨rfl, ?_⟩
    show Besides (own ++ []) p p'
    rwa [List.append_nil]
  | cons m rest ih =>
    obtain ⟨hm, hrest⟩ := List.forall_mem_cons.1 hms
    obtain ⟨hval, hnext⟩ := hm own p p' h trivial
    -- Only the walk that compares reports here, which is what `own` grows by.
    have hgives := reportMismatches_gives b reported (f.choice (m.run p').1).2
    obtain ⟨hfacts, hbesides⟩ := ih hrest (f.choice (m.run p').1).1
      (reportedAfter reported (f.choice (m.run p').1).2) (hnext.gives hgives)
    rw [List.append_assoc, pathDiagnostics, pathDiagnostics, ← List.map_append] at hbesides
    rw [compareEach, run_bind, run_bind, hval, hgives.value]
    exact ⟨hfacts, hbesides⟩

theorem compare_besides {ms : List (Walk Facts)} (hms : ∀ m ∈ ms, Unaffected m) (b : Branching)
    (p : Progress) :
    ((compare b ms).run p).1 = anyOf ((collect ms).run p).1 ∧
      Besides (pathDiagnostics (.branchesDisagree b) (allDisagreements ((collect ms).run p).1))
        ((compare b ms).run p).2 ((collect ms).run p).2 := by
  cases ms with
  | nil => exact ⟨rfl, .refl p⟩
  | cons m rest =>
    obtain ⟨-, hrest⟩ := List.forall_mem_cons.1 hms
    exact compareEach_besides hrest b (m.run p).1 [] (.refl (m.run p).2)

namespace Checker

variable {c : Checker} {n : String} {d : Definition} {depth : Nat} {p : Progress}

theorem branchWalks_wellFormed (hd : c.scope.definition? n = some d) (hp : c.Visits n depth p)
    {a : Activity} (ha : a ∈ d.body.parts) (s : Bool) :
    ∀ f ∈ ((collect (branchWalks (c.scope.setting depth) a s)).run p).1, f.WellFormed := by
  have K := wellFormed_invariant.keeps c.scope depth depth
  have hadmits := admits_true c.scope
  refine collect_invariant (fun m hm => ?_) (hp.linked (wellFormed_invariant.bodies hadmits))
  cases a with
  | choice l bs =>
    obtain ⟨b, hb, rfl⟩ := List.mem_map.1 hm
    exact branch_invariant wellFormed_invariant hadmits hd hp ha hb s
  | cond l arms otherwise =>
    obtain ⟨x, hx, rfl⟩ := List.mem_map.1 hm
    have hwalkable := (hp.walkable wellFormed_invariant hadmits hd ha).child hx
    exact (alike_refl K hwalkable s).walks.bind fun r _ hr => .pure hr
  | _ => exact (List.not_mem_nil hm).elim

/-- The report that branches disagree on a path; it stands where the path does. -/
def mismatchReport (b : Branching) (p : Path) : Diagnostic where
  kind := "MismatchedBranchInit"
  loc := p.loc
  path := p.render
  message := "correlation variable " ++ p.render ++ match b with
    | .choice => " must be initialised in every branch"
    | .cond => " must be initialised in every if-then-else branch"

theorem pathDiagnostics_mismatch (b : Branching) (ps : List Path) :
    pathDiagnostics (.branchesDisagree b) ps = ps.map (mismatchReport b) := by
  cases b <;> rfl

/-- What comes out of branches that were compared, given the walk that only collects their facts. -/
structure Compared (b : Branching) (p : Progress) (each : Walk (List Facts))
    (whole : Walk (Facts × Bool)) : Prop where
  facts : Facts.Reconciles (each.run p).1 (whole.run p).1.1
  table : (whole.run p).2.table = (each.run p).2.table
  reports : ∃ ps, Disagree (each.run p).1 ps ∧ (whole.run p).2.diagnostics.Perm
    ((each.run p).2.diagnostics ++ ps.map (mismatchReport b))

theorem compared (hd : c.scope.definition? n = some d) (hp : c.Visits n depth p) {a : Activity}
    (ha : a ∈ d.body.parts) {s : Bool} {b : Branching}
    (heq : walkFacts (c.scope.setting depth) a s =
      compare b (branchWalks (c.scope.setting depth) a s)) :
    Compared b p (collect (branchWalks (c.scope.setting depth) a s))
      (walk (c.scope.setting depth) a s) := by
  have hwellFormed := branchWalks_wellFormed hd hp ha s
  have hunaffected := unaffected_branchWalks (w := c.scope.setting depth)
    (unaffected_define c.scope depth) a s
  obtain ⟨hfacts, hbesides⟩ := compare_besides hunaffected b p
  rw [← heq] at hfacts hbesides
  have hvalue : ((walk (c.scope.setting depth) a s).run p).1.1 =
      anyOf ((collect (branchWalks (c.scope.setting depth) a s)).run p).1 := hfacts
  refine ⟨?_, hbesides.table, _, allDisagreements_disagree hwellFormed, ?_⟩
  · rw [hvalue]
    exact anyOf_reconciles hwellFormed
  · rw [← pathDiagnostics_mismatch]
    exact hbesides.diagnostics

/-- Branches are compared exactly. Each key that one of them provides and another one does not is
reported once, whatever the number of branches and their order, and no other key is; the facts of
the whole are those on which all branches agree. -/
theorem branches_compared (c : Checker) {n : String} {d : Definition} {depth : Nat} {p : Progress}
    (hd : c.scope.definition? n = some d) (hp : c.Visits n depth p) :
    (∀ l bs, .choice l bs ∈ d.body.parts →
      Compared .choice p (collect (branchWalks (c.scope.setting depth) (.choice l bs) false))
        (walk (c.scope.setting depth) (.choice l bs) false)) ∧
    ∀ l arm arms otherwise s, .cond l (arm :: arms) otherwise ∈ d.body.parts →
      Compared .cond p
        (collect (branchWalks (c.scope.setting depth) (.cond l (arm :: arms) otherwise) s))
        (walk (c.scope.setting depth) (.cond l (arm :: arms) otherwise) s) := by
  constructor
  · intro l bs hnode
    exact compared hd hp hnode (walkFacts_choice _ l bs)
  · intro l arm arms otherwise s hnode
    exact compared hd hp hnode (walkFacts_cond _ l arm arms otherwise s)

/-- A turn of a session that ends in one of three ways, the last of which does nothing. -/
def turn : Activity :=
  .cond {} [⟨.missing, token "sid"⟩, ⟨.missing, .sequence {} [token "uid", token "sid"]⟩] .missing

/-- The check of a session that takes such a turn and goes to the desk. -/
def turnSession : Checker :=
  ofMain { sets := [corrSet "S" ["sid", "uid"]], operations := [("login", "S"), ("redeem", "S")] }
    (.sequence {} [receive "start", turn, .choice {} deskBranches])

theorem turnSession_visits : turnSession.Visits "main" 0 atMain := by
  refine ⟨⟨by decide, by decide +kernel, by decide +kernel, ?_⟩, List.nil_prefix⟩
  intro m hm
  rw [List.mem_singleton.1 hm]

/-- The ways in which the turn may end disagree over both values, and at the desk both branches
provide the second one. -/
theorem branches_compared_turn :
    (∃ ps : List Path, (ps.map Path.key).Nodup ∧ (corrPath "sid").key ∈ ps.map Path.key ∧
      (corrPath "uid").key ∈ ps.map Path.key ∧
      ((walk (turnSession.scope.setting 0) turn false).run atMain).2.diagnostics.Perm
        (((collect (branchWalks (turnSession.scope.setting 0) turn false)).run
          atMain).2.diagnostics ++ ps.map (mismatchReport .cond))) ∧
      (corrPath "uid").key ∈ ((walk (turnSession.scope.setting 0) (.choice {} deskBranches)
        false).run atMain).1.1.providedCorr.keys := by
  have hd : turnSession.scope.definition? "main" =
      some ⟨{}, "main", .sequence {} [receive "start", turn, .choice {} deskBranches]⟩ := rfl
  have hparts : turn ∈
      (Activity.sequence {} [receive "start", turn, .choice {} deskBranches]).parts ∧
      Activity.choice {} deskBranches ∈
        (Activity.sequence {} [receive "start", turn, .choice {} deskBranches]).parts :=
    ⟨Activity.mem_parts_of_child (by simp [Activity.children]),
      Activity.mem_parts_of_child (by simp [Activity.children])⟩
  obtain ⟨hchoice, hcond⟩ := branches_compared turnSession hd turnSession_visits
  have hturn := hcond _ _ _ _ false hparts.1
  have hdesk := hchoice _ _ hparts.2
  refine ⟨?_, ?_⟩
  · obtain ⟨ps, hps, hperm⟩ := hturn.reports
    refine ⟨ps, hps.once, ?_, ?_, hperm⟩
    · rw [hps.keys]
      decide +kernel
    · rw [hps.keys]
      decide +kernel
  · rw [hdesk.facts.providedCorr]
    decide +kernel

end Checker

end Check

end Sessions
