import Sessions.Proofs.Check.Findings
import Sessions.Proofs.Check.WellFormed
import Sessions.Proofs.Facts.Sources

/-!
# Sessions.Proofs.Check.Origin

Where facts and diagnostics come from.

* `Scope.Covers s n m a` — the activity `a` of definition `m` counts for definition `n`: it stands
  neither in a fault handler nor in what is spawned, and `n` reaches `m` by such calls.
* `Scope.sources s N` — what the activities in `N` provide, give a fresh value to, need and lose.
* `Checker.Grounded c l pr` — the program has an activity at which the problem `pr` arises at `l`.

The facts of each definition come from the activities that count for it (`walked_origin`), and every
diagnostic is grounded (`check_grounded`).
-/

namespace Sessions

/-! ## What an activity does by itself -/

namespace Activity

/-- The activity initialises the path: an assignment that is accepted, or a reply that is stored in
a correlation variable. -/
inductive Initialises : Activity → Path → Prop
  | assign {l p op v} (hop : op = "" ∨ op = "=") (hp : p.isStatic = true)
      (hv : v.suits p = true) : Initialises (.assign l p op v) p
  | reply {l op port output p} (hp : p.isCorrelation = true) :
      Initialises (.solicitResponse l op port output (some p)) p

/-- The activity gives the key a fresh value: a new token, or a reply that is recognised. -/
inductive Refreshes (fresh : Check.Recogniser) : Activity → String → Prop
  | assign {l p op l'} (hop : op = "" ∨ op = "=") :
      Refreshes fresh (.assign l p op (.fresh l')) p.key
  | reply {l op port output p} (h : (fresh port op).fresh = true) :
      Refreshes fresh (.solicitResponse l op port output (some p)) p.key

/-- The activity is an input operation. -/
inductive Receives : Activity → Location → String → Prop
  | oneWay (l op target) : Receives (.oneWay l op target) l op
  | requestResponse (l op target output handler) :
      Receives (.requestResponse l op target output handler) l op

/-- The paths that the activity makes untraceable. -/
def operands : Activity → List Path
  | .pointer _ left right => [left, right]
  | .deepCopy _ left right => [left, right]
  | .undef _ target => [target]
  | _ => []

end Activity

namespace Check

namespace Scope

variable {s : Scope} {N N' : String → Activity → Prop} {n m op : String} {a : Activity}
  {l : Location} {p : Path} {depth : Nat} {t : Bool}

/-! ## Sources -/

/-- The activity `a` stands in definition `m`, neither in a fault handler nor in what is spawned. -/
def Stands (s : Scope) (m : String) (a : Activity) : Prop :=
  ∃ d, s.definition? m = some d ∧ d.body.Includes a

/-- The activity `a` of definition `m` counts for definition `n`, which reaches `m` by calls. -/
structure Covers (s : Scope) (n m : String) (a : Activity) : Prop where
  reaches : Relation.ReflTransGen (fun n m => ∃ l, s.Stands n (.call l m)) n m
  stands : s.Stands m a

/-- The activity `a` stands in definition `m`, in a fault handler or not. -/
def Contains (s : Scope) (m : String) (a : Activity) : Prop :=
  ∃ d, s.definition? m = some d ∧ a ∈ d.body.parts

/-- The path is that of a variable of the operation's correlation set, at the place `l`. -/
def Correlates (s : Scope) (l : Location) (op : String) (p : Path) : Prop :=
  s.mode ≠ .single ∧ ∃ t set v, s.correlation = some t ∧ t.setFor? op = some set ∧
    v ∈ set.vars ∧ p = v.path.underRoot l

/-- What the activities in `N` provide, give a fresh value to, need and lose. An input operation
starts a session only in the body of the entry point. -/
def sources (s : Scope) (N : String → Activity → Prop) : Facts.Sources where
  provides p := ∃ m a, N m a ∧
    (a.Initialises p ∨
      m = s.entry ∧ s.Stands m a ∧ ∃ l op, a.Receives l op ∧ s.Correlates l op p)
  refreshes k := ∃ m a, N m a ∧ a.Refreshes s.fresh k
  needs p := ∃ m a, N m a ∧ ∃ l op, a.Receives l op ∧ s.Correlates l op p
  loses p := ∃ m a, N m a ∧ p ∈ a.operands

theorem sources_within (h : ∀ {m a}, N m a → N' m a) : (s.sources N).Within (s.sources N') where
  provides := fun ⟨m, a, ha, hp⟩ => ⟨m, a, h ha, hp⟩
  refreshes := fun ⟨m, a, ha, hk⟩ => ⟨m, a, h ha, hk⟩
  needs := fun ⟨m, a, ha, hp⟩ => ⟨m, a, h ha, hp⟩
  loses := fun ⟨m, a, ha, hp⟩ => ⟨m, a, h ha, hp⟩

theorem Covers.contains (h : s.Covers n m a) : s.Contains m a := by
  obtain ⟨d, hd, ha⟩ := h.stands
  exact ⟨d, hd, ha.mem_parts⟩

theorem Covers.called {k : String} (h : s.Stands n (.call l m)) (ha : s.Covers m k a) :
    s.Covers n k a :=
  ⟨.head ⟨l, h⟩ ha.reaches, ha.stands⟩

theorem correlates_of_mem (h : p ∈ receivedPaths (s.setting depth) l op) : s.Correlates l op p := by
  obtain ⟨q, hq, rfl⟩ := List.mem_map.1 h
  unfold inputPaths at hq
  split at hq
  · exact (List.not_mem_nil hq).elim
  · next hmode =>
    refine ⟨hmode, ?_⟩
    obtain ⟨set, hset, hq⟩ :
        ∃ set, s.correlation.bind (·.setFor? op) = some set ∧ q ∈ set.paths := by
      change q ∈ (Option.map (·.paths) (s.correlation.bind (·.setFor? op))).getD [] at hq
      cases hset : s.correlation.bind (·.setFor? op) with
      | none => rw [hset] at hq; exact (List.not_mem_nil hq).elim
      | some set => rw [hset] at hq; exact ⟨set, rfl, hq⟩
    obtain ⟨t, ht, hset⟩ := Option.bind_eq_some_iff.1 hset
    obtain ⟨v, hv, rfl⟩ := List.mem_map.1 hq
    exact ⟨t, set, v, ht, hset, hv, rfl⟩

theorem input_from (ha : N m a) (hr : a.Receives l op)
    (ht : t = true → m = s.entry ∧ s.Stands m a) :
    (inputFacts (s.setting depth) l op t).From (s.sources N) := by
  cases t with
  | false =>
    rw [inputFacts_false]
    exact { Facts.From.empty with
      neededCorr := PathSet.Holds.empty.addPaths fun p hp =>
        ⟨m, a, ha, l, op, hr, correlates_of_mem hp⟩ }
  | true =>
    rw [inputFacts_true]
    refine { Facts.From.empty with
      providedCorr := PathSet.Holds.empty.addPaths fun p hp =>
        ⟨m, a, ha, .inr ⟨(ht rfl).1, (ht rfl).2, l, op, hr, correlates_of_mem hp⟩⟩
      fresh := fun {k} hk => ?_ }
    obtain ⟨e, he, -, hf⟩ := PathSet.freshAt_iff.1 hk
    have hflags : (PathSet.empty.addPaths (receivedPaths (s.setting depth) l op)).Holds
        fun e => e.fresh = false := PathSet.Holds.empty.addPaths fun _ _ => rfl
    rw [hflags.all e he] at hf
    cases hf

end Scope

theorem suits_of_assigned {target : Path} {value : Expr} {fresh : Bool}
    (h : assigned target value = some fresh) :
    target.isStatic = true ∧ value.suits target = true ∧
      (fresh = true → ∃ l, value = .fresh l) := by
  unfold assigned at h
  split at h
  · next hstatic =>
    refine ⟨hstatic, ?_⟩
    cases value with
    | constant l v => cases h; exact ⟨rfl, fun h => Bool.noConfusion h⟩
    | fresh l => exact ⟨rfl, fun _ => ⟨l, rfl⟩⟩
    | increment l p pre decrement =>
      simp only at h
      split at h
      · next hsame => cases h; exact ⟨hsame, fun h => Bool.noConfusion h⟩
      · cases h
    | _ => cases h
  · cases h

namespace Scope

variable {s : Scope} {N : String → Activity → Prop} {n m : String} {a : Activity} {depth : Nat}
  {t : Bool}

theorem own_from (ha : N m a) (ht : t = true → m = s.entry ∧ s.Stands m a) :
    (ownFacts (s.setting depth) a t).From (s.sources N) := by
  cases a with
  | oneWay l op target => exact input_from ha (.oneWay l op target) ht
  | requestResponse l op target output handler => exact input_from ha (.requestResponse ..) ht
  | solicitResponse l op port output target =>
    cases target with
    | none => exact .empty
    | some p =>
      rw [ownFacts]
      split
      · next hp => exact .provide ⟨m, _, ha, .inl (.reply hp)⟩ fun hf => ⟨m, _, ha, .reply hf⟩
      · exact .empty
  | assign l target op value =>
    rw [ownFacts, assignmentFacts]
    split
    · exact .empty
    · next hop =>
      have hop : op = "" ∨ op = "=" := by
        by_cases h : op = ""
        · exact .inl h
        · exact .inr (by simpa [h] using hop)
      cases hv : assigned target value with
      | none => exact .empty
      | some fresh =>
        obtain ⟨hstatic, hsuits, hfresh⟩ := suits_of_assigned hv
        refine .provide ⟨m, _, ha, .inl (.assign hop hstatic hsuits)⟩ fun hf => ?_
        obtain ⟨l', rfl⟩ := hfresh hf
        exact ⟨m, _, ha, .assign hop⟩
  | pointer l left right =>
    have hloses : ∀ p ∈ [left, right], (s.sources N).loses p := fun p hp => ⟨m, _, ha, hp⟩
    exact (Facts.From.empty.invalidate (hloses right (by simp))).invalidate (hloses left (by simp))
  | deepCopy l left right =>
    have hloses : ∀ p ∈ [left, right], (s.sources N).loses p := fun p hp => ⟨m, _, ha, hp⟩
    exact (Facts.From.empty.invalidate (hloses right (by simp))).invalidate (hloses left (by simp))
  | undef l target =>
    exact Facts.From.empty.invalidate ⟨m, _, ha, List.mem_singleton.2 rfl⟩
  | _ => exact .empty

/-! ## Grounds of problems -/

/-- An activity of the program is where the problem arises. -/
inductive Grounded (s : Scope) : Location → Problem → Prop
  | twice {p : Path} (h : (s.sources s.Contains).provides p) :
      Grounded s p.loc (.initialisedTwice p)
  | disagree {p : Path} (b : Branching) (h : (s.sources s.Contains).provides p) :
      Grounded s p.loc (.branchesDisagree b p)
  | loop {m : String} {a : Activity} (ps : List String) (h : s.Contains m a)
      (hl : a.isLoop = true) : Grounded s a.loc (.initialisedInLoop ps)
  | noSet {m op : String} {a : Activity} {l : Location} (h : s.Contains m a)
      (hr : a.Receives l op) (hm : s.mode ≠ .single) : Grounded s l (.noSet op)
  | receivesOn {m op : String} {a : Activity} {l : Location} (p : Path) (h : s.Contains m a)
      (hr : a.Receives l op) : Grounded s l (.receivesOn op p)
  | noDefinition {m n : String} {l : Location} (h : s.Contains m (.call l n)) :
      Grounded s l (.noDefinition n)
  | incremented {m : String} {l : Location} {p : Path} {pre decrement : Bool}
      (h : s.Contains m (.increment l p pre decrement)) : Grounded s l (.incremented p)
  | updated {m op : String} {l : Location} {p : Path} {value : Expr}
      (h : s.Contains m (.assign l p op value)) : Grounded s l (.updated p op)
  | notLiteral {m op : String} {l : Location} {p : Path} {value : Expr}
      (h : s.Contains m (.assign l p op value)) : Grounded s l (.notLiteral p)

/-- The diagnostic reports a problem that has its grounds in the program. -/
def Justifies (s : Scope) (d : Diagnostic) : Prop :=
  ∃ l pr, s.Grounded l pr ∧ d = Diagnostic.ofProblem l pr

theorem Grounded.justifies {l : Location} {pr : Problem} (h : s.Grounded l pr) :
    s.Justifies (Diagnostic.ofProblem l pr) :=
  ⟨l, pr, h, rfl⟩

theorem input_justifies {l : Location} {op : String} (ha : s.Contains m a) (hr : a.Receives l op)
    (target : Option Path) :
    ∀ d ∈ inputDiagnostics (s.setting depth) l op target t, s.Justifies d := by
  intro d hd
  rcases List.mem_append.1 hd with hd | hd
  · cases target with
    | none => exact (List.not_mem_nil hd).elim
    | some p =>
      rw [receptionDiagnostics] at hd
      split at hd
      · rw [List.mem_singleton.1 hd]
        exact (Grounded.receivesOn p ha hr).justifies
      · exact (List.not_mem_nil hd).elim
  · split at hd
    · next h =>
      rw [List.mem_singleton.1 hd]
      exact (Grounded.noSet ha hr h.1).justifies
    · exact (List.not_mem_nil hd).elim

theorem own_justifies (ha : s.Contains m a) :
    ∀ d ∈ ownDiagnostics (s.setting depth) a t, s.Justifies d := by
  cases a with
  | oneWay l op target => exact input_justifies ha (.oneWay l op target) target
  | requestResponse l op target output handler =>
    exact input_justifies ha (.requestResponse l op target output handler) target
  | assign l target op value =>
    intro d hd
    rw [ownDiagnostics, assignmentDiagnostics] at hd
    split at hd
    · exact (List.not_mem_nil hd).elim
    · split at hd
      · rw [List.mem_singleton.1 hd]
        exact (Grounded.updated ha).justifies
      · split at hd
        · exact (List.not_mem_nil hd).elim
        · rw [List.mem_singleton.1 hd]
          exact (Grounded.notLiteral ha).justifies
  | increment l p pre decrement =>
    intro d hd
    rw [ownDiagnostics] at hd
    split at hd
    · rw [List.mem_singleton.1 hd]
      exact (Grounded.incremented ha).justifies
    · exact (List.not_mem_nil hd).elim
  | _ => exact List.forall_mem_nil _

theorem loop_justifies (ha : s.Contains m a) (hl : a.isLoop = true) (f : Facts) :
    ∀ d ∈ loopDiagnostics a.loc f, s.Justifies d := by
  intro d hd
  rw [loopDiagnostics] at hd
  split at hd
  · exact (List.not_mem_nil hd).elim
  · rw [List.mem_singleton.1 hd]
    exact (Grounded.loop _ ha hl).justifies

end Scope

/-! ## The walk -/

/-- A walk beside itself: the facts of each definition satisfy `P`, and all that is reported
satisfies `D`. -/
def Link.sole (P : String → Facts → Prop) (D : Diagnostic → Prop) : Link where
  stage _ := True
  earlier _ _ := trivial
  reports ds _ := ∀ d ∈ ds, D d
  nil := List.forall_mem_nil _
  append hds hes := List.forall_mem_append.2 ⟨hds, hes⟩
  known _ := True
  facts n f _ := P n f

/-- The facts are well-formed and come from the sources. -/
structure Sourced (S : Facts.Sources) (f : Facts) : Prop where
  wellFormed : f.WellFormed
  origin : f.From S

/-- Merges keep the sources, if the link admits what is reported of paths that these provide. -/
theorem Sourced.merges {L : Link} {S : Facts.Sources}
    (htwice : ∀ ps ps', (∀ p ∈ ps, S.provides p) →
      L.reports (pathDiagnostics .initialisedTwice ps) (pathDiagnostics .initialisedTwice ps'))
    (hdisagree : ∀ b ps ps', (∀ p ∈ ps, S.provides p) →
      L.reports (pathDiagnostics (.branchesDisagree b) ps)
        (pathDiagnostics (.branchesDisagree b) ps')) :
    Merges L (fun f _ => Sourced S f) fun _ _ => True where
  seen := trivial
  empty := ⟨.empty, .empty⟩
  sequence hf hg := ⟨hf.1.sequence hg.1, hf.2.sequence hg.1 hg.2⟩
  parallel hf hg := ⟨hf.1.parallel hg.1, hf.2.parallel hg.1 hg.2⟩
  clashes _ hg := htwice _ _ fun _ hp => hg.2.of_clash hp
  choice hf hg := ⟨.choice hf.1 hg.1, .choice hf.1 hg.1 hf.2 hg.2⟩
  mismatches b hf hg _ :=
    ⟨trivial, hdisagree b _ _ fun _ hp => hf.2.of_mismatch hg.2 (mem_of_mem_unreported hp)⟩
  handler hf hg := ⟨hf.1.handler hg.1, hf.2.handler hg.1 hg.2⟩

theorem Sourced.weaken {s : Scope} {N N' : String → Activity → Prop}
    (h : ∀ {m a}, N m a → N' m a) {f : Facts} (hf : Sourced (s.sources N) f) :
    Sourced (s.sources N') f :=
  ⟨hf.1, hf.2.mono (Scope.sources_within h)⟩

namespace Scope

variable {s : Scope} {n m : String} {d : Definition} {a : Activity} {depth depth' : Nat}
  {active : List String}

/-- The facts of each definition come from what counts for it, and what is reported has its grounds
in the program. -/
def originLink (s : Scope) : Link :=
  .sole (fun n => Sourced (s.sources (s.Covers n))) s.Justifies

theorem merges_origin {N : String → Activity → Prop} (hN : ∀ {m a}, N m a → s.Contains m a) :
    Merges s.originLink (fun f _ => Sourced (s.sources N) f) fun _ _ => True := by
  have hprovides : ∀ {p}, (s.sources N).provides p → (s.sources s.Contains).provides p :=
    (sources_within hN).provides
  refine Sourced.merges (fun ps _ hps x hx => ?_) (fun b ps _ hps x hx => ?_)
  · obtain ⟨p, hp, rfl⟩ := List.mem_map.1 hx
    exact (Grounded.twice (hprovides (hps p hp))).justifies
  · obtain ⟨p, hp, rfl⟩ := List.mem_map.1 hx
    exact (Grounded.disagree b (hprovides (hps p hp))).justifies

/-- Fault handlers are walked with the flag cleared: no session starts there. -/
theorem handlers_origin (hd : s.definition? n = some d)
    (hcalls : ∀ m ∈ d.body.calls, Related s.originLink active
      (Option.Rel (s.originLink.facts m)) (s.define depth m) (s.define depth' m))
    (ha : a ∈ d.body.parts) :
    Alike s.originLink (fun f _ => Sourced (s.sources s.Contains) f) (s.setting depth)
      (s.setting depth') active false a a := by
  have G : Grounds s.originLink (fun f _ => Sourced (s.sources s.Contains) f) (s.setting depth)
      (s.setting depth') active false (· ∈ d.body.parts) :=
    { own := fun {b t} hb ht =>
        ⟨ownFacts_wellFormed _ b t, own_from (m := n) ⟨d, hd, hb⟩ fun h => Bool.noConfusion (ht h)⟩
      reports := fun hb _ => own_justifies ⟨d, hd, hb⟩
      loops := fun hb hl _ => loop_justifies ⟨d, hd, hb⟩ hl _
      lookup := fun {l m} hb =>
        (hcalls m (Activity.mem_calls_of_part hb (Activity.mem_calls_call l m))).found
          fun _ _ h => Sourced.weaken Covers.contains h
      unknown := fun hb =>
        List.forall_mem_singleton.2 (Grounded.noDefinition ⟨d, hd, hb⟩).justifies }
  exact alike_of_children (merges_origin id) G
    (fun hb hx => Activity.parts_subset hb (Activity.mem_parts_of_child hx)) ha
    fun h => Bool.noConfusion h

theorem bodies_origin (s : Scope) : Bodies s.originLink s s where
  defined _ := Iff.rfl
  calls _ _ := trivial
  cut _ := ⟨.empty, .empty⟩
  body := by
    intro n d d' active depth depth' _ hd hd' _ hcalls
    cases hd.symm.trans hd'
    -- What a call brings counts here as well, since a call that counts leads there; the flag is set
    -- only in the body of the entry point, and only there inputs provide.
    have hself : ∀ {b}, d.body.Includes b → s.Covers n n b := fun hb => ⟨.refl, d, hd, hb⟩
    have G : Grounds s.originLink (fun f _ => Sourced (s.sources (s.Covers n)) f)
        (s.setting depth) (s.setting depth') active (n == s.entry) d.body.Includes :=
      { own := fun {b t} hb ht =>
          ⟨ownFacts_wellFormed _ b t, own_from (hself hb) fun h => ⟨beq_iff_eq.1 (ht h), d, hd, hb⟩⟩
        reports := fun hb _ => own_justifies (hself hb).contains
        loops := fun hb hl _ => loop_justifies (hself hb).contains hl _
        lookup := fun {l m} hb =>
          (hcalls m (Activity.mem_calls_of_part hb.mem_parts (Activity.mem_calls_call l m))).found
            fun _ _ h => Sourced.weaken (Covers.called ⟨d, hd, hb⟩) h
        unknown := fun hb =>
          List.forall_mem_singleton.2 (Grounded.noDefinition (hself hb).contains).justifies }
    refine (alike_of_steps (merges_origin Covers.contains) G (fun hb hx => hb.step hx) ?_
      (.self d.body) id).walks
    intro l hs hinstall
    refine walkHandlers_related (List.forall₂_same.2 fun x hx => handlers_origin hd hcalls ?_)
    exact Activity.parts_subset hinstall.mem_parts
      (Activity.mem_parts_of_child (List.mem_map_of_mem hx))

end Scope

/-! ## The check -/

namespace Checker

variable {c : Checker}

theorem walked_origin (c : Checker) :
    (∀ {n f}, c.walked.table.lookup n = some f →
      Sourced (c.scope.sources (c.scope.Covers n)) f) ∧
      ∀ d ∈ c.walked.diagnostics, c.scope.Justifies d := by
  have B := c.scope.bodies_origin
  refine ⟨fun hf => walked_facts B (fun _ => trivial) trivial hf, ?_⟩
  exact (walked_related B (fun _ => trivial) (List.forall₂_refl _) trivial).2

/-- The activity counts for the entry point or for the initial definition. -/
def Runs (c : Checker) (m : String) (a : Activity) : Prop :=
  c.scope.Covers c.entryName m a ∨ c.scope.Covers c.initName m a

/-- The problem arises at an activity, or the program as a whole has it. -/
inductive Grounded (c : Checker) : Location → Problem → Prop
  | walk {l : Location} {pr : Problem} (h : c.scope.Grounded l pr) : Grounded c l pr
  | noEntry : Grounded c ((c.program.map (·.loc)).getD {}) .noEntry
  | inInit {p : Path} (h : (c.scope.sources (c.scope.Covers c.initName)).provides p) :
      Grounded c p.loc (.initialisedInInit p)
  | unmet {p : Path} (h : (c.scope.sources c.Runs).needs p) :
      Grounded c p.loc (.unmetCorrelation p)
  | stale {set : Correlation.CorrelationSet} (h : set ∈ c.sets) :
      Grounded c set.loc (.notFresh set.name)

theorem shortcomings_grounded {f : Facts} (hf : Sourced (c.scope.sources c.Runs) f) :
    ∀ d ∈ c.shortcomings f, ∃ l pr, c.Grounded l pr ∧ d = Diagnostic.ofProblem l pr := by
  intro d hd
  rcases List.mem_append.1 hd with hd | hd
  · obtain ⟨p, hp, rfl⟩ := List.mem_map.1 hd
    exact ⟨_, _, .unmet (hf.origin.of_mem_neededCorr hp), rfl⟩
  · rcases List.mem_append.1 hd with hd | hd
    · rw [hf.wellFormed.neededVar] at hd
      exact (List.not_mem_nil hd).elim
    · obtain ⟨set, hset, rfl⟩ := List.mem_map.1 hd
      exact ⟨_, _, .stale (List.mem_filter.1 hset).1, rfl⟩

theorem verdict_grounded {init main : Option Facts}
    (hinit : ∀ f ∈ init, Sourced (c.scope.sources (c.scope.Covers c.initName)) f)
    (hmain : ∀ f ∈ main, Sourced (c.scope.sources (c.scope.Covers c.entryName)) f) :
    ∀ d ∈ c.verdict init main, ∃ l pr, c.Grounded l pr ∧ d = Diagnostic.ofProblem l pr := by
  cases main with
  | none =>
    intro d hd
    rw [verdict] at hd
    exact ⟨_, _, .noEntry, List.mem_singleton.1 hd⟩
  | some main =>
    have hm := hmain main rfl
    have hrun : Sourced (c.scope.sources c.Runs) main := Sourced.weaken .inl hm
    cases init with
    | none => exact shortcomings_grounded hrun
    | some init =>
      have hi := hinit init rfl
      have hi' : Sourced (c.scope.sources c.Runs) init := Sourced.weaken .inr hi
      intro d hd
      rcases List.mem_append.1 hd with hd | hd
      · obtain ⟨p, hp, rfl⟩ := List.mem_map.1 hd
        exact ⟨_, _, .inInit (hi.origin.of_mem_providedCorr hp), rfl⟩
      · rcases List.mem_append.1 hd with hd | hd
        · obtain ⟨p, hp, rfl⟩ := List.mem_map.1 hd
          have hprovides := (Scope.sources_within Scope.Covers.contains).provides
            (hm.origin.of_clash hp)
          exact ⟨_, _, .walk (.twice hprovides), rfl⟩
        · exact shortcomings_grounded ⟨hi'.1.sequence hrun.1, hi'.2.sequence hrun.1 hrun.2⟩ d hd

/-- Every diagnostic has its grounds in the program. -/
theorem check_grounded (c : Checker) :
    ∀ d ∈ c.check.diagnostics, ∃ l pr, c.Grounded l pr ∧ d = Diagnostic.ofProblem l pr := by
  intro d hd
  rw [check_diagnostics] at hd
  rcases List.mem_append.1 hd with hd | hd
  · obtain ⟨l, pr, h, rfl⟩ := c.walked_origin.2 d hd
    exact ⟨l, pr, .walk h, rfl⟩
  · exact verdict_grounded (fun _ hf => c.walked_origin.1 hf) (fun _ hf => c.walked_origin.1 hf)
      d hd

/-- The reports that a path is initialised twice, not in every branch or by the initial definition:
each stands where the path does. -/
def initialisationReports (p : Path) : List Diagnostic :=
  [{ kind := "DuplicateCorrelationInit"
     loc := p.loc
     path := p.render
     message := "correlation variable " ++ p.render ++ " can not be initialised more than once" },
   { kind := "MismatchedBranchInit"
     loc := p.loc
     path := p.render
     message := "correlation variable " ++ p.render ++ " must be initialised in every branch" },
   { kind := "MismatchedBranchInit"
     loc := p.loc
     path := p.render
     message := "correlation variable " ++ p.render ++
      " must be initialised in every if-then-else branch" },
   { kind := "InitMayNotSetCorrelation"
     loc := p.loc
     path := p.render
     message := "correlation variable " ++ p.render ++
      " can not be initialised in the init procedure" }]

/-- Facts and diagnostics have a real origin. Whatever the facts of a definition say comes from an
activity that counts for it: a path is provided by an assignment that is accepted, by a reply, or by
an input of the entry point; it is fresh only if a path of its key gets a fresh value; it is needed
by an input and lost by an alias or a removal. So what is used before it is initialised is reported
at an input whose set contains the path, and what is initialised twice, not in every branch or by
the initial definition is reported at a path that is initialised. -/
theorem findings_originate (c : Checker) :
    (∀ e ∈ c.facts, e.2.From (c.scope.sources (c.scope.Covers e.1))) ∧
    (∀ d ∈ c.check.diagnostics, d.kind = "UsedBeforeInitialized" →
      ∃ m a op p, c.Runs m a ∧ a.Receives d.loc op ∧ c.scope.Correlates d.loc op p ∧
        d.path = p.render ∧
        d.message = "correlation path " ++ p.render ++ " is not initialised before usage") ∧
    ∀ d ∈ c.check.diagnostics,
      d.kind ∈ ["DuplicateCorrelationInit", "MismatchedBranchInit", "InitMayNotSetCorrelation"] →
      ∃ p, (c.scope.sources c.scope.Contains).provides p ∧ d ∈ initialisationReports p := by
  refine ⟨fun e he => ?_, fun d hd hkind => ?_, fun d hd hkind => ?_⟩
  · obtain ⟨x, -, hx⟩ := List.mem_filterMap.1 he
    obtain ⟨f, hf, rfl⟩ := Option.map_eq_some_iff.1 hx
    rw [progress_table] at hf
    exact (c.walked_origin.1 hf).origin
  · obtain ⟨l, pr, h, rfl⟩ := c.check_grounded d hd
    have hk : pr.kind = .usedBeforeInitialized := kind_name_injective hkind
    clear hkind
    cases h with
    | walk h => cases h <;> cases hk
    | unmet h =>
      obtain ⟨m, a, ha, l, op, hr, hc⟩ := h
      obtain ⟨-, -, -, v, -, -, -, rfl⟩ := id hc
      exact ⟨m, a, op, _, ha, hr, hc, rfl, rfl⟩
    | _ => cases hk
  · obtain ⟨l, pr, h, rfl⟩ := c.check_grounded d hd
    have hkinds : ∀ k : Kind, k.name ∈
        ["DuplicateCorrelationInit", "MismatchedBranchInit", "InitMayNotSetCorrelation"] →
        k ∈ [Kind.duplicateCorrelationInit, .mismatchedBranchInit, .initMayNotSetCorrelation] := by
      intro k
      cases k <;> decide
    have hk := hkinds pr.kind hkind
    cases h with
    | walk h =>
      cases h with
      | twice h => exact ⟨_, h, .head _⟩
      | disagree b h =>
        cases b with
        | choice => exact ⟨_, h, .tail _ (.head _)⟩
        | cond => exact ⟨_, h, .tail _ (.tail _ (.head _))⟩
      | _ => simp [Problem.kind] at hk
    | inInit h =>
      exact ⟨_, (Scope.sources_within Scope.Covers.contains).provides h,
        .tail _ (.tail _ (.tail _ (.head _)))⟩
    | _ => simp [Problem.kind] at hk

/-- A session that gets its id from the message that starts it and two more times, once from another
definition, and goes on with an input whose set nobody initialised. -/
def courier : Checker :=
  (ofMain { sets := [corrSet "S" ["sid"], corrSet "U" ["uid"]],
            operations := [("start", "S"), ("next", "U")] } .missing).on
    ⟨{}, [.definition ⟨{}, "main", .sequence {} [receive "start", .call {} "issue", token "sid",
      receive "next"]⟩, .definition ⟨{}, "issue", token "sid"⟩]⟩

theorem findings_originate_courier :
    (∃ d ∈ courier.check.diagnostics, d.kind = "UsedBeforeInitialized" ∧
      ∃ m a op p, courier.Runs m a ∧ a.Receives d.loc op ∧ courier.scope.Correlates d.loc op p ∧
        d.path = p.render ∧
        d.message = "correlation path " ++ p.render ++ " is not initialised before usage") ∧
    (∃ d ∈ courier.check.diagnostics, d.kind = "DuplicateCorrelationInit" ∧
      ∃ p, (courier.scope.sources courier.scope.Contains).provides p ∧
        d ∈ initialisationReports p) ∧
    ∃ f, ("main", f) ∈ courier.facts ∧
      f.From (courier.scope.sources (courier.scope.Covers "main")) := by
  obtain ⟨hfacts, hused, hinit⟩ := findings_originate courier
  have hkinds : (∃ d ∈ courier.check.diagnostics, d.kind = "UsedBeforeInitialized") ∧
      ∃ d ∈ courier.check.diagnostics, d.kind = "DuplicateCorrelationInit" := by
    decide +kernel
  have hmain : "main" ∈ courier.facts.map (·.1) := by decide +kernel
  obtain ⟨⟨d, hd, hk⟩, d', hd', hk'⟩ := hkinds
  obtain ⟨⟨n, f⟩, hf, rfl⟩ := List.mem_map.1 hmain
  refine ⟨⟨d, hd, hk, hused d hd hk⟩, ⟨d', hd', hk', hinit d' hd' ?_⟩, f, hf, hfacts _ hf⟩
  rw [hk']
  exact List.mem_cons_self

end Checker

end Check

end Sessions
