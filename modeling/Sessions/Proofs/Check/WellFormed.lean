import Sessions.Proofs.Check.Verdict
import Sessions.Proofs.Facts.Merge

/-!
# Sessions.Proofs.Check.WellFormed

The facts that a check computes are well-formed. A property of facts that holds of single paths and
that every merge keeps (`Invariant`) holds of the facts of every definition (`walked_invariant`) and
of every activity at the moment when the check comes to it (`visit_invariant`). `Checker.Visits`
describes these moments: the definitions that are open form a stack of calls, and the table leads to
that of the whole check.
-/

namespace Sessions.Check

/-! ## Inputs -/

theorem isCorrelation_of_mem_inputPaths {w : Setting} {op : String} {p : Path}
    (h : p ∈ inputPaths w op) : p.isCorrelation = true := by
  unfold inputPaths at h
  split at h
  · exact (List.not_mem_nil h).elim
  · cases hset : w.correlation.bind (·.setFor? op) with
    | none => rw [hset] at h; exact (List.not_mem_nil h).elim
    | some set =>
      rw [hset] at h
      obtain ⟨v, -, rfl⟩ := List.mem_map.1 h
      exact beq_self_eq_true _

/-- The paths of the correlation set of an operation that is received at `l`. -/
def receivedPaths (w : Setting) (l : Location) (op : String) : List Path :=
  (inputPaths w op).map (·.relocate l)

theorem isCorrelation_of_mem_receivedPaths {w : Setting} {l : Location} {op : String} {p : Path}
    (h : p ∈ receivedPaths w l op) : p.isCorrelation = true := by
  obtain ⟨q, hq, rfl⟩ := List.mem_map.1 h
  exact (isCorrelation_of_mem_inputPaths hq : q.isCorrelation = true)

theorem keys_receivedPaths (w : Setting) (l : Location) (op : String) :
    (receivedPaths w l op).map Path.key = (inputPaths w op).map Path.key := by
  rw [receivedPaths, List.map_map]; rfl

/-- An input that starts a session provides the paths of its set. -/
theorem inputFacts_true (w : Setting) (l : Location) (op : String) :
    inputFacts w l op true =
      { providedCorr := PathSet.empty.addPaths (receivedPaths w l op) } := by
  have h : ∀ e ∈ (receivedPaths w l op).map fun p => (⟨p, false⟩ : PathEntry),
      e.path.isCorrelation = true := by
    intro e he
    obtain ⟨p, hp, rfl⟩ := List.mem_map.1 he
    exact isCorrelation_of_mem_receivedPaths hp
  have heq := Facts.foldl_provide_corr h Facts.empty
  rw [PathSet.addAll, List.foldl_map, List.foldl_map] at heq
  rw [inputFacts, PathSet.addPaths, receivedPaths, List.foldl_map]
  rw [receivedPaths, List.foldl_map, List.foldl_map] at heq
  exact heq

/-- An input that does not start one needs them. -/
theorem inputFacts_false (w : Setting) (l : Location) (op : String) :
    inputFacts w l op false =
      { neededCorr := PathSet.empty.addPaths (receivedPaths w l op) } := by
  have hcorr : ∀ p ∈ receivedPaths w l op, p.isCorrelation = true :=
    fun p hp => isCorrelation_of_mem_receivedPaths hp
  have heq := Facts.foldl_need hcorr Facts.empty
  rw [receivedPaths, List.foldl_map] at heq
  exact heq

theorem inputFacts_wellFormed (w : Setting) (l : Location) (op : String) (s : Bool) :
    (inputFacts w l op s).WellFormed := by
  cases s with
  | false =>
    rw [inputFacts_false]
    exact { Facts.WellFormed.empty with
      neededCorr := PathSet.Holds.empty.addPaths fun p hp =>
        ⟨isCorrelation_of_mem_receivedPaths hp, rfl⟩ }
  | true =>
    rw [inputFacts_true]
    exact { Facts.WellFormed.empty with
      providedCorr := PathSet.Holds.empty.addPaths fun p hp =>
        isCorrelation_of_mem_receivedPaths hp }

theorem inputFacts_clean (w : Setting) (l : Location) (op : String) (s : Bool) :
    (inputFacts w l op s).Clean := by
  refine ⟨inputFacts_wellFormed w l op s, fun k => ?_⟩
  cases s with
  | false => rw [inputFacts_false]; exact List.not_mem_nil
  | true => rw [inputFacts_true]; exact List.not_mem_nil

theorem walk_oneWay_facts (w : Setting) (l : Location) (op : String) (target : Option Path)
    (s : Bool) (p : Progress) :
    ((walk w (.oneWay l op target) s).run p).1.1 = inputFacts w l op s := by
  obtain ⟨ds, h⟩ := input_gives w l op target s
  rw [walk_oneWay, run_bind, h.value]
  rfl

/-! ## Invariants -/

/-- A property of facts that holds of single paths and that every merge keeps. With `aliases`, it
holds of paths that can no longer be traced as well. -/
structure Invariant (P : Facts → Prop) (aliases : Prop) : Prop where
  empty : P Facts.empty
  sequence : ∀ {f g}, P f → P g → P (f.sequence g).1
  parallel : ∀ {f g}, P f → P g → P (f.parallel g).1
  choice : ∀ {f g}, P f → P g → P (f.choice g).1
  handler : ∀ {f g}, P f → P g → P (f.handler g)
  input : ∀ w l op s, P (inputFacts w l op s)
  provide : ∀ p fresh, P (Facts.empty.provide p fresh)
  pointer : aliases → ∀ left right, P ((Facts.empty.invalidate right).invalidate left)
  undef : aliases → ∀ target, P (Facts.empty.invalidate target)

theorem wellFormed_invariant : Invariant Facts.WellFormed True where
  empty := .empty
  sequence := .sequence
  parallel := .parallel
  choice := .choice
  handler := .handler
  input := inputFacts_wellFormed
  provide _ _ := Facts.WellFormed.empty.provide (.inr List.not_mem_nil)
  pointer _ _ _ := Facts.WellFormed.empty.invalidate.invalidate
  undef _ _ := Facts.WellFormed.empty.invalidate

theorem ownFacts_wellFormed (w : Setting) (a : Activity) (s : Bool) :
    (ownFacts w a s).WellFormed :=
  ownFacts_cases .empty (fun l op => inputFacts_wellFormed w l op s) wellFormed_invariant.provide
    (fun _ => wellFormed_invariant.pointer trivial) fun _ => wellFormed_invariant.undef trivial

/-- Where no path becomes untraceable, none is lost. -/
theorem clean_invariant : Invariant Facts.Clean False where
  empty := .empty
  sequence := .sequence
  parallel := .parallel
  choice := .choice
  handler := .handler
  input := inputFacts_clean
  provide := .provide
  pointer h := h.elim
  undef h := h.elim

/-- A walk beside itself: the facts of each definition in the table satisfy `P`. -/
def Link.alone (P : String → Facts → Prop) : Link where
  stage _ := True
  earlier _ _ := trivial
  reports _ _ := True
  nil := trivial
  append _ _ := trivial
  known _ := True
  facts n f _ := P n f

section Invariant

variable {P : Facts → Prop} {aliases : Prop}

theorem Invariant.keeps (I : Invariant P aliases) (s : Scope) (depth depth' : Nat) :
    Keeps (.alone fun _ => P) (fun f _ => P f) (fun _ _ => True) aliases (s.setting depth)
      (s.setting depth') where
  mode := rfl
  correlation := rfl
  fresh := rfl
  reports _ := trivial
  seen := trivial
  empty := I.empty
  sequence := I.sequence
  parallel := I.parallel
  clashes _ _ := trivial
  choice := I.choice
  mismatches _ _ _ _ := ⟨trivial, trivial⟩
  handler := I.handler
  loops _ _ := trivial
  input := I.input _
  provide := I.provide
  pointer := I.pointer
  undef := I.undef

/-- No definition makes paths untraceable, unless that is allowed. -/
def Scope.Admits (s : Scope) (aliases : Prop) : Prop :=
  ∀ d ∈ s.definitions, d.body.aliasFree ∨ aliases

theorem Scope.Admits.body {s : Scope} {n : String} {d : Definition} (h : s.Admits aliases)
    (hd : s.definition? n = some d) : d.body.aliasFree ∨ aliases :=
  h d (List.mem_of_find?_eq_some hd)

theorem Invariant.bodies (I : Invariant P aliases) {s : Scope} (h : s.Admits aliases) :
    Bodies (.alone fun _ => P) s s where
  defined _ := Iff.rfl
  calls _ _ := trivial
  cut _ := I.empty
  body := by
    intro n d d' active depth depth' _ hd hd' _ hcalls
    cases hd.symm.trans hd'
    exact (alike_refl (I.keeps s depth depth') ⟨hcalls, h.body hd⟩ (n == s.entry)).walks

end Invariant

theorem keeps_trivial (P : String → Facts → Prop) (s : Scope) (depth depth' : Nat) :
    Keeps (.alone P) (fun _ _ => True) (fun _ _ => True) True (s.setting depth)
      (s.setting depth') := by
  have M : Merges (.alone P) (fun _ _ => True) (fun _ _ => True) := by
    constructor <;> intros <;> trivial
  exact { M with
    mode := rfl, correlation := rfl, fresh := rfl, reports := fun _ => trivial
    loops := fun _ _ => trivial, input := fun _ _ _ => trivial, provide := fun _ _ => trivial
    pointer := fun _ _ _ => trivial, undef := fun _ _ => trivial }

/-- What holds of the facts of each definition whenever its body is walked, and of no facts if the
definition reaches itself. -/
theorem bodies_alone {s : Scope} {Q : String → Facts → Prop}
    (hcut : ∀ {n}, Relation.TransGen s.Calls n n → Q n Facts.empty)
    (hbody : ∀ {n d}, s.definition? n = some d → ∀ depth p,
      Q n ((walk (s.setting depth) d.body (n == s.entry)).run p).1.1) :
    Bodies (.alone Q) s s where
  defined _ := Iff.rfl
  calls _ _ := trivial
  cut := hcut
  body := by
    intro n d d' active depth depth' _ hd hd' _ hcalls
    cases hd.symm.trans hd'
    have hcalls' : ∀ m ∈ d.body.calls, Related (.alone Q) active (Option.Rel fun _ _ => True)
        (s.define depth m) (s.define depth' m) :=
      fun m hm => (hcalls m hm).found fun _ _ _ => trivial
    have hwalk := alike_refl (keeps_trivial Q s depth depth') ⟨hcalls', .inr trivial⟩ (n == s.entry)
    intro p p' hp hst
    obtain ⟨-, hq, hr⟩ := hwalk.walks p p' hp hst
    exact ⟨hbody hd depth p, hq, hr⟩

/-! ## The moments of a check -/

namespace Checker

variable {P : Facts → Prop} {aliases : Prop} {c : Checker} {n : String}

/-- What the facts of each definition inherit from those of the definitions it calls holds of all
of them, if the walk of all definitions ends at the stage that is asked for. -/
theorem walked_facts {L : Link} (B : Bodies L c.scope c.scope) (hknown : ∀ m, L.known m)
    (hstage : L.stage c.walked) {f : Facts} (hf : c.walked.table.lookup n = some f) :
    L.facts n f f := by
  have hn := (walked_related B hknown (List.forall₂_refl _) hstage).1 n
  rw [hf] at hn
  cases hn with
  | some h => exact h

theorem walked_alone {Q : String → Facts → Prop} (B : Bodies (.alone Q) c.scope c.scope)
    {f : Facts} (hf : c.walked.table.lookup n = some f) : Q n f :=
  walked_facts B (fun _ => trivial) trivial hf

/-- Only definitions have facts. -/
theorem walked_defined {f : Facts} (hf : c.walked.table.lookup n = some f) :
    (c.scope.definition? n).isSome := by
  refine walked_alone (bodies_alone (Q := fun n _ => (c.scope.definition? n).isSome) ?_ ?_) hf
  · intro m hm
    obtain ⟨_, ⟨d, hd, _⟩, _⟩ := Relation.TransGen.head'_iff.1 hm
    rw [hd]; rfl
  · intro m d hd _ _
    rw [hd]; rfl

/-- The facts of every definition satisfy an invariant. -/
theorem walked_invariant (I : Invariant P aliases) (h : c.scope.Admits aliases) {f : Facts}
    (hf : c.walked.table.lookup n = some f) : P f :=
  walked_alone (I.bodies h) hf

/-- The check may come to the body of definition `n` with the progress `p`: the definitions that
are open form a stack of calls, and the table leads to that of the whole check. -/
structure Visits (c : Checker) (n : String) (depth : Nat) (p : Progress) : Prop where
  stack : c.scope.Stack p.active depth n
  table : p.table <+: c.progress.table

/-- What holds of the table in the end holds of it whenever the check comes to an activity. -/
theorem Visits.linked {Q : String → Facts → Prop} (B : Bodies (.alone Q) c.scope c.scope)
    {depth : Nat} {p : Progress} (hp : c.Visits n depth p) : Linked (.alone Q) p.active p p := by
  refine ⟨rfl, rfl, fun m _ => ?_⟩
  cases hm : p.table.lookup m with
  | none => exact .none
  | some f =>
    have htable := hp.table
    rw [progress_table] at htable
    exact .some (walked_alone B (Scope.lookup_of_isPrefix htable hm))

theorem Visits.walkable (I : Invariant P aliases) (h : c.scope.Admits aliases) {d : Definition}
    {depth : Nat} {p : Progress} (hd : c.scope.definition? n = some d) (hp : c.Visits n depth p)
    {a : Activity} (ha : a ∈ d.body.parts) :
    Walkable (.alone fun _ => P) (fun f _ => P f) aliases (c.scope.setting depth)
      (c.scope.setting depth) p.active a := by
  have hcalls := calls_related (I.bodies h) trivial hd hp.stack (fun _ _ => trivial) hp.stack.room
  exact Walkable.part ⟨hcalls, h.body hd⟩ ha

/-- The facts of every activity that the check comes to satisfy an invariant. -/
theorem visit_invariant (I : Invariant P aliases) (h : c.scope.Admits aliases) {d : Definition}
    {depth : Nat} {p : Progress} (hd : c.scope.definition? n = some d)
    (hp : c.Visits n depth p) {a : Activity} (ha : a ∈ d.body.parts) (s : Bool) :
    P ((walk (c.scope.setting depth) a s).run p).1.1 :=
  ((alike_refl (I.keeps c.scope depth depth) (hp.walkable I h hd ha) s).walks p p
    (hp.linked (I.bodies h)) trivial).1

/-- The facts `f` are those of an activity at the moment when the check comes to it. -/
def Produces (c : Checker) (f : Facts) : Prop :=
  ∃ n d depth p a s, c.scope.definition? n = some d ∧ c.Visits n depth p ∧ a ∈ d.body.parts ∧
    f = ((walk (c.scope.setting depth) a s).run p).1.1

theorem admits_true (s : Scope) : s.Admits True :=
  fun _ _ => .inr trivial

theorem Produces.wellFormed {f : Facts} (h : c.Produces f) : f.WellFormed := by
  obtain ⟨n, d, depth, p, a, s, hd, hp, ha, rfl⟩ := h
  exact visit_invariant wellFormed_invariant (admits_true _) hd hp ha s

theorem walked_wellFormed {f : Facts} (hf : c.walked.table.lookup n = some f) : f.WellFormed :=
  walked_invariant wellFormed_invariant (admits_true _) hf

/-- A set is fresh if one of its paths is provided with a fresh value and still tracked. -/
theorem isFresh_iff {f : Facts} (hf : f.WellFormed) {ps : List Path} :
    isFresh f ps = true ↔
      ∃ p ∈ ps, f.Available p.key ∧ f.providedCorr.freshAt p.key = true := by
  rw [isFresh, List.any_eq_true]
  simp only [Bool.and_eq_true, Facts.available_iff, hf.providedCorr.get?_fresh]

end Checker

end Sessions.Check
