import Sessions.Proofs.Check.Related

/-!
# Sessions.Proofs.Check.Findings

What a walk does whatever the facts are. The text of an activity alone decides which calls the walk
makes and which of its problems have nothing to do with facts; these are its findings, and
`Activity.scan` lists them for an activity and all its parts.

* `Performs w w' xs m m'` — the computations `m` and `m'` consist of the same steps, except that
  definitions are looked up by `w` in one and by `w'` in the other, and `xs` are their findings.
* `walk_performs` — the walks of an activity perform its scan: each part is visited once, in order.

A statement about walks that follows their steps is proved by induction on `Performs`, with a case
for each kind of step and none for each kind of activity. `Performs.simulates` is the general form
for two walks whose progress stays in a relation.
-/

namespace Sessions

namespace Check

variable {α β : Type}

/-- Whether problems of this kind are decided by the text of the program alone. -/
def Kind.isTextual : Kind → Bool
  | .undefinedDefinition => true
  | .correlationOnInput => true
  | .nonLiteralCorrelationAssign => true
  | _ => false

/-- A call, or a problem that does not depend on facts. -/
inductive Finding where
  | call (loc : Location) (name : String)
  | fault (loc : Location) (problem : Problem)

/-- An input may not receive straight into a correlation variable. -/
def receptionFindings (l : Location) (operation : String) : Option Path → List Finding
  | some p => if p.isCorrelation then [.fault l (.receivesOn operation p)] else []
  | none => []

end Check

open Check (Finding receptionFindings)

/-- The values that a correlation variable may be given: a literal, a fresh token, or the variable
itself counted up or down. -/
def Expr.suits (target : Path) : Expr → Bool
  | .constant _ _ => true
  | .fresh _ => true
  | .increment _ p _ _ => p.same target
  | _ => false

namespace Activity

/-- What the text of an activity decides, its parts left aside. -/
def findings : Activity → List Finding
  | .call l n => [.call l n]
  | .oneWay l op target => receptionFindings l op target
  | .requestResponse l op target _ _ => receptionFindings l op target
  | .increment l p _ _ => if p.isCorrelation then [.fault l (.incremented p)] else []
  | .assign l target op value =>
    if !target.isCorrelation then []
    else if op ≠ "" && op ≠ "=" then [.fault l (.updated target op)]
    else if target.isStatic && value.suits target then []
    else [.fault l (.notLiteral target)]
  | _ => []

/-- The findings of an activity and of all its parts. -/
def scan (a : Activity) : List Finding :=
  a.parts.flatMap findings

theorem scan_eq (a : Activity) : a.scan = a.findings ++ a.children.flatMap scan := by
  rw [scan, parts_eq, List.flatMap_cons, List.flatMap_assoc]
  rfl

theorem scan_of_leaf {a : Activity} (h : a.children = []) : a.scan = a.findings := by
  rw [scan_eq, h, List.flatMap_nil, List.append_nil]

theorem scan_of_child {a b : Activity} (hf : a.findings = []) (h : a.children = [b]) :
    a.scan = b.scan := by
  rw [scan_eq, hf, h, List.nil_append, List.flatMap_singleton]

theorem mem_calls_of_mem_scan {a : Activity} {l : Location} {n : String}
    (h : .call l n ∈ a.scan) : n ∈ a.calls := by
  obtain ⟨b, hb, hl⟩ := List.mem_flatMap.1 h
  refine List.mem_filterMap.2 ⟨b, hb, ?_⟩
  cases b with
  | call l' m => simp_all [findings, callee?]
  | oneWay l' op target => cases target <;> simp_all [findings, receptionFindings]
  | requestResponse l' op target output handler =>
    cases target <;> simp_all [findings, receptionFindings]
  | increment l' p pre decrement => simp_all [findings]
  | assign l' target op value =>
    simp only [findings] at hl
    split at hl
    · simp at hl
    · split at hl
      · simp at hl
      · split at hl <;> simp at hl
  | _ => simp [findings] at hl

end Activity

namespace Check

/-! ## Steps -/

/-- The computations take the same steps, apart from how definitions are looked up, and have the
findings `xs`. -/
inductive Performs (w w' : Setting) : {α : Type} → List Finding → Walk α → Walk α → Prop
  | pure {α : Type} (a : α) : Performs w w' [] (Pure.pure a) (Pure.pure a)
  | note (line : String) : Performs w w' [] (note line) (note line)
  | report (l : Location) {pr : Problem} (h : pr.kind.isTextual = false) :
      Performs w w' [] (report l pr) (report l pr)
  | fault (l : Location) {pr : Problem} (h : pr.kind.isTextual = true) :
      Performs w w' [.fault l pr] (Check.report l pr) (Check.report l pr)
  | call (l : Location) (n : String) (s : Bool) :
      Performs w w' [.call l n] (w.lookup n >>= called l n s) (w'.lookup n >>= called l n s)
  | bind {α β : Type} {xs ys : List Finding} {m m' : Walk α} {f f' : α → Walk β}
      (h : Performs w w' xs m m') (hf : ∀ a, Performs w w' ys (f a) (f' a)) :
      Performs w w' (xs ++ ys) (m >>= f) (m' >>= f')

/-- The facts of an input operation, apart from what it receives into. -/
def received (w : Setting) (l : Location) (operation : String) (starter : Bool) : Walk Facts := do
  if w.mode = .single then return Facts.empty
  let set := w.correlation.bind (·.setFor? operation)
  let paths := (set.map (·.paths)).getD []
  if !starter && paths.isEmpty then report l (.noSet operation)
  return paths.foldl
    (fun f p => if starter then f.provide (p.relocate l) false else f.need (p.relocate l))
    Facts.empty

theorem input_some (w : Setting) (l : Location) (op : String) (p : Path) (s : Bool) :
    input w l op (some p) s =
      if p.isCorrelation then report l (.receivesOn op p) >>= fun _ => received w l op s
      else received w l op s := rfl

/-- The two settings have the same rules; only definitions are looked up differently. -/
structure Setting.SameRules (w w' : Setting) : Prop where
  mode : w.mode = w'.mode
  correlation : w.correlation = w'.correlation
  fresh : w.fresh = w'.fresh

namespace Performs

variable {w w' : Setting} {xs ys : List Finding} {m m' : Walk α} {f f' : α → Walk β}

theorem cast (h : Performs w w' xs m m') (he : xs = ys) : Performs w w' ys m m' := by
  subst he; exact h

/-- What follows a step without findings. -/
theorem after (h : Performs w w' [] m m') (hf : ∀ a, Performs w w' ys (f a) (f' a)) :
    Performs w w' ys (m >>= f) (m' >>= f') :=
  bind h hf

/-- Steps that end without findings. -/
theorem before (h : Performs w w' xs m m') (hf : ∀ a, Performs w w' [] (f a) (f' a)) :
    Performs w w' xs (m >>= f) (m' >>= f') :=
  (bind h hf).cast (List.append_nil xs)

theorem ite {c : Prop} [Decidable c] {m n m' n' : Walk α} (hm : c → Performs w w' xs m m')
    (hn : ¬c → Performs w w' xs n n') :
    Performs w w' xs (if c then m else n) (if c then m' else n') := by
  split
  · next h => exact hm h
  · next h => exact hn h

theorem reportClashes (ps : List Path) :
    Performs w w' [] (reportClashes ps) (reportClashes ps) := by
  induction ps with
  | nil => exact pure ()
  | cons p rest ih =>
    rw [Check.reportClashes]
    exact (report p.loc rfl).after fun _ => ih

theorem inSequence (a b : Facts) : Performs w w' [] (inSequence a b) (inSequence a b) :=
  (reportClashes _).after fun _ => pure _

theorem inParallel (a b : Facts) : Performs w w' [] (inParallel a b) (inParallel a b) :=
  (reportClashes _).after fun _ => pure _

theorem reportMismatches (b : Branching) (reported : List String) (ps : List Path) :
    Performs w w' [] (reportMismatches b reported ps) (reportMismatches b reported ps) := by
  induction ps generalizing reported with
  | nil => exact pure reported
  | cons p rest ih =>
    rw [Check.reportMismatches]
    refine ite (fun _ => ih reported) fun _ => ?_
    exact (report p.loc rfl).after fun _ => ih (p.key :: reported)

theorem reportBranches (s : Bool) (reported : List String) (ps : List Path) :
    Performs w w' [] (reportBranches s reported ps) (reportBranches s reported ps) :=
  ite (fun _ => pure reported) fun _ => reportMismatches .choice reported ps

theorem forbidInit (l : Location) (a : Facts) :
    Performs w w' [] (forbidInit l a) (forbidInit l a) :=
  ite (fun _ => pure ()) fun _ => report l rfl

theorem reply (R : w.SameRules w') (op port : String) (p : Path) :
    Performs w w' [] (reply w op port p) (reply w' op port p) := by
  unfold Check.reply
  rw [← R.fresh]
  cases (w.fresh port op).remark with
  | none => exact (pure ()).after fun _ => pure _
  | some line => exact (note line).after fun _ => pure _

theorem received (R : w.SameRules w') (l : Location) (op : String) (s : Bool) :
    Performs w w' [] (received w l op s) (received w' l op s) := by
  unfold Check.received
  rw [← R.mode, ← R.correlation]
  refine ite (fun _ => pure _) fun _ => ?_
  exact ite (fun _ => (report l rfl).after fun _ => pure _) fun _ => pure _

theorem input (R : w.SameRules w') (l : Location) (op : String) (target : Option Path)
    (s : Bool) :
    Performs w w' (receptionFindings l op target) (input w l op target s)
      (input w' l op target s) := by
  have hset : Performs w w' [] (Check.received w l op s) (Check.received w' l op s) :=
    received R l op s
  cases target with
  | none => exact (pure ()).after fun _ => hset
  | some p =>
    rw [input_some, input_some, receptionFindings]
    by_cases hp : p.isCorrelation = true
    · rw [if_pos hp, if_pos hp, if_pos hp]
      exact (fault l rfl).before fun _ => hset
    · rw [if_neg hp, if_neg hp, if_neg hp]
      exact hset

theorem assignment (l : Location) (target : Path) (op : String) (value : Expr) :
    Performs w w' (Activity.findings (.assign l target op value))
      (assignment l target op value) (assignment l target op value) := by
  have hsuits : assigned target value = none ↔
      (target.isStatic && value.suits target) = false := by
    unfold assigned Expr.suits
    cases target.isStatic <;> cases value <;> simp
  unfold Check.assignment
  rw [Activity.findings]
  by_cases hc : target.isCorrelation = true
  · simp only [hc, Bool.not_true, Bool.false_eq_true, if_false, if_true]
    by_cases ho : (op ≠ "" && op ≠ "=") = true
    · rw [if_pos ho, if_pos ho]
      exact (fault l rfl).before fun _ => pure _
    · rw [if_neg ho, if_neg ho]
      cases ha : assigned target value with
      | none =>
        rw [hsuits.1 ha]
        exact (fault l rfl).before fun _ => pure _
      | some fresh =>
        have hsome : (target.isStatic && value.suits target) = true := by
          rw [← Bool.not_eq_false, ← hsuits, ha]
          simp
        rw [hsome]
        exact pure _
  · simp only [hc, Bool.not_false, Bool.false_eq_true, if_false, if_true]
    refine ite (fun _ => pure _) fun _ => ?_
    cases assigned target value with
    | none => exact pure _
    | some fresh => exact pure _

end Performs

/-! ## Walks -/

section Walks

variable {w w' : Setting}

theorem walkSequence_performs {as : List Activity}
    (h : ∀ a ∈ as, ∀ s, Performs w w' a.scan (walk w a s) (walk w' a s)) (f : Facts) (s : Bool) :
    Performs w w' (as.flatMap Activity.scan) (walkSequence w as f s) (walkSequence w' as f s) := by
  induction as generalizing f s with
  | nil => rw [walkSequence, walkSequence]; exact .pure _
  | cons a rest ih =>
    obtain ⟨ha, hrest⟩ := List.forall_mem_cons.1 h
    rw [walkSequence_cons, walkSequence_cons, List.flatMap_cons]
    refine (ha s).bind fun r => ?_
    exact (Performs.inSequence f r.1).after fun g => ih hrest g r.2

theorem walkParallel_performs {as : List Activity}
    (h : ∀ a ∈ as, ∀ s, Performs w w' a.scan (walk w a s) (walk w' a s)) (f : Facts) (s : Bool) :
    Performs w w' (as.flatMap Activity.scan) (walkParallel w as f s) (walkParallel w' as f s) := by
  induction as generalizing f s with
  | nil => rw [walkParallel, walkParallel]; exact .pure _
  | cons a rest ih =>
    obtain ⟨ha, hrest⟩ := List.forall_mem_cons.1 h
    rw [walkParallel_cons, walkParallel_cons, List.flatMap_cons]
    refine (ha s).bind fun r => ?_
    exact (Performs.inParallel f r.1).after fun g => ih hrest g r.2

theorem walkBranch_performs {b : Branch}
    (hg : ∀ s, Performs w w' b.guard.scan (walk w b.guard s) (walk w' b.guard s))
    (hb : ∀ s, Performs w w' b.body.scan (walk w b.body s) (walk w' b.body s)) (s : Bool) :
    Performs w w' (b.guard.scan ++ b.body.scan) (walkBranch w b s) (walkBranch w' b s) := by
  refine (hg s).bind fun r => ?_
  exact (hb r.2).before fun q => Performs.inSequence r.1 q.1

theorem walkBranches_performs {bs : List Branch}
    (h : ∀ b ∈ bs, ∀ s, Performs w w' (b.guard.scan ++ b.body.scan) (walkBranch w b s)
      (walkBranch w' b s)) (s : Bool) (f : Facts) (reported : List String) :
    Performs w w' (bs.flatMap fun b => b.guard.scan ++ b.body.scan)
      (walkBranches w bs s f reported) (walkBranches w' bs s f reported) := by
  induction bs generalizing f reported with
  | nil => rw [walkBranches, walkBranches]; exact .pure _
  | cons b rest ih =>
    obtain ⟨hb, hrest⟩ := List.forall_mem_cons.1 h
    rw [walkBranches_cons, walkBranches_cons, List.flatMap_cons]
    refine (hb s).bind fun g => ?_
    exact (Performs.reportBranches s reported _).after fun q => ih hrest _ q

theorem walkArms_performs {arms : List Arm}
    (h : ∀ a ∈ arms, ∀ s, Performs w w' a.body.scan (walk w a.body s) (walk w' a.body s))
    (s : Bool) (f : Facts) (sofar : Bool) (reported : List String) :
    Performs w w' (arms.flatMap fun a => a.body.scan) (walkArms w arms s f sofar reported)
      (walkArms w' arms s f sofar reported) := by
  induction arms generalizing f sofar reported with
  | nil => rw [walkArms, walkArms]; exact .pure _
  | cons a rest ih =>
    obtain ⟨ha, hrest⟩ := List.forall_mem_cons.1 h
    rw [walkArms_cons, walkArms_cons, List.flatMap_cons]
    refine (ha s).bind fun r => ?_
    exact (Performs.reportMismatches .cond reported _).after fun q => ih hrest _ _ q

theorem walkHandlers_performs {hs : List Handler}
    (h : ∀ h ∈ hs, ∀ s, Performs w w' h.body.scan (walk w h.body s) (walk w' h.body s)) :
    Performs w w' (hs.flatMap fun h => h.body.scan) (walkHandlers w hs) (walkHandlers w' hs) := by
  induction hs with
  | nil => rw [walkHandlers, walkHandlers]; exact .pure _
  | cons x rest ih =>
    obtain ⟨hx, hrest⟩ := List.forall_mem_cons.1 h
    rw [walkHandlers_cons, walkHandlers_cons, List.flatMap_cons]
    exact (hx false).bind fun _ => ih hrest

/-- Walking an activity performs its scan. -/
theorem walk_performs (R : w.SameRules w') (a : Activity) (s : Bool) :
    Performs w w' a.scan (walk w a s) (walk w' a s) := by
  induction a generalizing s with
  | sequence l as ih =>
    rw [Activity.scan_eq]
    cases as with
    | nil => rw [walk, walk]; exact .pure _
    | cons a rest =>
      obtain ⟨ha, hrest⟩ := List.forall_mem_cons.1 ih
      rw [walk_sequence_cons, walk_sequence_cons]
      exact (ha s).bind fun r => walkSequence_performs hrest r.1 r.2
  | parallel l as ih =>
    rw [Activity.scan_eq]
    cases as with
    | nil => rw [walk, walk]; exact .pure _
    | cons a rest =>
      obtain ⟨ha, hrest⟩ := List.forall_mem_cons.1 ih
      rw [walk_parallel_cons, walk_parallel_cons]
      exact (ha s).bind fun r => walkParallel_performs hrest r.1 r.2
  | choice l bs ih =>
    have hbs : ∀ b ∈ bs, ∀ s, Performs w w' (b.guard.scan ++ b.body.scan) (walkBranch w b s)
        (walkBranch w' b s) := fun b hb => walkBranch_performs (ih b hb).1 (ih b hb).2
    have hscan : (Activity.choice l bs).scan = bs.flatMap fun b => b.guard.scan ++ b.body.scan := by
      rw [Activity.scan_eq]
      simp [Activity.findings, Activity.children, List.flatMap_assoc]
    rw [hscan]
    cases bs with
    | nil => rw [walk, walk]; exact .pure _
    | cons b rest =>
      obtain ⟨hb, hrest⟩ := List.forall_mem_cons.1 hbs
      rw [walk_choice_cons, walk_choice_cons, List.flatMap_cons]
      refine (hb s).bind fun f => ?_
      exact (walkBranches_performs hrest s f []).before fun g => .pure _
  | cond l arms otherwise iha iho =>
    have hscan : (Activity.cond l arms otherwise).scan =
        (arms.flatMap fun a => a.body.scan) ++ otherwise.scan := by
      rw [Activity.scan_eq]
      simp [Activity.findings, Activity.children, List.flatMap_map]
    rw [hscan]
    cases arms with
    | nil => rw [walk, walk]; exact iho s
    | cons a rest =>
      obtain ⟨ha, hrest⟩ := List.forall_mem_cons.1 iha
      rw [walk_cond_cons, walk_cond_cons, List.flatMap_cons, List.append_assoc]
      refine (ha s).bind fun r => ?_
      refine (walkArms_performs hrest s _ _ []).bind fun q => ?_
      refine (iho s).before fun e => ?_
      exact (Performs.reportMismatches .cond _ _).after fun _ => .pure _
  | whileLoop l c body ih =>
    rw [Activity.scan_of_child rfl rfl, walk_whileLoop, walk_whileLoop]
    exact (ih s).before fun r => (Performs.forbidInit l r.1).after fun _ => .pure r
  | forEach l key target body ih =>
    rw [Activity.scan_of_child rfl rfl, walk_forEach, walk_forEach]
    exact (ih s).before fun r => (Performs.forbidInit l r.1).after fun _ => .pure r
  | forLoop l first c post body ihf ihp ihb =>
    have hscan : (Activity.forLoop l first c post body).scan =
        first.scan ++ (body.scan ++ post.scan) := by
      rw [Activity.scan_eq]
      simp [Activity.findings, Activity.children]
    rw [hscan, walk_forLoop, walk_forLoop]
    refine (ihf s).bind fun a => ?_
    refine (ihb a.2).bind fun b => ?_
    refine (ihp b.2).before fun d => ?_
    refine (Performs.inSequence b.1 d.1).after fun turn => ?_
    refine (Performs.forbidInit l turn).after fun _ => ?_
    exact (Performs.inSequence a.1 turn).after fun _ => .pure _
  | call l n =>
    rw [Activity.scan_of_leaf rfl, walk_call, walk_call]
    exact .call l n s
  | oneWay l op target =>
    rw [Activity.scan_of_leaf rfl, walk_oneWay, walk_oneWay]
    exact (Performs.input R l op target s).before fun _ => .pure _
  | requestResponse l op target output handler ih =>
    have hscan : (Activity.requestResponse l op target output handler).scan =
        receptionFindings l op target ++ handler.scan := by
      rw [Activity.scan_eq]
      simp [Activity.findings, Activity.children]
    rw [hscan, walk_requestResponse, walk_requestResponse]
    refine (Performs.input R l op target s).bind fun f => ?_
    exact (ih false).before fun r => .pure _
  | solicitResponse l op port output target =>
    rw [Activity.scan_of_leaf rfl, walk_solicitResponse, walk_solicitResponse]
    cases target with
    | none => exact .pure _
    | some p =>
      refine Performs.ite (fun _ => ?_) fun _ => .pure _
      exact (Performs.reply R op port p).after fun _ => .pure _
  | assign l target op value =>
    rw [Activity.scan_of_leaf rfl, walk_assign, walk_assign]
    exact (Performs.assignment l target op value).before fun _ => .pure _
  | increment l p pre decrement =>
    rw [Activity.scan_of_leaf rfl, walk_increment, walk_increment, Activity.findings]
    by_cases hp : p.isCorrelation = true
    · simp only [hp, if_true]
      exact (Performs.fault l rfl).before fun _ => .pure _
    · simp only [hp]
      exact .pure _
  | scope l name body ih =>
    rw [Activity.scan_of_child rfl rfl, walk, walk]
    exact ih s
  | synchronized l id body ih =>
    rw [Activity.scan_of_child rfl rfl, walk, walk]
    exact ih s
  | install l hs ih =>
    have hscan : (Activity.install l hs).scan = hs.flatMap fun h => h.body.scan := by
      rw [Activity.scan_eq]
      simp [Activity.findings, Activity.children, List.flatMap_map]
    rw [hscan, walk_install, walk_install]
    exact (walkHandlers_performs ih).before fun _ => .pure _
  | _ => rw [Activity.scan_of_leaf rfl, walk, walk]; exact .pure _

end Walks

/-! ## Two walks side by side -/

theorem Performs.grows {w w' : Setting} [∀ n, Grows (w.lookup n)] {xs : List Finding}
    {m m' : Walk α} (h : Performs w w' xs m m') : Grows m := by
  induction h with
  | pure a => infer_instance
  | note line => infer_instance
  | report l h => infer_instance
  | fault l h => infer_instance
  | call l n s => infer_instance
  | bind _ _ ih ihf => infer_instance

/-- Where the calls of both are looked up in the same way, the computations are the same. -/
theorem Performs.eq {w w' : Setting} {xs : List Finding} {m m' : Walk α}
    (h : Performs w w' xs m m') (hlook : ∀ l n, .call l n ∈ xs → w.lookup n = w'.lookup n) :
    m = m' := by
  induction h with
  | pure a => rfl
  | note line => rfl
  | report l h => rfl
  | fault l h => rfl
  | call l n s => rw [hlook l n List.mem_cons_self]
  | bind _ _ ih ihf =>
    have hm := ih fun l n hn => hlook l n (List.mem_append_left _ hn)
    have hf := funext fun a => ihf a fun l n hn => hlook l n (List.mem_append_right _ hn)
    rw [hm, hf]

/-- Adds to the diagnostics and to the log. -/
def Progress.tell (p : Progress) (ds : List Diagnostic) (lines : List String) : Progress :=
  { p with diagnostics := p.diagnostics ++ ds, log := p.log ++ lines }

/-- A correspondence of progress that is kept when both sides report the same. -/
def Steady (R : Progress → Progress → Prop) : Prop :=
  ∀ p p' ds lines, R p p' → R (p.tell ds lines) (p'.tell ds lines)

/-- From corresponding progress the computations give the same result and corresponding progress.
This is asked for only where the first one ends at the given stage. -/
def Simulates (stage : Progress → Prop) (R : Progress → Progress → Prop) (m m' : Walk α) : Prop :=
  ∀ p p', R p p' → stage (m.run p).2 →
    (m.run p).1 = (m'.run p').1 ∧ R (m.run p).2 (m'.run p').2

/-- A stage that an earlier progress is at whenever a later one is. -/
def Backward (stage : Progress → Prop) : Prop :=
  ∀ p q : Progress, p.Precedes q → stage q → stage p

section Simulates

variable {stage : Progress → Prop} {R : Progress → Progress → Prop}

theorem Simulates.pure (a : α) : Simulates stage R (Pure.pure a : Walk α) (Pure.pure a) :=
  fun _ _ hR _ => ⟨rfl, hR⟩

theorem Simulates.bind (hstage : Backward stage) {m m' : Walk α} {f f' : α → Walk β}
    [∀ a, Grows (f a)] (hm : Simulates stage R m m')
    (hf : ∀ a, Simulates stage R (f a) (f' a)) : Simulates stage R (m >>= f) (m' >>= f') := by
  intro p p' hR hs
  rw [run_bind] at hs
  have hmid : stage (m.run p).2 := hstage _ _ (Grows.precedes _) hs
  obtain ⟨hval, hR'⟩ := hm p p' hR hmid
  rw [run_bind, run_bind, ← hval]
  exact hf _ _ _ hR' hs

theorem simulates_note (hR : Steady R) (line : String) :
    Simulates stage R (note line) (note line) := by
  intro p p' h _
  have hnote : ∀ q : Progress, ((note line).run q).2 = q.tell [] [line] := by
    intro q
    show { q with log := q.log ++ [line] } = _
    simp [Progress.tell]
  rw [hnote, hnote]
  exact ⟨rfl, hR p p' [] [line] h⟩

theorem simulates_report (hR : Steady R) (l : Location) (pr : Problem) :
    Simulates stage R (report l pr) (report l pr) :=
  fun p p' h _ => ⟨rfl, hR p p' [_] [_] h⟩

/-- Two walks whose look-ups keep a correspondence keep it as a whole. -/
theorem Performs.simulates {w w' : Setting} [∀ n, Grows (w.lookup n)] (hstage : Backward stage)
    (hR : Steady R) {xs : List Finding} {m m' : Walk α} (h : Performs w w' xs m m')
    (hlook : ∀ l n, .call l n ∈ xs → Simulates stage R (w.lookup n) (w'.lookup n)) :
    Simulates stage R m m' := by
  induction h with
  | pure a => exact .pure a
  | note line => exact simulates_note hR line
  | report l h => exact simulates_report hR l _
  | fault l h => exact simulates_report hR l _
  | call l n s =>
    refine (hlook l n List.mem_cons_self).bind hstage fun found => ?_
    cases found with
    | some f => exact .pure _
    | none => exact (simulates_report hR l _).bind hstage fun _ => .pure _
  | bind hm hf ih ihf =>
    have := fun a => (hf a).grows
    refine (ih fun l n hn => ?_).bind hstage fun a => ihf a fun l n hn => ?_
    · exact hlook l n (List.mem_append_left _ hn)
    · exact hlook l n (List.mem_append_right _ hn)

theorem walk_simulates {w w' : Setting} [∀ n, Grows (w.lookup n)] (hrules : w.SameRules w')
    (hstage : Backward stage) (hR : Steady R) (a : Activity)
    (hlook : ∀ n ∈ a.calls, Simulates stage R (w.lookup n) (w'.lookup n)) (b : Bool) :
    Simulates stage R (walk w a b) (walk w' a b) :=
  (walk_performs hrules a b).simulates hstage hR fun _ n hn =>
    hlook n (Activity.mem_calls_of_mem_scan hn)

end Simulates

/-- What a walk keeps if its look-ups keep it and reports do not touch it. -/
theorem walk_keeps {w : Setting} [∀ n, Grows (w.lookup n)] {I : Progress → Prop}
    (hI : ∀ p ds lines, I p → I (p.tell ds lines))
    (hlook : ∀ n p, I p → I ((w.lookup n).run p).2) (a : Activity) (b : Bool) {p : Progress}
    (h : I p) : I ((walk w a b).run p).2 := by
  have hsteady : Steady fun q q' => q = q' ∧ I q := by
    rintro q _ ds lines ⟨rfl, hq⟩
    exact ⟨rfl, hI q ds lines hq⟩
  have hlooks : ∀ n ∈ a.calls, Simulates (fun _ => True) (fun q q' => q = q' ∧ I q)
      (w.lookup n) (w.lookup n) := by
    rintro n _ q _ ⟨rfl, hq⟩ _
    exact ⟨rfl, rfl, hlook n q hq⟩
  have hwalk := walk_simulates ⟨rfl, rfl, rfl⟩ (fun _ _ _ _ => trivial) hsteady a hlooks b
  exact (hwalk p p ⟨rfl, h⟩ trivial).2.2

end Check

end Sessions
