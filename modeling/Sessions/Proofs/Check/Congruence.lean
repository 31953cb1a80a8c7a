import Mathlib.Data.List.Forall2
import Sessions.Proofs.Check.Related

/-!
# Sessions.Proofs.Check.Congruence

Walking an activity twice. `Merges` lists what a correspondence of facts has to satisfy so that it
is kept when activities are put together. Two activities are `Alike` if their walks stay in
correspondence, and each kind of activity is alike if its parts are.

The flag that a walk returns does not depend on what was found (`walk_flag`): it is a function of
the activity alone, `Activity.after`, and is never set again once it was cleared (`of_after`).
-/

namespace Sessions

/-! ## The flag -/

namespace Activity

mutual

/-- Whether the input that starts a session is still to come after the activity. -/
def after : Activity → Bool → Bool
  | .sequence _ as, s => afterAll as s
  | .parallel _ as, s => afterAll as s
  | .choice _ [], s => s
  | .choice _ (_ :: _), _ => false
  | .cond _ [] otherwise, s => otherwise.after s
  | .cond _ (⟨_, body⟩ :: rest) otherwise, s =>
    afterArms rest s (s && body.after s) && otherwise.after s
  | .whileLoop _ _ body, s => body.after s
  | .forLoop _ first _ post body, s => post.after (body.after (first.after s))
  | .forEach _ _ _ body, s => body.after s
  | .oneWay _ _ _, _ => false
  | .requestResponse _ _ _ _ _, _ => false
  | .scope _ _ body, s => body.after s
  | .synchronized _ _ body, s => body.after s
  | _, s => s

def afterAll : List Activity → Bool → Bool
  | [], s => s
  | a :: rest, s => afterAll rest (a.after s)

/-- Whether it is still to come after every arm, given whether it is after those before them. -/
def afterArms : List Arm → (starter sofar : Bool) → Bool
  | [], _, sofar => sofar
  | ⟨_, body⟩ :: rest, s, sofar => afterArms rest s (sofar && body.after s)

end

theorem afterAll_append (as bs : List Activity) (s : Bool) :
    afterAll (as ++ bs) s = afterAll bs (afterAll as s) := by
  induction as generalizing s with
  | nil => rw [List.nil_append, afterAll]
  | cons a rest ih => rw [List.cons_append, afterAll, afterAll, ih]

/-- The input that starts a session is not met again once it was met. -/
theorem afterAll_false {as : List Activity} (h : ∀ a ∈ as, a.after false = false) :
    afterAll as false = false := by
  induction as with
  | nil => rw [afterAll]
  | cons a rest ih =>
    obtain ⟨ha, hrest⟩ := List.forall_mem_cons.1 h
    rw [afterAll, ha, ih hrest]

theorem after_false (a : Activity) : a.after false = false := by
  induction a with
  | sequence l as ih => rw [after, afterAll_false ih]
  | parallel l as ih => rw [after, afterAll_false ih]
  | choice l bs _ => cases bs <;> rw [after]
  | cond l arms otherwise _ iho =>
    cases arms with
    | nil => rw [after, iho]
    | cons arm rest => cases arm; rw [after, iho, Bool.and_false]
  | whileLoop l c body ih => rw [after, ih]
  | forEach l key target body ih => rw [after, ih]
  | forLoop l first c post body ihf ihp ihb => rw [after, ihf, ihb, ihp]
  | oneWay l op target => rw [after]
  | requestResponse l op target output handler _ => rw [after]
  | scope l name body ih => rw [after, ih]
  | synchronized l id body ih => rw [after, ih]
  | _ => rfl

theorem of_after {a : Activity} {s : Bool} (h : a.after s = true) : s = true := by
  cases s with
  | true => rfl
  | false => rw [after_false] at h; cases h

end Activity

namespace Check

variable {w : Setting}

theorem walkSequence_flag {as : List Activity}
    (h : ∀ a ∈ as, ∀ s p, ((walk w a s).run p).1.2 = a.after s) (f : Facts) (s : Bool)
    (p : Progress) : ((walkSequence w as f s).run p).1.2 = Activity.afterAll as s := by
  induction as generalizing f s p with
  | nil => rw [walkSequence, Activity.afterAll]; rfl
  | cons a rest ih =>
    obtain ⟨ha, hrest⟩ := List.forall_mem_cons.1 h
    rw [walkSequence_cons, run_bind, run_bind, ih hrest, ha, Activity.afterAll]

theorem walkParallel_flag {as : List Activity}
    (h : ∀ a ∈ as, ∀ s p, ((walk w a s).run p).1.2 = a.after s) (f : Facts) (s : Bool)
    (p : Progress) : ((walkParallel w as f s).run p).1.2 = Activity.afterAll as s := by
  induction as generalizing f s p with
  | nil => rw [walkParallel, Activity.afterAll]; rfl
  | cons a rest ih =>
    obtain ⟨ha, hrest⟩ := List.forall_mem_cons.1 h
    rw [walkParallel_cons, run_bind, run_bind, ih hrest, ha, Activity.afterAll]

theorem walkArms_flag {arms : List Arm}
    (h : ∀ a ∈ arms, ∀ s p, ((walk w a.body s).run p).1.2 = a.body.after s) (s : Bool) (f : Facts)
    (sofar : Bool) (reported : List String) (p : Progress) :
    ((walkArms w arms s f sofar reported).run p).1.2.1 = Activity.afterArms arms s sofar := by
  induction arms generalizing f sofar reported p with
  | nil => rw [walkArms, Activity.afterArms]; rfl
  | cons a rest ih =>
    obtain ⟨ha, hrest⟩ := List.forall_mem_cons.1 h
    cases a
    rw [walkArms_cons, run_bind, run_bind, ih hrest, ha, Activity.afterArms]

/-- The flag that a walk returns is a function of the activity and the flag before. -/
theorem walk_flag (a : Activity) (s : Bool) (p : Progress) :
    ((walk w a s).run p).1.2 = a.after s := by
  induction a generalizing s p with
  | sequence l as ih =>
    cases as with
    | nil => rw [walk, Activity.after, Activity.afterAll]; rfl
    | cons a rest =>
      obtain ⟨ha, hrest⟩ := List.forall_mem_cons.1 ih
      rw [walk_sequence_cons, run_bind, walkSequence_flag hrest, ha, Activity.after,
        Activity.afterAll]
  | parallel l as ih =>
    cases as with
    | nil => rw [walk, Activity.after, Activity.afterAll]; rfl
    | cons a rest =>
      obtain ⟨ha, hrest⟩ := List.forall_mem_cons.1 ih
      rw [walk_parallel_cons, run_bind, walkParallel_flag hrest, ha, Activity.after,
        Activity.afterAll]
  | choice l bs _ =>
    cases bs with
    | nil => rw [walk, Activity.after]; rfl
    | cons b rest => rw [walk_choice_cons, Activity.after]; rfl
  | cond l arms otherwise iha iho =>
    cases arms with
    | nil => rw [walk, Activity.after]; exact iho s p
    | cons a rest =>
      obtain ⟨ha, hrest⟩ := List.forall_mem_cons.1 iha
      cases a
      rw [walk_cond_cons, Activity.after]
      simp only [run_bind]
      rw [walkArms_flag hrest, iho, ha]
      rfl
  | whileLoop l c body ih => rw [walk_whileLoop, Activity.after]; exact ih s p
  | forEach l key target body ih => rw [walk_forEach, Activity.after]; exact ih s p
  | forLoop l first c post body ihf ihp ihb =>
    rw [walk_forLoop, Activity.after]
    simp only [run_bind]
    rw [ihp, ihb, ihf]
    rfl
  | call l name =>
    rw [walk_call, run_bind]
    cases ((w.lookup name).run p).1 <;> rfl
  | oneWay l op target => rw [walk_oneWay, Activity.after]; rfl
  | requestResponse l op target output handler _ =>
    rw [walk_requestResponse, Activity.after]; rfl
  | solicitResponse l op port output target =>
    rw [walk_solicitResponse]
    cases target with
    | none => rfl
    | some q => simp only []; split <;> rfl
  | assign l target op value => rw [walk_assign]; rfl
  | increment l q pre decrement => rw [walk_increment]; dsimp only; split <;> rfl
  | scope l name body ih => rw [walk, Activity.after]; exact ih s p
  | synchronized l id body ih => rw [walk, Activity.after]; exact ih s p
  | install l hs _ => rw [walk_install]; rfl
  | _ => rw [walk]; rfl

/-! ## Correspondence -/

/-- What a correspondence of facts needs so that it is kept when activities are put together. The
keys that were reported as mismatches correspond by `S`. -/
structure Merges (L : Link) (A : Facts → Facts → Prop) (S : List String → List String → Prop) :
    Prop where
  seen : S [] []
  empty : A Facts.empty Facts.empty
  sequence : ∀ {f f' g g'}, A f f' → A g g' → A (f.sequence g).1 (f'.sequence g').1
  parallel : ∀ {f f' g g'}, A f f' → A g g' → A (f.parallel g).1 (f'.parallel g').1
  clashes : ∀ {f f' g g'}, A f f' → A g g' →
    L.reports (pathDiagnostics .initialisedTwice (f.sequence g).2)
      (pathDiagnostics .initialisedTwice (f'.sequence g').2)
  choice : ∀ {f f' g g'}, A f f' → A g g' → A (f.choice g).1 (f'.choice g').1
  mismatches : ∀ {f f' g g' r r'} (b : Branching), A f f' → A g g' → S r r' →
    S (reportedAfter r (f.choice g).2) (reportedAfter r' (f'.choice g').2) ∧
      L.reports (pathDiagnostics (.branchesDisagree b) (unreported r (f.choice g).2))
        (pathDiagnostics (.branchesDisagree b) (unreported r' (f'.choice g').2))
  handler : ∀ {f f' g g'}, A f f' → A g g' → A (f.handler g) (f'.handler g')

namespace Merges

variable {L : Link} {A : Facts → Facts → Prop} {S : List String → List String → Prop}
  {active : List String} {f f' g g' : Facts}

theorem inSequence (M : Merges L A S) (hf : A f f') (hg : A g g') :
    Related L active A (inSequence f g) (inSequence f' g') :=
  (inSequence_gives f g).related (inSequence_gives f' g') (M.sequence hf hg)
    (M.clashes hf hg)

theorem inParallel (M : Merges L A S) (hf : A f f') (hg : A g g') :
    Related L active A (inParallel f g) (inParallel f' g') :=
  (inParallel_gives f g).related (inParallel_gives f' g') (M.parallel hf hg)
    (M.clashes hf hg)

theorem compare (M : Merges L A S) {r r' : List String} (b : Branching)
    (hf : A f f') (hg : A g g') (hr : S r r') :
    Related L active S (reportMismatches b r (f.choice g).2)
      (reportMismatches b r' (f'.choice g').2) := by
  obtain ⟨hS, hd⟩ := M.mismatches b hf hg hr
  exact (reportMismatches_gives b r _).related (reportMismatches_gives b r' _) hS hd

theorem branches (M : Merges L A S) {r r' : List String} {s : Bool} (hf : A f f')
    (hg : A g g') (hr : S r r') :
    Related L active S (reportBranches s r (f.choice g).2)
      (reportBranches s r' (f'.choice g').2) :=
  .ite (fun _ => .pure hr) fun _ => M.compare .choice hf hg hr

end Merges

/-! ## Parts and wholes -/

/-- Walks of the two activities, from the same flag, give facts in correspondence and the same
flag. -/
structure Alike (L : Link) (A : Facts → Facts → Prop) (w w' : Setting) (active : List String)
    (s : Bool) (a a' : Activity) : Prop where
  walks : Related L active (fun r r' => A r.1 r'.1) (walk w a s) (walk w' a' s)
  flag : a.after s = a'.after s

/-- The same for activities that run one after the other. -/
inductive AlikeAll (L : Link) (A : Facts → Facts → Prop) (w w' : Setting) (active : List String) :
    Bool → List Activity → List Activity → Prop
  | nil {s} : AlikeAll L A w w' active s [] []
  | cons {s a a' rest rest'} (h : Alike L A w w' active s a a')
      (hrest : AlikeAll L A w w' active (a.after s) rest rest') :
      AlikeAll L A w w' active s (a :: rest) (a' :: rest')

/-- The same for branches: the guards and then the bodies. -/
def AlikeBranch (L : Link) (A : Facts → Facts → Prop) (w w' : Setting) (active : List String)
    (s : Bool) (b b' : Branch) : Prop :=
  Alike L A w w' active s b.guard b'.guard ∧
    Alike L A w w' active (b.guard.after s) b.body b'.body

section Parts

variable {L : Link} {A : Facts → Facts → Prop} {S : List String → List String → Prop}
  {w w' : Setting} {active : List String} {f f' : Facts} {s : Bool} {l l' : Location}

theorem Alike.results {a a' : Activity} (h : Alike L A w w' active s a a') :
    Related L active (fun r r' => A r.1 r'.1 ∧ r.2 = a.after s ∧ r'.2 = a.after s)
      (walk w a s) (walk w' a' s) := by
  intro p p' hp hs
  obtain ⟨hA, hq, hd⟩ := h.walks p p' hp hs
  refine ⟨⟨hA, walk_flag a s p, (walk_flag a' s p').trans h.flag.symm⟩, hq, hd⟩

theorem AlikeAll.flag {as as' : List Activity} (h : AlikeAll L A w w' active s as as') :
    Activity.afterAll as s = Activity.afterAll as' s := by
  induction h with
  | nil => rfl
  | cons h _ ih => rw [Activity.afterAll, Activity.afterAll, ih, h.flag]

/-- A flag is set only if it was set before, so that it is enough to look at flags that imply the
first one. -/
theorem alikeAll_upto {as : List Activity} {start : Bool}
    (h : ∀ a ∈ as, ∀ s, (s = true → start = true) → Alike L A w w' active s a a)
    (hs : s = true → start = true) : AlikeAll L A w w' active s as as := by
  induction as generalizing s with
  | nil => exact .nil
  | cons a rest ih =>
    obtain ⟨ha, hrest⟩ := List.forall_mem_cons.1 h
    exact .cons (ha s hs) (ih hrest fun h => hs (Activity.of_after h))

theorem alikeAll_refl {as : List Activity} (h : ∀ a ∈ as, ∀ s, Alike L A w w' active s a a)
    (s : Bool) : AlikeAll L A w w' active s as as :=
  alikeAll_upto (fun a ha s _ => h a ha s) id

theorem afterArms_eq {arms arms' : List Arm} {sofar : Bool}
    (h : List.Forall₂ (fun a a' => Alike L A w w' active s a.body a'.body) arms arms') :
    Activity.afterArms arms s sofar = Activity.afterArms arms' s sofar := by
  induction h generalizing sofar with
  | nil => rfl
  | @cons a a' _ _ h _ ih =>
    cases a; cases a'
    rw [Activity.afterArms, Activity.afterArms, ih, h.flag]

theorem alike_scope {name name' : String} {body body' : Activity}
    (h : Alike L A w w' active s body body') :
    Alike L A w w' active s (.scope l name body) (.scope l' name' body') := by
  refine ⟨?_, by rw [Activity.after, Activity.after, h.flag]⟩
  rw [walk, walk]
  exact h.walks

theorem alike_synchronized {id id' : String} {body body' : Activity}
    (h : Alike L A w w' active s body body') :
    Alike L A w w' active s (.synchronized l id body) (.synchronized l' id' body') := by
  refine ⟨?_, by rw [Activity.after, Activity.after, h.flag]⟩
  rw [walk, walk]
  exact h.walks

section Loops

variable (hloop : ∀ {f f'}, A f f' → L.reports (loopDiagnostics l f) (loopDiagnostics l f'))
include hloop

theorem forbidInit_related (hf : A f f') :
    Related L active (fun _ _ => True) (forbidInit l f) (forbidInit l f') :=
  (forbidInit_gives l f).related (forbidInit_gives l f') trivial (hloop hf)

theorem alike_whileLoop {c c' : Expr} {body body' : Activity}
    (h : Alike L A w w' active s body body') :
    Alike L A w w' active s (.whileLoop l c body) (.whileLoop l c' body') := by
  refine ⟨?_, by rw [Activity.after, Activity.after, h.flag]⟩
  rw [walk_whileLoop, walk_whileLoop]
  exact h.walks.bind fun r r' hr => (forbidInit_related hloop hr).bind fun _ _ _ => .pure hr

theorem alike_forEach {key key' target target' : Option Path} {body body' : Activity}
    (h : Alike L A w w' active s body body') :
    Alike L A w w' active s (.forEach l key target body) (.forEach l key' target' body') := by
  refine ⟨?_, by rw [Activity.after, Activity.after, h.flag]⟩
  rw [walk_forEach, walk_forEach]
  exact h.walks.bind fun r r' hr => (forbidInit_related hloop hr).bind fun _ _ _ => .pure hr

end Loops

theorem alike_call (hempty : A Facts.empty Facts.empty) {n : String}
    (h : Related L active (Option.Rel A) (w.lookup n) (w'.lookup n))
    (hnone : L.reports [Diagnostic.ofProblem l (.noDefinition n)]
      [Diagnostic.ofProblem l (.noDefinition n)]) :
    Alike L A w w' active s (.call l n) (.call l n) := by
  refine ⟨?_, rfl⟩
  rw [walk_call, walk_call]
  refine h.bind fun found found' hfound => ?_
  cases hfound with
  | none =>
    have hreport : Related L active (fun _ _ => True) (report l (.noDefinition n))
        (report l (.noDefinition n)) := (Gives.report l _).related (Gives.report l _) trivial hnone
    exact hreport.bind fun _ _ _ => .pure hempty
  | some h => exact .pure h

theorem alike_install (hempty : A Facts.empty Facts.empty) {hs hs' : List Handler}
    (h : Related L active (fun _ _ => True) (walkHandlers w hs) (walkHandlers w' hs')) :
    Alike L A w w' active s (.install l hs) (.install l' hs') := by
  refine ⟨?_, rfl⟩
  rw [walk_install, walk_install]
  exact h.bind fun _ _ _ => .pure hempty

variable [∀ n, Grows (w.lookup n)]

theorem walkHandlers_related {hs hs' : List Handler}
    (h : List.Forall₂ (fun h h' => Alike L A w w' active false h.body h'.body) hs hs') :
    Related L active (fun _ _ => True) (walkHandlers w hs) (walkHandlers w' hs') := by
  induction h with
  | nil => rw [walkHandlers, walkHandlers]; exact .pure trivial
  | cons h _ ih =>
    rw [walkHandlers_cons, walkHandlers_cons]
    exact h.walks.bind fun _ _ _ => ih

variable (M : Merges L A S)
include M

theorem walkSequence_related {as as' : List Activity} (h : AlikeAll L A w w' active s as as')
    (hf : A f f') :
    Related L active (fun r r' => A r.1 r'.1) (walkSequence w as f s)
      (walkSequence w' as' f' s) := by
  induction h generalizing f f' with
  | nil => rw [walkSequence, walkSequence]; exact .pure hf
  | cons h _ ih =>
    rw [walkSequence_cons, walkSequence_cons]
    refine h.results.bind ?_
    rintro r r' ⟨hr, hs, hs'⟩
    refine (M.inSequence hf hr).bind fun g g' hg => ?_
    rw [hs, hs']
    exact ih hg

theorem walkParallel_related {as as' : List Activity} (h : AlikeAll L A w w' active s as as')
    (hf : A f f') :
    Related L active (fun r r' => A r.1 r'.1) (walkParallel w as f s)
      (walkParallel w' as' f' s) := by
  induction h generalizing f f' with
  | nil => rw [walkParallel, walkParallel]; exact .pure hf
  | cons h _ ih =>
    rw [walkParallel_cons, walkParallel_cons]
    refine h.results.bind ?_
    rintro r r' ⟨hr, hs, hs'⟩
    refine (M.inParallel hf hr).bind fun g g' hg => ?_
    rw [hs, hs']
    exact ih hg

theorem walkBranch_related {b b' : Branch} (h : AlikeBranch L A w w' active s b b') :
    Related L active A (walkBranch w b s) (walkBranch w' b' s) := by
  refine h.1.results.bind ?_
  rintro r r' ⟨hr, hs, hs'⟩
  rw [hs, hs']
  exact h.2.walks.bind fun q q' hq => M.inSequence hr hq

theorem walkBranches_related {bs bs' : List Branch} {reported reported' : List String}
    (h : List.Forall₂ (AlikeBranch L A w w' active s) bs bs') (hf : A f f')
    (hr : S reported reported') :
    Related L active A (walkBranches w bs s f reported) (walkBranches w' bs' s f' reported') := by
  induction h generalizing f f' reported reported' with
  | nil => rw [walkBranches, walkBranches]; exact .pure hf
  | cons h _ ih =>
    rw [walkBranches_cons, walkBranches_cons]
    refine (walkBranch_related M h).bind fun g g' hg => ?_
    exact (M.branches hf hg hr).bind fun q q' hq => ih (M.choice hf hg) hq

theorem walkArms_related {arms arms' : List Arm} {sofar : Bool} {reported reported' : List String}
    (h : List.Forall₂ (fun a a' => Alike L A w w' active s a.body a'.body) arms arms')
    (hf : A f f') (hr : S reported reported') :
    Related L active (fun r r' => A r.1 r'.1 ∧ S r.2.2 r'.2.2)
      (walkArms w arms s f sofar reported) (walkArms w' arms' s f' sofar reported') := by
  induction h generalizing f f' sofar reported reported' with
  | nil => rw [walkArms, walkArms]; exact .pure ⟨hf, hr⟩
  | cons h _ ih =>
    rw [walkArms_cons, walkArms_cons]
    refine h.results.bind ?_
    rintro r r' ⟨hg, hs, hs'⟩
    refine (M.compare .cond hf hg hr).bind fun q q' hq => ?_
    rw [hs, hs']
    exact ih (M.choice hf hg) hq

theorem alike_sequence {as as' : List Activity} (h : AlikeAll L A w w' active s as as') :
    Alike L A w w' active s (.sequence l as) (.sequence l' as') := by
  refine ⟨?_, by rw [Activity.after, Activity.after, h.flag]⟩
  cases h with
  | nil => rw [walk, walk]; exact .pure M.empty
  | cons h hrest =>
    rw [walk_sequence_cons, walk_sequence_cons]
    refine h.results.bind ?_
    rintro r r' ⟨hr, hs, hs'⟩
    rw [hs, hs']
    exact walkSequence_related M hrest hr

theorem alike_parallel {as as' : List Activity} (h : AlikeAll L A w w' active s as as') :
    Alike L A w w' active s (.parallel l as) (.parallel l' as') := by
  refine ⟨?_, by rw [Activity.after, Activity.after, h.flag]⟩
  cases h with
  | nil => rw [walk, walk]; exact .pure M.empty
  | cons h hrest =>
    rw [walk_parallel_cons, walk_parallel_cons]
    refine h.results.bind ?_
    rintro r r' ⟨hr, hs, hs'⟩
    rw [hs, hs']
    exact walkParallel_related M hrest hr

theorem alike_choice {bs bs' : List Branch}
    (h : List.Forall₂ (AlikeBranch L A w w' active s) bs bs') :
    Alike L A w w' active s (.choice l bs) (.choice l' bs') := by
  cases h with
  | nil => exact ⟨by rw [walk, walk]; exact .pure M.empty, by rw [Activity.after, Activity.after]⟩
  | cons h hrest =>
    refine ⟨?_, by rw [Activity.after, Activity.after]⟩
    rw [walk_choice_cons, walk_choice_cons]
    refine (walkBranch_related M h).bind fun f f' hf => ?_
    exact (walkBranches_related M hrest hf M.seen).bind fun g g' hg => .pure hg

theorem alike_cond {arms arms' : List Arm} {otherwise otherwise' : Activity}
    (h : List.Forall₂ (fun a a' => Alike L A w w' active s a.body a'.body) arms arms')
    (ho : Alike L A w w' active s otherwise otherwise') :
    Alike L A w w' active s (.cond l arms otherwise) (.cond l' arms' otherwise') := by
  cases h with
  | nil =>
    refine ⟨?_, by rw [Activity.after, Activity.after, ho.flag]⟩
    rw [walk, walk]
    exact ho.walks
  | @cons a a' _ _ h hrest =>
    refine ⟨?_, ?_⟩
    · rw [walk_cond_cons, walk_cond_cons]
      refine h.results.bind ?_
      rintro r r' ⟨hr, hs, hs'⟩
      rw [hs, hs']
      refine (walkArms_related M hrest hr M.seen).bind ?_
      rintro q q' ⟨hq, hq'⟩
      refine ho.walks.bind fun e e' he => ?_
      exact (M.compare .cond hq he hq').bind fun _ _ _ => .pure (M.choice hq he)
    · cases a; cases a'
      rw [Activity.after, Activity.after, afterArms_eq hrest, h.flag, ho.flag]

theorem alike_forLoop {c c' : Expr} {first first' post post' body body' : Activity}
    (hloop : ∀ {f f'}, A f f' → L.reports (loopDiagnostics l f) (loopDiagnostics l f'))
    (hf : Alike L A w w' active s first first')
    (hb : Alike L A w w' active (first.after s) body body')
    (hp : Alike L A w w' active (body.after (first.after s)) post post') :
    Alike L A w w' active s (.forLoop l first c post body)
      (.forLoop l first' c' post' body') := by
  refine ⟨?_, by rw [Activity.after, Activity.after, hp.flag, hb.flag, hf.flag]⟩
  rw [walk_forLoop, walk_forLoop]
  refine hf.results.bind ?_
  rintro a a' ⟨ha, hs, hs'⟩
  rw [hs, hs']
  refine hb.results.bind ?_
  rintro b b' ⟨hb, hs, hs'⟩
  rw [hs, hs']
  refine hp.walks.bind fun c c' hc => ?_
  refine (M.inSequence hb hc).bind fun turn turn' ht => ?_
  refine (forbidInit_related hloop ht).bind fun _ _ _ => ?_
  exact (M.inSequence ha ht).bind fun _ _ hr => .pure hr

theorem alike_requestResponse {op : String} {target : Option Path} {output output' : Expr}
    {handler handler' : Activity}
    (hin : Related L active A (input w l op target s) (input w' l op target s))
    (h : Alike L A w w' active false handler handler') :
    Alike L A w w' active s (.requestResponse l op target output handler)
      (.requestResponse l op target output' handler') := by
  refine ⟨?_, by rw [Activity.after, Activity.after]⟩
  rw [walk_requestResponse, walk_requestResponse]
  refine hin.bind fun f f' hf => ?_
  exact h.walks.bind fun r r' hr => .pure (M.handler hf hr)

end Parts

end Check

end Sessions
