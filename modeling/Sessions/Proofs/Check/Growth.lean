import Sessions.Check.Checker
import Sessions.Proofs.Program.Activity

/-!
# Sessions.Proofs.Check.Growth

A walk only adds to what was found before. `Progress.Precedes p q` says that the table and the
diagnostics of `p` start those of `q`; `Grows m` says that the computation `m` always leads from a
progress to one that it precedes, with the same definitions being walked.

`Grows` is a class, so that the growth of a compound computation is found from that of its parts.
The equations of `walk` are stated first, in the form in which every later proof takes them apart:
a result is a pair `r`, and its parts are `r.1` and `r.2`.
-/

namespace Sessions.Check

variable {α β : Type}

/-! ## Equations of the walk -/

theorem run_bind (m : Walk α) (f : α → Walk β) (p : Progress) :
    (m >>= f).run p = (f (m.run p).1).run (m.run p).2 := rfl

/-- The facts of a branch: its guard and then its body. -/
def walkBranch (w : Setting) (b : Branch) (starter : Bool) : Walk Facts := do
  let r ← walk w b.guard starter
  let q ← walk w b.body r.2
  inSequence r.1 q.1

/-- The facts of a reply that is stored in a correlation path. -/
def reply (w : Setting) (operation port : String) (p : Path) : Walk Facts := do
  match (w.fresh port operation).remark with
  | some line => note line
  | none => pure ()
  return Facts.empty.provide p (w.fresh port operation).fresh

/-- What a call gives, once its definition was looked up. -/
def called (l : Location) (name : String) (starter : Bool) : Option Facts → Walk (Facts × Bool)
  | some f => return (f, starter)
  | none => do
    report l (.noDefinition name)
    return (Facts.empty, starter)

/-- Reports the paths over which the branches of a choice disagree. In a choice that starts the
session they may. -/
def reportBranches (starter : Bool) (reported : List String) (ps : List Path) :
    Walk (List String) :=
  if starter then pure reported else reportMismatches .choice reported ps

mutual

-- These two are checked together, so that the equations of `walk` are there before the lemmas that
-- follow ask for them all at once.

theorem walk_sequence_cons (w : Setting) (l : Location) (a : Activity) (rest : List Activity)
    (s : Bool) :
    walk w (.sequence l (a :: rest)) s = (do
      let r ← walk w a s
      walkSequence w rest r.1 r.2) := by
  rw [walk]

theorem walk_parallel_cons (w : Setting) (l : Location) (a : Activity) (rest : List Activity)
    (s : Bool) :
    walk w (.parallel l (a :: rest)) s = (do
      let r ← walk w a s
      walkParallel w rest r.1 r.2) := by
  rw [walk]

end

theorem walk_choice_cons (w : Setting) (l : Location) (b : Branch) (rest : List Branch)
    (s : Bool) :
    walk w (.choice l (b :: rest)) s = (do
      let f ← walkBranch w b s
      let f ← walkBranches w rest s f []
      return (f, false)) := by
  cases b; rw [walk]; rfl

theorem walk_cond_cons (w : Setting) (l : Location) (a : Arm) (rest : List Arm)
    (otherwise : Activity) (s : Bool) :
    walk w (.cond l (a :: rest) otherwise) s = (do
      let r ← walk w a.body s
      let q ← walkArms w rest s r.1 (s && r.2) []
      let e ← walk w otherwise s
      let _ ← reportMismatches .cond q.2.2 (q.1.choice e.1).2
      return ((q.1.choice e.1).1, q.2.1 && e.2)) := by
  cases a; rw [walk]

theorem walk_whileLoop (w : Setting) (l : Location) (c : Expr) (body : Activity) (s : Bool) :
    walk w (.whileLoop l c body) s = (do
      let r ← walk w body s
      forbidInit l r.1
      return r) := by
  rw [walk]

theorem walk_forEach (w : Setting) (l : Location) (key target : Option Path) (body : Activity)
    (s : Bool) :
    walk w (.forEach l key target body) s = (do
      let r ← walk w body s
      forbidInit l r.1
      return r) := by
  rw [walk]

theorem walk_forLoop (w : Setting) (l : Location) (first : Activity) (c : Expr)
    (post body : Activity) (s : Bool) :
    walk w (.forLoop l first c post body) s = (do
      let a ← walk w first s
      let b ← walk w body a.2
      let c ← walk w post b.2
      let turn ← inSequence b.1 c.1
      forbidInit l turn
      let f ← inSequence a.1 turn
      return (f, c.2)) := by
  rw [walk]

theorem walk_call (w : Setting) (l : Location) (name : String) (s : Bool) :
    walk w (.call l name) s = w.lookup name >>= called l name s := by
  rw [walk]; rfl

theorem walk_oneWay (w : Setting) (l : Location) (op : String) (target : Option Path) (s : Bool) :
    walk w (.oneWay l op target) s = (do
      let f ← input w l op target s
      return (f, false)) := by
  rw [walk]

theorem walk_requestResponse (w : Setting) (l : Location) (op : String) (target : Option Path)
    (output : Expr) (handler : Activity) (s : Bool) :
    walk w (.requestResponse l op target output handler) s = (do
      let f ← input w l op target s
      let r ← walk w handler false
      return (f.handler r.1, false)) := by
  rw [walk]

theorem walk_solicitResponse (w : Setting) (l : Location) (op port : String) (output : Expr)
    (target : Option Path) (s : Bool) :
    walk w (.solicitResponse l op port output target) s =
      match target with
      | some p =>
        if p.isCorrelation then (do
          let f ← reply w op port p
          return (f, s))
        else return (Facts.empty, s)
      | none => return (Facts.empty, s) := by
  cases target with
  | none => rw [walk]
  | some p =>
    rw [walk]
    unfold reply
    generalize w.fresh port op = j
    obtain ⟨_, _ | _⟩ := j <;> rfl

theorem walk_assign (w : Setting) (l : Location) (target : Path) (op : String) (value : Expr)
    (s : Bool) :
    walk w (.assign l target op value) s = (do
      let f ← assignment l target op value
      return (f, s)) := by
  rw [walk]

theorem walk_increment (w : Setting) (l : Location) (p : Path) (pre decrement s : Bool) :
    walk w (.increment l p pre decrement) s = (do
      if p.isCorrelation then report l (.incremented p)
      return (Facts.empty, s)) := by
  rw [walk]

theorem walk_install (w : Setting) (l : Location) (hs : List Handler) (s : Bool) :
    walk w (.install l hs) s = (do
      walkHandlers w hs
      return (Facts.empty, s)) := by
  rw [walk]

theorem walkSequence_cons (w : Setting) (a : Activity) (rest : List Activity) (f : Facts)
    (s : Bool) :
    walkSequence w (a :: rest) f s = (do
      let r ← walk w a s
      let f ← inSequence f r.1
      walkSequence w rest f r.2) := by
  rw [walkSequence]

theorem walkParallel_cons (w : Setting) (a : Activity) (rest : List Activity) (f : Facts)
    (s : Bool) :
    walkParallel w (a :: rest) f s = (do
      let r ← walk w a s
      let f ← inParallel f r.1
      walkParallel w rest f r.2) := by
  rw [walkParallel]

theorem walkBranches_cons (w : Setting) (b : Branch) (rest : List Branch) (s : Bool) (f : Facts)
    (reported : List String) :
    walkBranches w (b :: rest) s f reported = (do
      let g ← walkBranch w b s
      let reported ← reportBranches s reported (f.choice g).2
      walkBranches w rest s (f.choice g).1 reported) := by
  cases b; rw [walkBranches]; cases s <;> rfl

theorem walkArms_cons (w : Setting) (a : Arm) (rest : List Arm) (s : Bool) (f : Facts)
    (after : Bool) (reported : List String) :
    walkArms w (a :: rest) s f after reported = (do
      let r ← walk w a.body s
      let reported ← reportMismatches .cond reported (f.choice r.1).2
      walkArms w rest s (f.choice r.1).1 (after && r.2) reported) := by
  cases a; rw [walkArms]

theorem walkHandlers_cons (w : Setting) (h : Handler) (rest : List Handler) :
    walkHandlers w (h :: rest) = (do
      let _ ← walk w h.body false
      walkHandlers w rest) := by
  cases h; rw [walkHandlers]

/-! ## Growth -/

namespace Progress

/-- What `p` has found is the start of what `q` has found. -/
structure Precedes (p q : Progress) : Prop where
  table : p.table <+: q.table
  diagnostics : p.diagnostics <+: q.diagnostics

theorem Precedes.refl (p : Progress) : p.Precedes p :=
  ⟨List.prefix_rfl, List.prefix_rfl⟩

theorem Precedes.trans {p q r : Progress} (h : p.Precedes q) (h' : q.Precedes r) :
    p.Precedes r :=
  ⟨h.table.trans h'.table, h.diagnostics.trans h'.diagnostics⟩

theorem Precedes.leads {p q : Progress} {table : List (String × Facts)} (h : p.Precedes q)
    (hq : q.table <+: table) : p.table <+: table :=
  h.table.trans hq

end Progress

/-- The computation only adds to what was found, and leaves open what was open. -/
class Grows (m : Walk α) : Prop where
  precedes (p : Progress) : p.Precedes (m.run p).2
  active (p : Progress) : (m.run p).2.active = p.active

instance grows_pure (a : α) : Grows (pure a : Walk α) :=
  ⟨fun p => .refl p, fun _ => rfl⟩

instance grows_bind (m : Walk α) (f : α → Walk β) [Grows m] [∀ a, Grows (f a)] :
    Grows (m >>= f) where
  precedes p := (Grows.precedes p).trans (Grows.precedes (m := f (m.run p).1) (m.run p).2)
  active p := (Grows.active (m := f (m.run p).1) (m.run p).2).trans (Grows.active p)

instance grows_ite (c : Prop) [Decidable c] (m m' : Walk α) [Grows m] [Grows m'] :
    Grows (if c then m else m') := by
  split <;> infer_instance

instance grows_report (l : Location) (pr : Problem) : Grows (report l pr) :=
  ⟨fun _ => ⟨List.prefix_rfl, List.prefix_append _ _⟩, fun _ => rfl⟩

instance grows_note (line : String) : Grows (note line) :=
  ⟨fun _ => ⟨List.prefix_rfl, List.prefix_rfl⟩, fun _ => rfl⟩

instance grows_reportClashes (ps : List Path) : Grows (reportClashes ps) := by
  induction ps with
  | nil => exact grows_pure ()
  | cons p rest ih => rw [reportClashes]; infer_instance

instance grows_inSequence (f g : Facts) : Grows (inSequence f g) := by
  unfold inSequence; infer_instance

instance grows_inParallel (f g : Facts) : Grows (inParallel f g) := by
  unfold inParallel; infer_instance

instance grows_reportMismatches (b : Branching) (reported : List String) (ps : List Path) :
    Grows (reportMismatches b reported ps) := by
  induction ps generalizing reported with
  | nil => exact grows_pure reported
  | cons p rest ih =>
    rw [reportMismatches]
    split
    · exact ih reported
    · infer_instance

instance grows_reportBranches (s : Bool) (reported : List String) (ps : List Path) :
    Grows (reportBranches s reported ps) := by
  unfold reportBranches; infer_instance

instance grows_forbidInit (l : Location) (f : Facts) : Grows (forbidInit l f) := by
  unfold forbidInit; infer_instance

instance grows_input (w : Setting) (l : Location) (op : String) (target : Option Path)
    (s : Bool) : Grows (input w l op target s) := by
  unfold input
  cases target <;> infer_instance

instance grows_assignment (l : Location) (target : Path) (op : String) (value : Expr) :
    Grows (assignment l target op value) := by
  unfold assignment
  cases assigned target value <;> infer_instance

instance grows_reply (w : Setting) (op port : String) (p : Path) : Grows (reply w op port p) := by
  unfold reply
  cases (w.fresh port op).remark <;> infer_instance

instance grows_called (l : Location) (name : String) (s : Bool) (found : Option Facts) :
    Grows (called l name s found) := by
  cases found <;> (unfold called; infer_instance)

section Walk

variable {w : Setting}

theorem grows_walkBranch_of {b : Branch} (hg : ∀ s, Grows (walk w b.guard s))
    (hb : ∀ s, Grows (walk w b.body s)) (s : Bool) : Grows (walkBranch w b s) := by
  unfold walkBranch; infer_instance

theorem grows_walkSequence_of {as : List Activity} (h : ∀ a ∈ as, ∀ s, Grows (walk w a s))
    (f : Facts) (s : Bool) : Grows (walkSequence w as f s) := by
  induction as generalizing f s with
  | nil => rw [walkSequence]; infer_instance
  | cons a rest ih =>
    obtain ⟨_, hrest⟩ := List.forall_mem_cons.1 h
    have := ih hrest
    rw [walkSequence_cons]; infer_instance

theorem grows_walkParallel_of {as : List Activity} (h : ∀ a ∈ as, ∀ s, Grows (walk w a s))
    (f : Facts) (s : Bool) : Grows (walkParallel w as f s) := by
  induction as generalizing f s with
  | nil => rw [walkParallel]; infer_instance
  | cons a rest ih =>
    obtain ⟨_, hrest⟩ := List.forall_mem_cons.1 h
    have := ih hrest
    rw [walkParallel_cons]; infer_instance

theorem grows_walkBranches_of {bs : List Branch} (h : ∀ b ∈ bs, ∀ s, Grows (walkBranch w b s))
    (s : Bool) (f : Facts) (reported : List String) : Grows (walkBranches w bs s f reported) := by
  induction bs generalizing f reported with
  | nil => rw [walkBranches]; infer_instance
  | cons b rest ih =>
    obtain ⟨_, hrest⟩ := List.forall_mem_cons.1 h
    have := ih hrest
    rw [walkBranches_cons]; infer_instance

theorem grows_walkArms_of {arms : List Arm} (h : ∀ a ∈ arms, ∀ s, Grows (walk w a.body s))
    (s : Bool) (f : Facts) (after : Bool) (reported : List String) :
    Grows (walkArms w arms s f after reported) := by
  induction arms generalizing f after reported with
  | nil => rw [walkArms]; infer_instance
  | cons a rest ih =>
    obtain ⟨_, hrest⟩ := List.forall_mem_cons.1 h
    have := ih hrest
    rw [walkArms_cons]; infer_instance

theorem grows_walkHandlers_of {hs : List Handler} (h : ∀ h ∈ hs, ∀ s, Grows (walk w h.body s)) :
    Grows (walkHandlers w hs) := by
  induction hs with
  | nil => rw [walkHandlers]; infer_instance
  | cons _ rest ih =>
    obtain ⟨_, hrest⟩ := List.forall_mem_cons.1 h
    have := ih hrest
    rw [walkHandlers_cons]; infer_instance

/-- The walk of an activity grows if looking up definitions does. -/
instance grows_walk [∀ n, Grows (w.lookup n)] (a : Activity) (s : Bool) : Grows (walk w a s) := by
  induction a generalizing s with
  | sequence l as ih =>
    cases as with
    | nil => rw [walk]; infer_instance
    | cons a rest =>
      obtain ⟨_, hrest⟩ := List.forall_mem_cons.1 ih
      have := grows_walkSequence_of hrest
      rw [walk_sequence_cons]; infer_instance
  | parallel l as ih =>
    cases as with
    | nil => rw [walk]; infer_instance
    | cons a rest =>
      obtain ⟨_, hrest⟩ := List.forall_mem_cons.1 ih
      have := grows_walkParallel_of hrest
      rw [walk_parallel_cons]; infer_instance
  | choice l bs ih =>
    have hbs : ∀ b ∈ bs, ∀ s, Grows (walkBranch w b s) := fun b hb =>
      grows_walkBranch_of (ih b hb).1 (ih b hb).2
    cases bs with
    | nil => rw [walk]; infer_instance
    | cons b rest =>
      obtain ⟨_, hrest⟩ := List.forall_mem_cons.1 hbs
      have := grows_walkBranches_of hrest
      rw [walk_choice_cons]; infer_instance
  | cond l arms otherwise iha iho =>
    cases arms with
    | nil => rw [walk]; infer_instance
    | cons a rest =>
      obtain ⟨_, hrest⟩ := List.forall_mem_cons.1 iha
      have := grows_walkArms_of hrest
      rw [walk_cond_cons]; infer_instance
  | whileLoop l c body _ => rw [walk_whileLoop]; infer_instance
  | forEach l key target body _ => rw [walk_forEach]; infer_instance
  | forLoop l first c post body _ _ _ => rw [walk_forLoop]; infer_instance
  | call l name => rw [walk_call]; infer_instance
  | oneWay l op target => rw [walk_oneWay]; infer_instance
  | requestResponse l op target output handler _ => rw [walk_requestResponse]; infer_instance
  | solicitResponse l op port output target =>
    rw [walk_solicitResponse]
    cases target <;> infer_instance
  | assign l target op value => rw [walk_assign]; infer_instance
  | increment l p pre decrement => rw [walk_increment]; infer_instance
  | scope l name body ih => rw [walk]; exact ih s
  | synchronized l id body ih => rw [walk]; exact ih s
  | install l hs ih =>
    have := grows_walkHandlers_of ih
    rw [walk_install]; infer_instance
  | _ => rw [walk]; infer_instance

variable [∀ n, Grows (w.lookup n)]

instance grows_walkBranch (b : Branch) (s : Bool) : Grows (walkBranch w b s) :=
  grows_walkBranch_of (grows_walk b.guard) (grows_walk b.body) s

instance grows_walkSequence (as : List Activity) (f : Facts) (s : Bool) :
    Grows (walkSequence w as f s) :=
  grows_walkSequence_of (fun a _ => grows_walk a) f s

instance grows_walkParallel (as : List Activity) (f : Facts) (s : Bool) :
    Grows (walkParallel w as f s) :=
  grows_walkParallel_of (fun a _ => grows_walk a) f s

instance grows_walkBranches (bs : List Branch) (s : Bool) (f : Facts) (reported : List String) :
    Grows (walkBranches w bs s f reported) :=
  grows_walkBranches_of (fun b _ => grows_walkBranch b) s f reported

instance grows_walkArms (arms : List Arm) (s : Bool) (f : Facts) (sofar : Bool)
    (reported : List String) : Grows (walkArms w arms s f sofar reported) :=
  grows_walkArms_of (fun a _ => grows_walk a.body) s f sofar reported

instance grows_walkHandlers (hs : List Handler) : Grows (walkHandlers w hs) :=
  grows_walkHandlers_of fun h _ => grows_walk h.body

end Walk

end Sessions.Check
