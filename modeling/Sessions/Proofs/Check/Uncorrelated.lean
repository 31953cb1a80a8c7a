import Sessions.Proofs.Check.Scan
import Sessions.Proofs.Correlation.Validation

/-!
# Sessions.Proofs.Check.Uncorrelated

Inputs that have no correlation set. `Activity.inputs` lists the inputs of an activity in the order
in which a walk meets them, each with whether it counts as the one that starts the session. A check
reports a missing set for those that do not and that correlate no path (`walk_tells`). With a table
that was validated these are the inputs whose operation is unmapped or mapped to the empty name
(`validate_decides`): a set that is there and empty does not occur.
-/

namespace Sessions

/-- An input as a walk meets it. -/
structure Input where
  loc : Location
  operation : String
  /-- Whether it is the one that starts the session. -/
  starter : Bool

namespace Activity

mutual

/-- The inputs of an activity that is met with this flag. A fault handler runs in a session, and so
does what follows a request. -/
def inputs : Activity → (starter : Bool) → List Input
  | .sequence _ as, s => inputsAll as s
  | .parallel _ as, s => inputsAll as s
  | .choice _ bs, s => inputsBranches bs s
  | .cond _ arms otherwise, s => inputsArms arms s ++ otherwise.inputs s
  | .whileLoop _ _ body, s => body.inputs s
  | .forLoop _ first _ post body, s =>
    first.inputs s ++ (body.inputs (first.after s) ++ post.inputs (body.after (first.after s)))
  | .forEach _ _ _ body, s => body.inputs s
  | .oneWay l op _, s => [⟨l, op, s⟩]
  | .requestResponse l op _ _ handler, s => ⟨l, op, s⟩ :: handler.inputs false
  | .scope _ _ body, s => body.inputs s
  | .synchronized _ _ body, s => body.inputs s
  | .install _ hs, _ => inputsHandlers hs
  | _, _ => []

def inputsAll : List Activity → Bool → List Input
  | [], _ => []
  | a :: rest, s => a.inputs s ++ inputsAll rest (a.after s)

/-- Each branch is met with the flag of the choice. -/
def inputsBranches : List Branch → Bool → List Input
  | [], _ => []
  | ⟨guard, body⟩ :: rest, s =>
    guard.inputs s ++ body.inputs (guard.after s) ++ inputsBranches rest s

def inputsArms : List Arm → Bool → List Input
  | [], _ => []
  | ⟨_, body⟩ :: rest, s => body.inputs s ++ inputsArms rest s

def inputsHandlers : List Handler → List Input
  | [] => []
  | ⟨_, body⟩ :: rest => body.inputs false ++ inputsHandlers rest

end

theorem inputsBranches_cons (b : Branch) (rest : List Branch) (s : Bool) :
    inputsBranches (b :: rest) s =
      b.guard.inputs s ++ b.body.inputs (b.guard.after s) ++ inputsBranches rest s := by
  cases b; rw [inputsBranches]

theorem inputsArms_cons (a : Arm) (rest : List Arm) (s : Bool) :
    inputsArms (a :: rest) s = a.body.inputs s ++ inputsArms rest s := by
  cases a; rw [inputsArms]

theorem inputsHandlers_cons (h : Handler) (rest : List Handler) :
    inputsHandlers (h :: rest) = h.body.inputs false ++ inputsHandlers rest := by
  cases h; rw [inputsHandlers]

/-- Where the activity receives and which operation, if it is an input. -/
def input? : Activity → Option (Location × String)
  | .oneWay l op _ => some (l, op)
  | .requestResponse l op _ _ _ => some (l, op)
  | _ => none

/-- Where inputs are met, and their operations. -/
def places (is : List Input) : List (Location × String) :=
  is.map fun i => (i.loc, i.operation)

theorem places_append (is js : List Input) : places (is ++ js) = places is ++ places js :=
  List.map_append

section Parts

theorem places_inputsAll {as : List Activity}
    (h : ∀ a ∈ as, ∀ s, places (a.inputs s) = a.parts.filterMap input?) (s : Bool) :
    places (inputsAll as s) = (partsOfAll as).filterMap input? := by
  induction as generalizing s with
  | nil => rfl
  | cons a rest ih =>
    obtain ⟨ha, hrest⟩ := List.forall_mem_cons.1 h
    rw [inputsAll, partsOfAll, places_append, List.filterMap_append, ha, ih hrest]

theorem places_inputsBranches {bs : List Branch}
    (h : ∀ b ∈ bs, (∀ s, places (b.guard.inputs s) = b.guard.parts.filterMap input?) ∧
      ∀ s, places (b.body.inputs s) = b.body.parts.filterMap input?) (s : Bool) :
    places (inputsBranches bs s) = (partsOfBranches bs).filterMap input? := by
  induction bs with
  | nil => rfl
  | cons b rest ih =>
    obtain ⟨⟨hguard, hbody⟩, hrest⟩ := List.forall_mem_cons.1 h
    cases b
    rw [inputsBranches, partsOfBranches, places_append, places_append, List.filterMap_append,
      List.filterMap_append, hguard, hbody, ih hrest]

theorem places_inputsArms {arms : List Arm}
    (h : ∀ a ∈ arms, ∀ s, places (a.body.inputs s) = a.body.parts.filterMap input?) (s : Bool) :
    places (inputsArms arms s) = (partsOfArms arms).filterMap input? := by
  induction arms with
  | nil => rfl
  | cons a rest ih =>
    obtain ⟨ha, hrest⟩ := List.forall_mem_cons.1 h
    cases a
    rw [inputsArms, partsOfArms, places_append, List.filterMap_append, ha, ih hrest]

theorem places_inputsHandlers {hs : List Handler}
    (h : ∀ x ∈ hs, ∀ s, places (x.body.inputs s) = x.body.parts.filterMap input?) :
    places (inputsHandlers hs) = (partsOfHandlers hs).filterMap input? := by
  induction hs with
  | nil => rfl
  | cons x rest ih =>
    obtain ⟨hx, hrest⟩ := List.forall_mem_cons.1 h
    cases x
    rw [inputsHandlers, partsOfHandlers, places_append, List.filterMap_append, hx, ih hrest]

/-- No input is left out and none is listed twice: they are those of the text, in its order. -/
theorem places_inputs (a : Activity) (s : Bool) :
    places (a.inputs s) = a.parts.filterMap input? := by
  induction a generalizing s with
  | sequence l as ih =>
    rw [inputs, parts, List.filterMap_cons_none rfl, places_inputsAll ih]
  | parallel l as ih =>
    rw [inputs, parts, List.filterMap_cons_none rfl, places_inputsAll ih]
  | choice l bs ih =>
    rw [inputs, parts, List.filterMap_cons_none rfl, places_inputsBranches ih]
  | cond l arms otherwise iha iho =>
    rw [inputs, parts, List.filterMap_cons_none rfl, places_append, List.filterMap_append,
      places_inputsArms iha, iho]
  | whileLoop l c body ih => rw [inputs, parts, List.filterMap_cons_none rfl, ih]
  | forLoop l first c post body ihf ihp ihb =>
    rw [inputs, parts, List.filterMap_cons_none rfl, places_append, places_append,
      List.filterMap_append, List.filterMap_append, ihf, ihb, ihp, List.append_assoc]
  | forEach l key target body ih => rw [inputs, parts, List.filterMap_cons_none rfl, ih]
  | oneWay l op target => rfl
  | requestResponse l op target output handler ih =>
    have hself : input? (requestResponse l op target output handler) = some (l, op) := rfl
    rw [inputs, parts, List.filterMap_cons_some hself, ← ih false]
    rfl
  | scope l name body ih => rw [inputs, parts, List.filterMap_cons_none rfl, ih]
  | synchronized l id body ih => rw [inputs, parts, List.filterMap_cons_none rfl, ih]
  | install l hs ih =>
    rw [inputs, parts, List.filterMap_cons_none rfl, places_inputsHandlers ih]
  | _ => rfl

end Parts

end Activity

namespace Check

/-! ## Walks -/

/-- Whether a diagnostic says that an input has no correlation set. -/
abbrev Diagnostic.isMissingSet : Diagnostic → Bool :=
  Diagnostic.isOf .missingCorrelationSet

/-- Whatever was found before, the computation reports just these missing sets. -/
def Tells {α : Type} (m : Walk α) (ds : List Diagnostic) : Prop :=
  ∀ p, (m.run p).2.diagnostics.filter Diagnostic.isMissingSet =
    p.diagnostics.filter Diagnostic.isMissingSet ++ ds

section Tells

variable {α β : Type} {m : Walk α} {f : α → Walk β} {ds es : List Diagnostic}

theorem Tells.cast (h : Tells m ds) (he : ds = es) : Tells m es :=
  he ▸ h

theorem Tells.pure (a : α) : Tells (Pure.pure a : Walk α) [] :=
  fun _ => (List.append_nil _).symm

theorem Tells.bind (h : Tells m ds) (hf : ∀ p, Tells (f (m.run p).1) es) :
    Tells (m >>= f) (ds ++ es) := by
  intro p
  rw [run_bind, hf, h, List.append_assoc]

/-- What comes first is silent. -/
theorem Tells.then (h : Tells m []) (hf : ∀ a, Tells (f a) es) : Tells (m >>= f) es :=
  h.bind fun p => hf (m.run p).1

/-- What comes last is silent. -/
theorem Tells.before (h : Tells m ds) (hf : ∀ a, Tells (f a) []) : Tells (m >>= f) ds :=
  (h.bind fun p => hf (m.run p).1).cast (List.append_nil ds)

theorem Gives.tells {a : α} (h : Gives m a ds) : Tells m (ds.filter Diagnostic.isMissingSet) := by
  intro p
  rw [h.diagnostics, List.filter_append]

theorem inSequence_tells (a b : Facts) : Tells (inSequence a b) [] :=
  (inSequence_gives a b).tells.cast ((sorts_isOf _).filter_pathDiagnostics _ (fun _ => rfl) _)

theorem inParallel_tells (a b : Facts) : Tells (inParallel a b) [] :=
  (inParallel_gives a b).tells.cast ((sorts_isOf _).filter_pathDiagnostics _ (fun _ => rfl) _)

theorem reportMismatches_tells (b : Branching) (reported : List String) (ps : List Path) :
    Tells (reportMismatches b reported ps) [] :=
  (reportMismatches_gives b reported ps).tells.cast
    ((sorts_isOf _).filter_pathDiagnostics _ (fun _ => rfl) _)

theorem reportBranches_tells (s : Bool) (reported : List String) (ps : List Path) :
    Tells (reportBranches s reported ps) [] := by
  cases s with
  | true => exact .pure reported
  | false => exact reportMismatches_tells .choice reported ps

theorem report_tells (l : Location) {pr : Problem}
    (h : (pr.kind == .missingCorrelationSet) = false) :
    Tells (report l pr) [] := by
  refine (Gives.report l pr).tells.cast ?_
  rw [(sorts_isOf _).filter_ofProblem, h]
  rfl

theorem forbidInit_tells (l : Location) (a : Facts) : Tells (forbidInit l a) [] := by
  unfold forbidInit
  split
  · exact .pure ()
  · exact report_tells l rfl

theorem reply_tells (w : Setting) (op port : String) (p : Path) : Tells (reply w op port p) [] :=
  (reply_gives w op port p).tells

theorem assignment_tells (l : Location) (target : Path) (op : String) (value : Expr) :
    Tells (assignment l target op value) [] := by
  refine (assignment_reports l target op value).tells.cast ?_
  unfold assignmentDiagnostics
  split
  · rfl
  · split
    · rfl
    · split <;> rfl

/-- What is reported of an input that has no correlation set. -/
def Setting.missing (w : Setting) (i : Input) : List Diagnostic :=
  if w.mode ≠ .single ∧ i.starter = false ∧ inputPaths w i.operation = [] then
    [Diagnostic.ofProblem i.loc (.noSet i.operation)]
  else []

theorem input_tells (w : Setting) (l : Location) (op : String) (target : Option Path) (s : Bool) :
    Tells (input w l op target s) (w.missing ⟨l, op, s⟩) := by
  have hreception : (receptionDiagnostics l op target).filter Diagnostic.isMissingSet = [] := by
    unfold receptionDiagnostics
    split
    · split <;> rfl
    · rfl
  have hmissing : (w.missing ⟨l, op, s⟩).filter Diagnostic.isMissingSet = w.missing ⟨l, op, s⟩ := by
    unfold Setting.missing
    split <;> rfl
  refine (input_reports w l op target s).tells.cast ?_
  show List.filter _ (_ ++ w.missing ⟨l, op, s⟩) = _
  rw [List.filter_append, hreception, hmissing, List.nil_append]

end Tells

/-- A walk reports a missing set for these inputs. -/
abbrev TellsOf {α : Type} (w : Setting) (m : Walk α) (is : List Input) : Prop :=
  Tells m (is.flatMap w.missing)

section Walk

variable {w : Setting}

theorem TellsOf.bind {α β : Type} {m : Walk α} {f : α → Walk β} {is js : List Input}
    (h : TellsOf w m is) (hf : ∀ p, TellsOf w (f (m.run p).1) js) :
    TellsOf w (m >>= f) (is ++ js) :=
  (Tells.bind h hf).cast List.flatMap_append.symm

/-- What is walked after an activity is walked with the flag that it leaves. -/
theorem TellsOf.flagged {α : Type} {a : Activity} {s : Bool} {next : Facts × Bool → Walk α}
    {is js : List Input} (h : TellsOf w (walk w a s) is)
    (hnext : ∀ f, TellsOf w (next (f, a.after s)) js) :
    TellsOf w (walk w a s >>= next) (is ++ js) := by
  refine h.bind fun p => ?_
  have hresult : ((walk w a s).run p).1 = (((walk w a s).run p).1.1, a.after s) :=
    Prod.ext rfl (walk_flag a s p)
  rw [hresult]
  exact hnext _

theorem walkSequence_tells {as : List Activity}
    (h : ∀ a ∈ as, ∀ s, TellsOf w (walk w a s) (a.inputs s)) (f : Facts) (s : Bool) :
    TellsOf w (walkSequence w as f s) (Activity.inputsAll as s) := by
  induction as generalizing f s with
  | nil => rw [walkSequence]; exact .pure _
  | cons a rest ih =>
    obtain ⟨ha, hrest⟩ := List.forall_mem_cons.1 h
    rw [walkSequence_cons, Activity.inputsAll]
    exact (ha s).flagged fun g => (inSequence_tells f g).then fun _ => ih hrest _ _

theorem walkParallel_tells {as : List Activity}
    (h : ∀ a ∈ as, ∀ s, TellsOf w (walk w a s) (a.inputs s)) (f : Facts) (s : Bool) :
    TellsOf w (walkParallel w as f s) (Activity.inputsAll as s) := by
  induction as generalizing f s with
  | nil => rw [walkParallel]; exact .pure _
  | cons a rest ih =>
    obtain ⟨ha, hrest⟩ := List.forall_mem_cons.1 h
    rw [walkParallel_cons, Activity.inputsAll]
    exact (ha s).flagged fun g => (inParallel_tells f g).then fun _ => ih hrest _ _

theorem walkBranch_tells {b : Branch}
    (hg : ∀ s, TellsOf w (walk w b.guard s) (b.guard.inputs s))
    (hb : ∀ s, TellsOf w (walk w b.body s) (b.body.inputs s)) (s : Bool) :
    TellsOf w (walkBranch w b s) (b.guard.inputs s ++ b.body.inputs (b.guard.after s)) :=
  (hg s).flagged fun f => Tells.before (hb _) fun r => inSequence_tells f r.1

theorem walkBranches_tells {bs : List Branch}
    (h : ∀ b ∈ bs, ∀ s, TellsOf w (walkBranch w b s)
      (b.guard.inputs s ++ b.body.inputs (b.guard.after s))) (s : Bool) (f : Facts)
    (reported : List String) :
    TellsOf w (walkBranches w bs s f reported) (Activity.inputsBranches bs s) := by
  induction bs generalizing f reported with
  | nil => rw [walkBranches]; exact .pure _
  | cons b rest ih =>
    obtain ⟨hb, hrest⟩ := List.forall_mem_cons.1 h
    rw [walkBranches_cons, Activity.inputsBranches_cons]
    refine (hb s).bind fun _ => ?_
    exact (reportBranches_tells s reported _).then fun _ => ih hrest _ _

theorem walkArms_tells {arms : List Arm}
    (h : ∀ a ∈ arms, ∀ s, TellsOf w (walk w a.body s) (a.body.inputs s)) (s : Bool) (f : Facts)
    (sofar : Bool) (reported : List String) :
    TellsOf w (walkArms w arms s f sofar reported) (Activity.inputsArms arms s) := by
  induction arms generalizing f sofar reported with
  | nil => rw [walkArms]; exact .pure _
  | cons a rest ih =>
    obtain ⟨ha, hrest⟩ := List.forall_mem_cons.1 h
    rw [walkArms_cons, Activity.inputsArms_cons]
    refine (ha s).bind fun _ => ?_
    exact (reportMismatches_tells .cond reported _).then fun _ => ih hrest _ _ _

theorem walkHandlers_tells {hs : List Handler}
    (h : ∀ x ∈ hs, ∀ s, TellsOf w (walk w x.body s) (x.body.inputs s)) :
    TellsOf w (walkHandlers w hs) (Activity.inputsHandlers hs) := by
  induction hs with
  | nil => rw [walkHandlers]; exact .pure _
  | cons x rest ih =>
    obtain ⟨hx, hrest⟩ := List.forall_mem_cons.1 h
    rw [walkHandlers_cons, Activity.inputsHandlers_cons]
    exact (hx false).bind fun _ => ih hrest

/-- A walk whose calls report no missing set reports those of its inputs, in their order. -/
theorem walk_tells (hlook : ∀ n, Tells (w.lookup n) []) (a : Activity) (s : Bool) :
    TellsOf w (walk w a s) (a.inputs s) := by
  induction a generalizing s with
  | sequence l as ih =>
    rw [Activity.inputs]
    -- The first activity is walked by itself; the loop runs over the others, with the flag it left.
    cases as with
    | nil => rw [walk]; exact .pure _
    | cons a rest =>
      obtain ⟨ha, hrest⟩ := List.forall_mem_cons.1 ih
      rw [walk_sequence_cons, Activity.inputsAll]
      exact (ha s).flagged fun f => walkSequence_tells hrest f _
  | parallel l as ih =>
    rw [Activity.inputs]
    cases as with
    | nil => rw [walk]; exact .pure _
    | cons a rest =>
      obtain ⟨ha, hrest⟩ := List.forall_mem_cons.1 ih
      rw [walk_parallel_cons, Activity.inputsAll]
      exact (ha s).flagged fun f => walkParallel_tells hrest f _
  | choice l bs ih =>
    have hbs : ∀ b ∈ bs, ∀ s, TellsOf w (walkBranch w b s)
        (b.guard.inputs s ++ b.body.inputs (b.guard.after s)) :=
      fun b hb => walkBranch_tells (ih b hb).1 (ih b hb).2
    rw [Activity.inputs]
    cases bs with
    | nil => rw [walk]; exact .pure _
    | cons b rest =>
      obtain ⟨hb, hrest⟩ := List.forall_mem_cons.1 hbs
      rw [walk_choice_cons, Activity.inputsBranches_cons]
      exact (hb s).bind fun _ => Tells.before (walkBranches_tells hrest s _ []) fun _ => .pure _
  | cond l arms otherwise iha iho =>
    rw [Activity.inputs]
    cases arms with
    | nil => rw [walk]; exact iho s
    | cons a rest =>
      obtain ⟨ha, hrest⟩ := List.forall_mem_cons.1 iha
      rw [walk_cond_cons, Activity.inputsArms_cons, List.append_assoc]
      refine (ha s).bind fun _ => TellsOf.bind (walkArms_tells hrest s _ _ []) fun _ => ?_
      exact Tells.before (iho s) fun _ => (reportMismatches_tells .cond _ _).then fun _ => .pure _
  | whileLoop l c body ih =>
    rw [walk_whileLoop, Activity.inputs]
    exact Tells.before (ih s) fun r => (forbidInit_tells l r.1).then fun _ => .pure r
  | forEach l key target body ih =>
    rw [walk_forEach, Activity.inputs]
    exact Tells.before (ih s) fun r => (forbidInit_tells l r.1).then fun _ => .pure r
  | forLoop l first c post body ihf ihp ihb =>
    rw [walk_forLoop, Activity.inputs]
    refine (ihf s).flagged fun f => (ihb _).flagged fun g => Tells.before (ihp _) fun r => ?_
    refine (inSequence_tells g r.1).then fun turn => (forbidInit_tells l turn).then fun _ => ?_
    exact (inSequence_tells f turn).then fun _ => .pure _
  | call l n =>
    rw [walk_call]
    refine (hlook n).then fun found => ?_
    cases found with
    | some f => exact .pure _
    | none => exact (report_tells l rfl).then fun _ => .pure _
  | oneWay l op target =>
    rw [walk_oneWay, Activity.inputs]
    refine Tells.cast ((input_tells w l op target s).before fun f => .pure (f, false)) ?_
    rw [List.flatMap_singleton]
  | requestResponse l op target output handler ih =>
    rw [walk_requestResponse, Activity.inputs]
    refine Tells.bind (input_tells w l op target s) fun p => ?_
    exact Tells.before (ih false) fun _ => .pure _
  | solicitResponse l op port output target =>
    rw [walk_solicitResponse]
    cases target with
    | none => exact .pure _
    | some p =>
      dsimp only
      split
      · exact (reply_tells w op port p).then fun _ => .pure _
      · exact .pure _
  | assign l target op value =>
    rw [walk_assign]
    exact (assignment_tells l target op value).then fun _ => .pure _
  | increment l p pre decrement =>
    rw [walk_increment]
    split
    · exact (report_tells l rfl).then fun _ => .pure _
    · exact .pure _
  | scope l name body ih => rw [walk, Activity.inputs]; exact ih s
  | synchronized l id body ih => rw [walk, Activity.inputs]; exact ih s
  | install l hs ih =>
    rw [walk_install, Activity.inputs]
    exact Tells.before (walkHandlers_tells ih) fun _ => .pure _
  | _ => rw [walk]; exact .pure _

end Walk

theorem Scope.apart_missing (s : Scope) (look : String → Option Facts) (d : Definition)
    (n : String) :
    (s.apart look d n).2.filter Diagnostic.isMissingSet =
      (d.body.inputs (n == s.entry)).flatMap (s.answering look).missing := by
  have hlook : ∀ m, Tells ((s.answering look).lookup m) [] := fun m => .pure (look m)
  exact (walk_tells hlook d.body (n == s.entry) {}).trans (List.nil_append _)

namespace Checker

/-! ## Checks -/

/-- The inputs of a program: a check walks each definition once, whatever calls it, and only in the
body of the entry point an input may start the session. -/
def inputs (c : Checker) : List Input :=
  (firstDefinitions c.declared).flatMap fun d => d.body.inputs (d.name == c.entryName)

/-- What a check reports of an input that has no correlation set. -/
def missing (c : Checker) : Input → List Diagnostic :=
  (c.scope.answering fun _ => none).missing

theorem places_inputs (c : Checker) : Activity.places c.inputs =
    (firstDefinitions c.declared).flatMap fun d => d.body.parts.filterMap Activity.input? := by
  rw [inputs, Activity.places, List.map_flatMap]
  exact List.flatMap_congr fun d _ => Activity.places_inputs d.body _

/-- What a check reports of the inputs of one definition, by its name. -/
def missingIn (c : Checker) (n : String) : List Diagnostic :=
  ((c.scope.definition? n).map fun d =>
    (d.body.inputs (n == c.entryName)).flatMap c.missing).getD []

theorem explains_missing {c : Checker} {e : String × Facts} {ds : List Diagnostic}
    (h : c.scope.Explains c.walked.table e ds) :
    ds.filter Diagnostic.isMissingSet = c.missingIn e.1 := by
  obtain ⟨d, cut, hd, -, -, hapart⟩ := h
  have hmissing := c.scope.apart_missing (answer c.walked.table cut) d e.1
  rw [hapart] at hmissing
  rw [missingIn, hd]
  exact hmissing

/-- Every input is asked for its set, once. -/
theorem missing_diagnostics (c : Checker) :
    (c.check.diagnostics.filter Diagnostic.isMissingSet).Perm (c.inputs.flatMap c.missing) := by
  have hbody : ∀ d ∈ c.scope.definitions,
      c.missingIn d.name = (d.body.inputs (d.name == c.entryName)).flatMap c.missing := by
    intro d hd
    rw [missingIn, definition?_of_mem hd]
    rfl
  -- The rules for the program as a whole report no missing set, so the definitions decide.
  have hwalked := c.filter_walked Diagnostic.isMissingSet fun _ _ h => explains_missing h
  rw [List.flatMap_map] at hwalked
  rw [check_diagnostics, List.filter_append, filter_verdict (sorts_isOf _) (by decide),
    List.append_nil, inputs, List.flatMap_assoc]
  exact hwalked.trans (.of_eq (List.flatMap_congr hbody))

/-! ## Checks with a validated table -/

open Correlation (Table)

variable {c : Checker} {t : Table}

/-- Outside single mode an operation correlates no path just if the table assigns it no set. -/
theorem inputPaths_eq_nil_iff (ht : t.Usable) (hdistinct : (t.operations.map (·.1)).Nodup)
    (hc : c.correlation = some t) (hm : c.mode ≠ .single) (look : String → Option Facts)
    (op : String) : inputPaths (c.scope.answering look) op = [] ↔ t.Unassigned op := by
  have hpaths : inputPaths (c.scope.answering look) op =
      ((t.setFor? op).map (·.paths)).getD [] := by
    show (if c.mode = .single then [] else ((c.correlation.bind _).map _).getD []) = _
    rw [if_neg hm, hc]
    rfl
  rw [hpaths]
  by_cases hop : t.Unassigned op
  · simp [Table.setFor?_of_unassigned hdistinct hop, hop]
  · rw [Table.Unassigned, not_or, not_not, List.mem_map] at hop
    obtain ⟨⟨⟨op, name⟩, hmem, rfl⟩, hname⟩ := hop
    have hne : name ≠ "" := by
      rintro rfl
      exact hname hmem
    obtain ⟨s, hset, hvars, -⟩ := ht.setFor?_of_mem hdistinct hmem hne
    have hunassigned : ¬t.Unassigned op := by
      rintro (h | h)
      · exact h (List.mem_map_of_mem hmem)
      · exact hname h
    simp [hset, Correlation.CorrelationSet.paths, hvars, hunassigned]

theorem missing_eq (ht : t.Usable) (hdistinct : (t.operations.map (·.1)).Nodup)
    (hc : c.correlation = some t) (hm : c.mode ≠ .single) (i : Input) :
    c.missing i = if i.starter = false ∧ t.Unassigned i.operation then
      [Diagnostic.ofProblem i.loc (.noSet i.operation)] else [] := by
  have hmode : (c.scope.answering fun _ => none).mode ≠ .single := hm
  rw [missing, Setting.missing]
  simp only [inputPaths_eq_nil_iff ht hdistinct hc hm, hmode, ne_eq, not_false_eq_true, true_and]

/-- The inputs that do not start the session and have no set. -/
def unassignedInputs (c : Checker) (t : Table) : List Input :=
  c.inputs.filter fun i => !i.starter && decide (t.Unassigned i.operation)

theorem flatMap_missing (ht : t.Usable) (hdistinct : (t.operations.map (·.1)).Nodup)
    (hc : c.correlation = some t) (hm : c.mode ≠ .single) :
    c.inputs.flatMap c.missing = (c.unassignedInputs t).map fun i =>
      Diagnostic.ofProblem i.loc (.noSet i.operation) := by
  rw [unassignedInputs]
  induction c.inputs with
  | nil => rfl
  | cons i rest ih =>
    rw [List.flatMap_cons, ih, missing_eq ht hdistinct hc hm, List.filter_cons]
    by_cases h : i.starter = false ∧ t.Unassigned i.operation
    · rw [if_pos h, if_pos (by simpa using h), List.map_cons, List.singleton_append]
    · rw [if_neg h, if_neg (by simpa using h), List.nil_append]

/-- The report that an input has no correlation set. -/
def missingSetReport (i : Input) : Diagnostic where
  kind := "MissingCorrelationSet"
  loc := i.loc
  path := ""
  message := "no correlation set defined for operation " ++ i.operation

/-- A table is validated without error exactly if it is usable, and else with its first fault; in
which order its operations are listed makes no difference. With a table that was validated an
operation has a set just if it is mapped to a name, the only set of that name and not an empty one.
So outside single mode a check reports a missing set of exactly those inputs that do not start the
session and whose operation is unmapped or mapped to the empty name. The inputs are those of the
text of the first definition of each name, each of them once and in its order. -/
theorem validate_decides (t : Table) (hdistinct : (t.operations.map (·.1)).Nodup) :
    (t.validate = none ↔ t.Usable) ∧
    (∀ e, t.validate = some e ↔ t.Fault e) ∧
    (∀ ops, t.operations.Perm ops → (Table.mk t.sets ops).validate = t.validate) ∧
    (t.validate = none →
      (∀ op name, (op, name) ∈ t.operations → name ≠ "" → ∃ s, t.setFor? op = some s ∧
        s.vars ≠ [] ∧ (t.sets.filter fun x => x.name == name) = [s]) ∧
      (∀ op, t.Unassigned op → t.setFor? op = none) ∧
      ∀ c : Checker, c.correlation = some t → c.mode ≠ .single →
        (c.check.diagnostics.filter fun d => d.kind == "MissingCorrelationSet").Perm
          ((c.unassignedInputs t).map missingSetReport)) ∧
    ∀ c : Checker, Activity.places c.inputs =
      (firstDefinitions c.declared).flatMap fun d => d.body.parts.filterMap Activity.input? := by
  refine ⟨Table.validate_eq_none_iff, fun _ => Table.validate_eq_some_iff hdistinct,
    fun _ hops => (Table.validate_perm hops hdistinct).symm, fun hnone => ?_, places_inputs⟩
  have husable : t.Usable := Table.validate_eq_none_iff.1 hnone
  refine ⟨fun _ _ hmem hname => husable.setFor?_of_mem hdistinct hmem hname,
    fun _ hop => Table.setFor?_of_unassigned hdistinct hop, fun c hc hm => ?_⟩
  have hreports : (c.unassignedInputs t).map missingSetReport = c.inputs.flatMap c.missing :=
    (flatMap_missing husable hdistinct hc hm).symm
  rw [hreports]
  exact c.missing_diagnostics

/-- One operation is mapped to the empty name. -/
def hotline : Table where
  sets := [corrSet "S" ["sid"]]
  operations := [("next", "S"), ("greet", "S"), ("log", "")]

/-- A program that receives four messages; the operation of the last one is not mapped. -/
def listener : Checker :=
  .ofMain hotline
    (.sequence {} [receive "greet", receive "log", receive "next", receive "ping"])

theorem validate_decides_listener :
    (hotline.operations.map (·.1)).Nodup ∧ hotline.validate = none ∧
      hotline.setFor? "log" = none ∧ (∃ s, hotline.setFor? "next" = some s ∧ s.vars ≠ []) ∧
      (listener.check.diagnostics.filter fun d => d.kind == "MissingCorrelationSet").Perm
        [⟨"MissingCorrelationSet", {}, "", "no correlation set defined for operation log"⟩,
          ⟨"MissingCorrelationSet", {}, "", "no correlation set defined for operation ping"⟩] := by
  have hdistinct : (hotline.operations.map (·.1)).Nodup := by decide
  have hvalid : hotline.validate = none :=
    Table.validate_eq_none_iff.2 ⟨⟨by decide, by decide⟩, by decide⟩
  obtain ⟨hsets, hnone, hcheck⟩ := (validate_decides hotline hdistinct).2.2.2.1 hvalid
  obtain ⟨s, hset, hvars, -⟩ := hsets "next" "S" (by decide) (by decide)
  exact ⟨hdistinct, hvalid, hnone "log" (by decide), ⟨s, hset, hvars⟩,
    hcheck listener rfl (by decide)⟩

end Checker

end Check

end Sessions
